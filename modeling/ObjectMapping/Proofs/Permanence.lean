import ObjectMapping.Proofs.Enlistment
import ObjectMapping.Proofs.Writes

/-!
# Permanence

Nothing that a registry holds is ever taken away or exchanged for something else.  Entities,
tables, columns, collections, queries and result sets stay at their positions, and what is fixed
when they are made stays fixed; so positions of tables and names, which is all that the binder
remembers of them, stay valid.  Each write of a session is of this kind, hence every step of a run.
-/

namespace ObjectMapping

open Binding Registry

/-- Keys that are apart from others stay so if a key is inserted that is not one of the others. -/
theorem KeyedList.disjoint_keys_insert {κ α : Type} [DecidableEq κ] {m : KeyedList κ α}
    {others : List κ} {key : κ} {v : α} (h : m.keys.Disjoint others) (hkey : key ∉ others) :
    (m.insert key v).keys.Disjoint others := by
  intro name hname hother
  rcases mem_keys_insert.mp hname with rfl | hold
  · exact hkey hother
  · exact h hold hother

namespace Registry

/-- A registry that has all that another one holds, at the same positions. -/
structure Extends (r r' : Registry) : Prop where
  entities : r.entities.Extends Entity.Extends r'.entities
  tables : r.tables.Extends Table.Extends r'.tables
  collections : r.collections.Extends (fun _ _ => True) r'.collections
  queries : r.queries.Extends Eq r'.queries
  sqlQueries : r.sqlQueries.Extends Eq r'.sqlQueries
  resultSets : r.resultSets.Extends Eq r'.resultSets

/-- No name is that of a query over entities and of a native query. -/
def QueriesApart (r : Registry) : Prop := r.queries.keys.Disjoint r.sqlQueries.keys

/-- A registry that extends another, in which tables keep the entries of their indexes and unique
keys, and queries are apart if they were before. -/
structure Upgrades (r r' : Registry) : Prop extends Extends r r' where
  covered : r.tables.Extends Table.CoveredBy r'.tables
  queriesApart : r.QueriesApart → r'.QueriesApart

namespace Upgrades

variable {r r' r'' : Registry}

theorem refl (r : Registry) : Upgrades r r where
  entities := .refl .refl _
  tables := .refl .refl _
  collections := .refl (fun _ => trivial) _
  queries := .refl .refl _
  sqlQueries := .refl .refl _
  resultSets := .refl .refl _
  covered := .refl .refl _
  queriesApart := id

/-- What is upgraded twice is upgraded. -/
theorem trans (h : Upgrades r r') (h' : Upgrades r' r'') : Upgrades r r'' where
  entities := h.entities.trans .trans h'.entities
  tables := h.tables.trans .trans h'.tables
  collections := h.collections.trans (fun _ _ => trivial) h'.collections
  queries := h.queries.trans .trans h'.queries
  sqlQueries := h.sqlQueries.trans .trans h'.sqlQueries
  resultSets := h.resultSets.trans .trans h'.resultSets
  covered := h.covered.trans .trans h'.covered
  queriesApart := h'.queriesApart ∘ h.queriesApart

/-- Upgrades one after another. -/
theorem of_steps {S : Registry → Registry → Prop} (hS : ∀ r r', S r r' → Upgrades r r')
    (h : Relation.ReflTransGen S r r') : Upgrades r r' := by
  induction h with
  | refl => exact refl r
  | tail _ hstep ih => exact ih.trans (hS _ _ hstep)

/-- An entity may be extended. -/
theorem modifyEntity (r : Registry) (name : String) {f : Entity → Entity}
    (h : ∀ e : Entity, e.Extends (f e)) : Upgrades r (r.modifyEntity name f) :=
  { refl r with entities := .modify .refl r.entities name h }

/-- So may a table. -/
theorem modifyTable (r : Registry) (id : TableId) {f : Table → Table}
    (h : ∀ t : Table, t.Grows (f t)) : Upgrades r (r.modifyTable id f) :=
  { refl r with
    tables := .modifyIdx .refl r.tables id.index fun t => (h t).toExtends
    covered := .modifyIdx .refl r.tables id.index fun t => (h t).covered }

/-- A table may be appended. -/
theorem insertTable (r : Registry) (key : TableKey) (t : Table) :
    Upgrades r { r with tables := r.tables.insertIfNew key t } :=
  { refl r with
    tables := .insertIfNew .refl r.tables key t
    covered := .insertIfNew .refl r.tables key t }

/-- A table that is asked for is appended, unless there is one of its key. -/
theorem addTable (r : Registry) (q : TableRequest) : Upgrades r (r.addTable q).1 := by
  rcases r.addTable_cases q with h | ⟨id, h⟩ | h <;> rw [h]
  · exact refl r
  · exact modifyTable r id fun t => .of_eq rfl rfl rfl rfl rfl rfl
  · exact insertTable r _ _

end Upgrades

/-! ## Writes -/

variable {r r' : Registry}

/-- A query gets a name that no query has, of either kind. -/
theorem QuietWrite.upgrades (h : QuietWrite r r') : Upgrades r r' := by
  cases h with
  | table id hgrows => exact .modifyTable r id hgrows
  | addTable q => exact .addTable r q
  | addDenormalizedTable h =>
    cases eq_of_addDenormalizedTable h
    exact .insertTable r _ _
  | addImport h =>
    obtain ⟨-, rfl⟩ | ⟨-, rfl⟩ := addImportUnless_eq_ok.mp h <;> exact { Upgrades.refl _ with }
  | @addQuery _ q h =>
    obtain ⟨hfresh, rfl⟩ := addQuery_eq_ok.mp h
    rw [hasQuery, Bool.or_eq_false_iff] at hfresh
    exact { Upgrades.refl r with
      queries := .insert .refl r.queries q hfresh.1
      queriesApart := fun hr =>
        KeyedList.disjoint_keys_insert hr (KeyedList.not_contains_iff.mp hfresh.2) }
  | @addSqlQuery _ q h =>
    obtain ⟨hfresh, rfl⟩ := addSqlQuery_eq_ok.mp h
    rw [hasQuery, Bool.or_eq_false_iff] at hfresh
    exact { Upgrades.refl r with
      sqlQueries := .insert .refl r.sqlQueries q hfresh.2
      queriesApart := fun hr => List.disjoint_symm <|
        KeyedList.disjoint_keys_insert (List.disjoint_symm hr)
          (KeyedList.not_contains_iff.mp hfresh.1) }
  | @addResultSet _ s h =>
    obtain ⟨hfresh, rfl⟩ := addResultSet_eq_ok.mp h
    exact { Upgrades.refl r with resultSets := .insert .refl r.resultSets s hfresh }
  | tableBinding | auxiliaryObject | propertyReference | defaults =>
    exact { Upgrades.refl r with }

/-- Preparation takes nothing back. -/
theorem Preparation.upgrades (h : Preparation r r') : Upgrades r r' := by
  cases h with
  | quiet h => exact h.upgrades
  | collection h =>
    obtain ⟨hfresh, rfl⟩ := addCollection_eq_ok.mp h
    exact { Upgrades.refl r with
      collections := .insert (fun _ => trivial) r.collections _ hfresh }
  | propertyRef => exact { Upgrades.refl r with }
  | mark name => exact .modifyEntity r name fun _ => ⟨rfl, rfl, rfl, rfl⟩

/-- Neither do deferred passes. -/
theorem Passing.upgrades (h : Passing r r') : Upgrades r r' := by
  cases h with
  | prepare h => exact h.upgrades
  | reveal name => exact .modifyEntity r name fun _ => ⟨rfl, rfl, rfl, rfl⟩
  | store c =>
    exact { Upgrades.refl r with
      collections := .modify (fun _ => trivial) r.collections c.role fun _ => trivial }

/-- A mark is no part of the layout. -/
theorem Mark.upgrades (h : Mark r r') : Upgrades r r' := by
  cases h with
  | property place => exact .modifyEntity r place.entity fun e => .modifySlot e place.slot _

end Registry

variable {r r' : Registry}

/-- What elaborates entities keeps their place in the hierarchy. -/
theorem Elaboration.upgrades (h : Elaboration r r') : r.Upgrades r' := by
  cases h with
  | prepare h => exact h.upgrades
  | change name _ hextends => exact .modifyEntity r name hextends

/-- A new entity takes the place of no other. -/
theorem Enrollment.upgrades (h : Enrollment r r') : r.Upgrades r' := by
  cases h with
  | elaborate h => exact h.upgrades
  | entity h =>
    obtain ⟨hfresh, rfl⟩ := addEntity_eq_ok.mp h
    exact { Upgrades.refl r with entities := .insert .refl r.entities _ hfresh }

/-- A declared property keeps the rest of its entity. -/
theorem Declaration.upgrades (h : Declaration r r') : r.Upgrades r' := by
  cases h with
  | waiting => exact { Upgrades.refl r with }
  | entry h =>
    cases h with
    | enroll h => exact h.upgrades
    | define h => cases h <;> exact { Upgrades.refl r with }

namespace Session

/-- No write of a document takes anything back. -/
theorem Write.upgrades (h : Write r r') : r.Upgrades r' := by
  cases h with
  | declare h => exact h.upgrades
  | take h =>
    obtain ⟨passes, -, rfl⟩ := nextPass?_eq_some_iff.mp h
    exact { Upgrades.refl r with }
  | pass h => exact h.upgrades
  | mark h => exact h.upgrades

/-! ## Runs -/

/-- A step of a run upgrades the registry, since each of its writes does. -/
theorem Step.upgrades (h : Step r r') : r.Upgrades r' :=
  .of_steps (fun _ _ => Write.upgrades) h.writes

/-- Any number of steps of a run extends the registry, and no name ever belongs to queries of both
kinds. -/
theorem extends_of_steps {options : RegistryOptions}
    (hr : Relation.ReflTransGen Step { options } r) (h : Relation.ReflTransGen Step r r') :
    r.Extends r' ∧ r'.QueriesApart := by
  have hlater : r.Upgrades r' := .of_steps (fun _ _ => Step.upgrades) h
  have hwhole : ({ options } : Registry).Upgrades r' :=
    .of_steps (fun _ _ => Step.upgrades) (hr.trans h)
  exact ⟨hlater.toExtends, hwhole.queriesApart fun _ hquery => absurd hquery List.not_mem_nil⟩

/-- An order with lines that cannot be without one.  Two queries of different kinds have the same
name. -/
def queriedOrder : Document := documentOf [
  identifiedClass "Order" [namedElement "set" "lines" [
    { name := "key", attributes := .ofList [("column", "order_id"), ("not-null", "true")] },
    { name := "one-to-many", attributes := .ofList [("class", "Line")] }]],
  identifiedClass "Line" [
    { name := "property"
      attributes := .ofList [("name", "order"), ("column", "order_id"), ("type", "long")] }],
  { name := "query", attributes := .ofList [("name", "pending")], text := "from Order" },
  { name := "sql-query", attributes := .ofList [("name", "pending")], text := "select 1" }]

/-- The registry after the document was refused. -/
def refusedOrder : Registry := (Call.add queriedOrder .empty).run.after { options := {} }

/-- Whether the column for the order of a line may be null. -/
def orderColumnNullable (r : Registry) : Option Bool :=
  (r.table? ⟨1⟩).bind fun t => (t.column? "order_id").map Column.nullable

/-- The document is refused for its second query.  What was bound before stays, and the end of the
session makes a column of it non-nullable. -/
theorem extends_of_steps_refusedOrder :
    Relation.ReflTransGen Step { options := {} } refusedOrder ∧
      Relation.ReflTransGen Step refusedOrder (finish.after refusedOrder) ∧
      (Call.run (.add queriedOrder .empty)).succeeds { options := {} } = false ∧
      refusedOrder.Extends (finish.after refusedOrder) ∧
      (finish.after refusedOrder).QueriesApart ∧
      refusedOrder.queries.keys = ["pending"] ∧
      orderColumnNullable refusedOrder = some true ∧
      orderColumnNullable (finish.after refusedOrder) = some false := by
  have hrefused : Relation.ReflTransGen Step { options := {} } refusedOrder :=
    .single (.call _ (.add queriedOrder .empty))
  have hended : Relation.ReflTransGen Step refusedOrder (finish.after refusedOrder) :=
    .single (.call _ .finish)
  obtain ⟨hextends, hapart⟩ := extends_of_steps hrefused hended
  exact ⟨hrefused, hended, by decide +kernel, hextends, hapart, by decide +kernel,
    by decide +kernel, by decide +kernel⟩

end Session

end ObjectMapping
