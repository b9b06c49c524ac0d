import ObjectMapping.Proofs.SessionGrounding
import ObjectMapping.Proofs.Enlistment

/-!
# Coherent registries

Tables, values and constraints speak of each other by positions and names.  `Registry.Coherent`
says that all of these references can be followed: every table that something is stored in
exists, and every column that a value, a primary key, a foreign key or an index lists is one of
its table.  A registry that is grounded is coherent, and so is every registry that a session can
be driven to.

Unique keys are the exception.  The unique key of a component is put on the table of the owning
entity, and the columns of a component inside a join or a collection are in another table.  As
long as no such component is marked as unique, unique keys list columns of their own table, too.
-/

namespace ObjectMapping

open Binding Registry

/-! ## Coherence -/

/-- Tables, values and constraints fit together. -/
structure Registry.Coherent (r : Registry) : Prop where
  entityTables : ∀ e ∈ r.entities.values, r.Holds e.table
  joinTables : ∀ e ∈ r.entities.values, ∀ j ∈ e.joins, r.Holds j.table
  valueTables : ∀ v ∈ r.parts, ∀ id, v.table? = some id → r.Holds id
  collectionTables : ∀ c ∈ r.collections.values, ∀ id, c.table = some id → r.Holds id
  parentTables : ∀ t ∈ r.tables.values, ∀ id, t.denormalizedParent = some id → r.Holds id
  /-- The columns of the simple core of a value are columns of its table. -/
  coreColumns : ∀ v ∈ r.parts, ∀ core, v.simple? = some core → ∀ id, core.table = some id →
    ∀ t, r.table? id = some t → core.columnNames ⊆ t.columns.keys
  primaryKeys : ∀ t ∈ r.tables.values, ∀ columns, t.primaryKey = some columns →
    columns ⊆ t.columns.keys
  foreignKeys : ∀ t ∈ r.tables.values, ∀ k ∈ t.foreignKeys.values, k.columns ⊆ t.columns.keys
  indexes : ∀ t ∈ r.tables.values, ∀ i ∈ t.indexes.values,
    i.columns ⊆ t.columns.keys ∧ i.columns.Nodup
  /-- No unique key lists a column twice; see `uniqueKeys_own` for which columns it lists. -/
  uniqueKeys : ∀ t ∈ r.tables.values, ∀ k ∈ t.uniqueKeys.values, k.columns.Nodup

section

variable {S : Source} {r : Registry}

/-- The simple core of a grounded value is grounded. -/
theorem Value.Rooted.core {v : Value} (h : v.Rooted S r) {core : SimpleValue}
    (hcore : v.simple? = some core) : core.Grounded S r := by
  cases v with
  | manyToOne v => cases hcore; exact h.base.grounded
  | dependant | oneToOne => cases hcore; exact SimpleValue.GroundedBy.grounded h
  | simple | any => cases hcore; exact h
  | component | collection | oneToMany => cases hcore

/-- The table of a grounded value exists. -/
theorem Value.Rooted.holds {v : Value} (h : v.Rooted S r) {id : TableId}
    (htable : v.table? = some id) : r.Holds id := by
  have hcore : ∀ core, v.simple? = some core → core.table = some id → r.Holds id := by
    intro core hsimple hin
    exact ((h.core hsimple).hasColumns hin).holds
  cases v with
  | component c =>
    obtain ⟨⟨id', hin, hid⟩, -⟩ := h
    cases hin.symm.trans htable
    exact hid
  | oneToMany v => exact h id htable
  | collection => cases htable
  | simple | dependant | manyToOne | oneToOne | any => exact hcore _ rfl htable

namespace Registry.Grounded

variable (hr : r.Grounded S)
include hr

theorem entity_of_mem {e : Entity} (he : e ∈ r.entities.values) : e.Grounded S r := by
  obtain ⟨name, hname⟩ := KeyedList.mem_values_iff.mp he
  exact hr.entities name e hname

theorem collection_of_mem {c : Collection} (hc : c ∈ r.collections.values) : c.Grounded S r := by
  obtain ⟨role, hrole⟩ := KeyedList.mem_values_iff.mp hc
  exact hr.collections role c hrole

theorem table_of_mem {t : Table} (ht : t ∈ r.tables.values) : t.Grounded S r := by
  obtain ⟨i, hi⟩ := KeyedList.mem_values_iff_getIdx?.mp ht
  exact hr.tables ⟨i⟩ t hi

/-- Everything that a grounded registry stores is grounded. -/
theorem part_of_mem {v : Value} (hv : v ∈ r.parts) : v.Rooted S r := by
  obtain ⟨w, hw, hpart⟩ := List.mem_flatMap.mp hv
  refine (?_ : w.Grounded S r) v hpart
  rcases List.mem_append.mp hw with hentity | hcollection
  · obtain ⟨e, he, hin⟩ := List.mem_flatMap.mp hentity
    exact (hr.entity_of_mem he).value hin
  · obtain ⟨c, hc, hin⟩ := List.mem_flatMap.mp hcollection
    exact (hr.collection_of_mem hc).values w hin

/-- A grounded registry is coherent. -/
theorem coherent : r.Coherent where
  entityTables e he := (hr.entity_of_mem he).table
  joinTables e he j hj := ((hr.entity_of_mem he).joins j hj).table
  valueTables v hv id htable := (hr.part_of_mem hv).holds htable
  collectionTables c hc id htable := (hr.collection_of_mem hc).table id htable
  parentTables t ht id hparent := (hr.table_of_mem ht).denormalizedParent id hparent
  coreColumns := by
    intro v hv core hcore id htable t ht
    exact (((hr.part_of_mem hv).core hcore).hasColumns htable).subset ht
  primaryKeys t ht columns hcolumns := (hr.table_of_mem ht).primaryKey columns hcolumns
  foreignKeys := by
    intro t ht k hk
    obtain ⟨name, hname⟩ := KeyedList.mem_values_iff.mp hk
    exact ((hr.table_of_mem ht).foreignKeys name k hname).2.columns
  indexes t ht i hi := (hr.table_of_mem ht).indexes i hi
  uniqueKeys t ht k hk := ((hr.table_of_mem ht).uniqueKeys k hk).2

end Registry.Grounded

end

namespace Session

/-- In every registry that a session can be driven to, tables, values and constraints fit
together. -/
theorem coherent_of_driven {options : RegistryOptions} {documents : Document → Prop}
    {r : Registry} (h : Driven options documents r) : r.Coherent := h.grounded.coherent

/-! ## An order book -/

/-- A person and an order.  The order has an address that is marked as unique, a note in a table
of its own and lines with components, and it refers to its buyer. -/
def orderBook : Document := documentOf [
  identifiedClass "Person" [],
  identifiedClass "Order" [
    { name := "many-to-one"
      attributes := .ofList [("name", "buyer"), ("class", "Person"), ("column", "buyer_id"),
        ("index", "by_buyer")] },
    { name := "component"
      attributes := .ofList [("name", "address"), ("class", "Address"), ("unique", "true")]
      children := [namedElement "property" "street" []] },
    { name := "join"
      attributes := .ofList [("table", "OrderNote")]
      children := [columnElement "key" "order_id", namedElement "property" "note" []] },
    namedElement "set" "lines" [
      columnElement "key" "order_id",
      { name := "composite-element"
        attributes := .ofList [("class", "Line")]
        children := [namedElement "property" "article" []] }]]]

/-- The order book as it is built. -/
def builtOrderBook : Registry :=
  finish.after ((addAll [⟨orderBook, .empty⟩]).after { options := {} })

/-- The order book is built without an error. -/
theorem built_orderBook : Built {} [⟨orderBook, .empty⟩] builtOrderBook :=
  built_of_succeeds (by decide +kernel) (by decide +kernel)

/-- The four tables of the order book have between them an index, a unique key and three foreign
keys, and everything fits together. -/
theorem coherent_of_driven_orderBook :
    Driven {} (Arrives [⟨orderBook, .empty⟩]) builtOrderBook ∧
      (builtOrderBook.tables.values.map fun t =>
        (t.name, t.indexes.size, t.uniqueKeys.size, t.foreignKeys.size))
          = [("Person", 0, 0, 0), ("Order", 1, 1, 1), ("OrderNote", 0, 0, 1),
            ("Order_lines", 0, 0, 1)] ∧
      builtOrderBook.Coherent := by
  have hdriven := built_orderBook.driven
  exact ⟨hdriven, by decide +kernel, coherent_of_driven hdriven⟩

/-! ## Unique keys -/

/-- If no component inside a join or a collection is marked as unique, unique keys list columns
of their own table only. -/
theorem uniqueKeys_own {options : RegistryOptions} {documents : Document → Prop} {r : Registry}
    (h : Driven options documents r) (hinside : ¬ (sourceOf options documents).UniqueInside) :
    ∀ t ∈ r.tables.values, ∀ k ∈ t.uniqueKeys.values, k.columns ⊆ t.columns.keys := by
  intro t ht k hk
  exact ((h.grounded.table_of_mem ht).uniqueKeys k hk).1.resolve_left hinside

/-- In the order book the component that is marked as unique is in the table of the order. -/
theorem uniqueKeys_own_orderBook :
    Driven {} (Arrives [⟨orderBook, .empty⟩]) builtOrderBook ∧
      ¬ (sourceOf {} (Arrives [⟨orderBook, .empty⟩])).UniqueInside ∧
      (builtOrderBook.tables.values.flatMap fun t => t.uniqueKeys.values.map (·.columns))
        = [["street"]] ∧
      ∀ t ∈ builtOrderBook.tables.values, ∀ k ∈ t.uniqueKeys.values,
        k.columns ⊆ t.columns.keys := by
  have hdriven := built_orderBook.driven
  have hinside : ¬ (sourceOf {} (Arrives [⟨orderBook, .empty⟩])).UniqueInside := by
    refine Source.not_uniqueInside ?_
    rintro d ⟨arrival, harrival, rfl⟩
    cases List.mem_singleton.mp harrival
    decide +kernel
  exact ⟨hdriven, hinside, by decide +kernel, uniqueKeys_own hdriven hinside⟩

/-- An order whose note, in a table of its own, is a component that is marked as unique. -/
def noteBook : Document := documentOf [
  identifiedClass "Order" [
    { name := "join"
      attributes := .ofList [("table", "OrderNote")]
      children := [
        columnElement "key" "order_id",
        { name := "component"
          attributes := .ofList [("name", "note"), ("class", "Note"), ("unique", "true")]
          children := [namedElement "property" "text" []] }] }]]

/-- Unique keys may list columns of other tables: the unique key of the note is put on the table
of the order, which does not have the columns of the note. -/
theorem uniqueKey_misplaced : ¬ ∀ (options : RegistryOptions) (documents : Document → Prop)
    (r : Registry), Driven options documents r →
      ∀ t ∈ r.tables.values, ∀ k ∈ t.uniqueKeys.values, k.columns ⊆ t.columns.keys := by
  intro hclaim
  have hdriven : Driven {} (· = noteBook)
      ((Call.add noteBook .empty).run.after { options := {} }) :=
    .call .start (.add noteBook .empty) fun _ hsome => (Option.some.inj hsome).symm
  obtain ⟨t, ht, k, hk, column, hcolumn, hmissing⟩ :
      ∃ t ∈ ((Call.add noteBook .empty).run.after { options := {} }).tables.values,
        ∃ k ∈ t.uniqueKeys.values, ∃ column ∈ k.columns, column ∉ t.columns.keys := by
    decide +kernel
  exact hmissing (hclaim _ _ _ hdriven t ht k hk hcolumn)

end Session

end ObjectMapping
