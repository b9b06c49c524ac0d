import ObjectMapping.Proofs.Steady

/-!
# Quiet computations

A quiet write is a single write to tables, imports, queries, references or defaults.  It leaves
alone what a session is about: the entities, the collections, the deferred passes and the waiting
documents.  Steady writes are quiet, and so are the making of foreign keys and the recording of
references.
-/

namespace ObjectMapping

namespace Registry

/-- One write that leaves the entities, the collections, the passes, the waiting documents and the
definitions alone, and extends tables. -/
inductive QuietWrite : Registry → Registry → Prop
  | table (r : Registry) (id : TableId) {f : Table → Table}
      (hgrows : ∀ t : Table, t.Grows (f t)) : QuietWrite r (r.modifyTable id f)
  | addTable (r : Registry) (q : TableRequest) : QuietWrite r (r.addTable q).1
  /-- A table is appended that repeats the columns of the table of an entity. -/
  | addDenormalizedTable {r r' : Registry} {q : TableRequest} {parent id : TableId}
      (h : r.addDenormalizedTable q parent = .ok (r', id))
      (hparent : ∃ name e, r.entity? name = some e ∧ e.table = parent) : QuietWrite r r'
  | tableBinding (r : Registry) (logical : TableKey) (physical : String) :
      QuietWrite r (r.addTableBinding logical physical)
  | addImport {r r' : Registry} {refuse : Bool} {target shortName : String}
      (h : r.addImportUnless refuse target shortName = .ok r')
      (hrefuse : r.options.rejectConflictingImports = true → refuse = true) : QuietWrite r r'
  | auxiliaryObject (r : Registry) (o : AuxiliaryObject) : QuietWrite r (r.addAuxiliaryObject o)
  | addQuery {r r' : Registry} {q : NamedQuery} (h : r.addQuery q = .ok r') : QuietWrite r r'
  | addSqlQuery {r r' : Registry} {q : NamedSqlQuery} (h : r.addSqlQuery q = .ok r') :
      QuietWrite r r'
  | addResultSet {r r' : Registry} {s : ResultSet} (h : r.addResultSet s = .ok r') :
      QuietWrite r r'
  | propertyReference (r : Registry) (ref : PropertyReference) :
      QuietWrite r (r.addPropertyReference ref)
  | defaults (r : Registry) (d : DocumentDefaults) : QuietWrite r { r with defaults := d }

/-- Any number of quiet writes. -/
def QuietWrites : Registry → Registry → Prop := Relation.ReflTransGen QuietWrite

/-- Registries with the same entities, collections, passes and waiting documents. -/
structure Alike (r r' : Registry) : Prop where
  entities : r'.entities = r.entities
  collections : r'.collections = r.collections
  passes : r'.passes = r.passes
  waiting : r'.waiting = r.waiting

namespace Alike

variable {r r' r'' : Registry}

/-- A registry is like itself. -/
theorem refl (r : Registry) : Alike r r := ⟨rfl, rfl, rfl, rfl⟩

/-- Likeness composes. -/
theorem trans (h : Alike r r') (h' : Alike r' r'') : Alike r r'' :=
  ⟨h'.entities.trans h.entities, h'.collections.trans h.collections, h'.passes.trans h.passes,
    h'.waiting.trans h.waiting⟩

end Alike

/-- A quiet write leaves a registry like the one before. -/
theorem QuietWrite.alike {r r' : Registry} (h : QuietWrite r r') : Alike r r' := by
  cases h with
  | table | tableBinding | auxiliaryObject | propertyReference | defaults =>
    exact ⟨rfl, rfl, rfl, rfl⟩
  | addTable q =>
    rcases r.addTable_cases q with h | ⟨id, h⟩ | h <;> rw [h] <;> exact ⟨rfl, rfl, rfl, rfl⟩
  | addDenormalizedTable h =>
    cases eq_of_addDenormalizedTable h
    exact ⟨rfl, rfl, rfl, rfl⟩
  | addImport h =>
    obtain ⟨-, rfl⟩ | ⟨-, rfl⟩ := addImportUnless_eq_ok.mp h <;> exact ⟨rfl, rfl, rfl, rfl⟩
  | addQuery h =>
    obtain ⟨-, rfl⟩ := addQuery_eq_ok.mp h
    exact ⟨rfl, rfl, rfl, rfl⟩
  | addSqlQuery h =>
    obtain ⟨-, rfl⟩ := addSqlQuery_eq_ok.mp h
    exact ⟨rfl, rfl, rfl, rfl⟩
  | addResultSet h =>
    obtain ⟨-, rfl⟩ := addResultSet_eq_ok.mp h
    exact ⟨rfl, rfl, rfl, rfl⟩

namespace QuietWrites

variable {r r' r'' : Registry}

/-- No write at all. -/
theorem refl (r : Registry) : QuietWrites r r := Relation.ReflTransGen.refl

/-- Some writes after others. -/
theorem trans (h : QuietWrites r r') (h' : QuietWrites r' r'') : QuietWrites r r'' :=
  Relation.ReflTransGen.trans h h'

/-- A single write. -/
theorem of (h : QuietWrite r r') : QuietWrites r r' := Relation.ReflTransGen.single h

/-- Quiet writes leave a registry like the one before. -/
theorem alike (h : QuietWrites r r') : Alike r r' := by
  induction h with
  | refl => exact .refl r
  | tail _ hstep ih => exact ih.trans hstep.alike

end QuietWrites

/-! ## Foreign keys and references -/

/-- Making a foreign key is a quiet write. -/
theorem quietWrites_constrainTo (r : Registry) (value : SimpleValue) (entity : String) :
    QuietWrites r (r.constrainTo value entity) := by
  unfold constrainTo
  dsimp only
  split
  · exact .refl r
  · split
    · exact .refl r
    · exact .of (.table r _ fun t => .addForeignKey t _)

/-- Making the foreign key of an association is a quiet write. -/
theorem quietWrites_constrainAssociation (r : Registry) (base : SimpleValue) (toOne : ToOne) :
    QuietWrites r (r.constrainAssociation base toOne) := by
  unfold constrainAssociation
  split
  · exact quietWrites_constrainTo r _ _
  · exact .refl r

mutual

/-- Making the foreign keys of a value is quiet. -/
theorem quietWrites_constrainValue (r : Registry) : ∀ v, QuietWrites r (r.constrainValue v)
  | .manyToOne v => quietWrites_constrainAssociation r v.base v.toOne
  | .oneToOne v => by
    unfold constrainValue
    split
    · exact quietWrites_constrainAssociation r v.base v.toOne
    · exact .refl r
  | .component c => quietWrites_constrainComponent r c
  | .any _ | .collection _ | .dependant _ _ _ _ | .oneToMany _ | .simple _ => .refl r

/-- Making the foreign keys of a component is quiet. -/
theorem quietWrites_constrainComponent (r : Registry) :
    ∀ c, QuietWrites r (r.constrainComponent c)
  | { properties, .. } => quietWrites_constrainProperties r properties

/-- Making the foreign keys of a property is quiet. -/
theorem quietWrites_constrainProperty (r : Registry) : ∀ p, QuietWrites r (r.constrainProperty p)
  | { value, .. } => quietWrites_constrainValue r value

/-- Making the foreign keys of some properties is quiet. -/
theorem quietWrites_constrainProperties (r : Registry) :
    ∀ ps, QuietWrites r (r.constrainProperties ps)
  | [] => .refl r
  | p :: ps =>
    (quietWrites_constrainProperty r p).trans (quietWrites_constrainProperties _ ps)

end

/-- Recording what an association refers to is a quiet write. -/
theorem quietWrites_referTo (r : Registry) (toOne : ToOne) : QuietWrites r (r.referTo toOne) := by
  unfold referTo
  split
  · exact .of (.propertyReference r _)
  · exact .refl r

end Registry

namespace Binding

open Registry

variable {α : Type}

/-- Every run makes quiet writes only, whether it ends well or in an error. -/
def Quiet (m : Binding α) : Prop := Makes QuietWrite m

/-- A quiet computation that ends well leaves a registry like the one before. -/
theorem Quiet.alike_of_ok {m : Binding α} (h : m.Quiet) {r r' : Registry} {a : α}
    (hrun : m.run r = .ok a r') : Alike r r' :=
  QuietWrites.alike (h.of_ok hrun)

end Binding

open Binding Registry

/-! ## Quiet computations -/

/-- A steady write is quiet. -/
theorem Registry.SteadyWrite.quietWrite {r r' : Registry} (h : SteadyWrite r r') :
    QuietWrite r r' := by
  cases h with
  | table id _ hgrows => exact .table r id hgrows
  | addTable q => exact .addTable r q
  | tableBinding logical physical => exact .tableBinding r logical physical
  | addImport h hrefuse => exact .addImport h hrefuse
  | auxiliaryObject o => exact .auxiliaryObject r o
  | addQuery h => exact .addQuery h
  | addSqlQuery h => exact .addSqlQuery h
  | addResultSet h => exact .addResultSet h
  | defaults d => exact .defaults r d

/-- A steady computation is quiet. -/
theorem Binding.Steady.quiet {α : Type} {m : Binding α} (h : m.Steady) : m.Quiet :=
  Makes.mono h fun _ _ hstep => .single hstep.quietWrite

/-- Extending a table is a quiet write. -/
theorem quiet_changeTable (id : Option TableId) {f : Table → Table}
    (hgrows : ∀ t : Table, t.Grows (f t)) : Quiet (changeTable id f) := by
  cases id with
  | none => exact .pure _
  | some id => exact .modify fun r => .single (.table r id hgrows)

/-- Binding the key of a joined table is quiet. -/
theorem quiet_bindDependantKey (table : TableId) (referenced path : String) (node : Element) :
    Quiet (bindDependantKey table referenced path node) := by
  unfold bindDependantKey
  exact .bind .get fun _ => .bind (.require _ _) fun _ =>
    .bind (steady_bindSimpleValue _ _).quiet fun _ =>
    .bind (quiet_changeTable _ fun t => .setPrimaryKey t _) fun _ =>
    .bind (.modify fun r => quietWrites_constrainTo r _ _) fun _ => .pure _

/-- The table of a superclass is that of a registered entity. -/
theorem entity?_of_superclassTable {superclass : String} {table : TableId} {r r' : Registry}
    (h : (superclassTable superclass).run r = .ok table r') :
    r' = r ∧ ∃ e, r.entity? superclass = some e ∧ e.table = table := by
  unfold superclassTable at h
  rw [run_get_bind] at h
  obtain ⟨htable, rfl⟩ := run_require_eq_ok.mp h
  exact ⟨rfl, Option.map_eq_some_iff.mp htable⟩

/-- Binding a subclass without registering it is quiet. -/
theorem quiet_prepareSubclass (kind : SubclassKind) (scope : Scope) (superclass : String)
    (node : Element) : Quiet (prepareSubclass kind scope superclass node) := by
  cases kind with
  | plain =>
    exact .bind (steady_superclassTable _).quiet fun _ => .bind (.ofExcept _) fun _ =>
      (steady_bindHeader _ _ _ _ _).quiet
  | joined =>
    exact .bind (.ofExcept _) fun _ => .bind (steady_requestTable _ _ _ _).quiet fun _ =>
      .bind (steady_openTable _).quiet fun _ => .bind (steady_commentTable _ _).quiet fun _ =>
      .bind (.require _ _) fun _ => .bind (quiet_bindDependantKey _ _ _ _) fun _ =>
      .bind (steady_checkTable _ _).quiet fun _ => (steady_bindHeader _ _ _ _ _).quiet
  | union =>
    intro r
    refine rel_after_bind (R := QuietWrites) .trans ((steady_superclassTable _).quiet r)
      fun parent r₁ htable => ?_
    obtain ⟨rfl, s, hs, hparent⟩ := entity?_of_superclassTable htable
    refine rel_after_bind (R := QuietWrites) .trans (Makes.ofExcept _ r₁) fun name r₂ hname => ?_
    obtain ⟨-, rfl⟩ := run_ofExcept_eq_ok.mp hname
    have hrequest := (steady_requestTable scope node name ((abstractFlag node).getD false)).quiet
    refine rel_after_bind (R := QuietWrites) .trans (hrequest r₂) fun request r₃ hrun => ?_
    -- The registry that is written back is the one that the new table was added to.
    refine rel_after_bind (R := QuietWrites) .trans (.refl r₃) fun _ r₄ hget => ?_
    cases hget
    refine rel_after_bind (R := QuietWrites) .trans (Makes.ofExcept _ r₃) fun made r₅ hmade => ?_
    obtain ⟨hadd, rfl⟩ := run_ofExcept_eq_ok.mp hmade
    refine rel_after_bind (R := QuietWrites) .trans ?_ fun _ r₆ _ =>
      (steady_bindHeader _ _ _ _ _).quiet r₆
    refine .single (.addDenormalizedTable hadd ⟨superclass, s, ?_, hparent⟩)
    rw [entity?, (hrequest.alike_of_ok hrun).entities]
    exact hs

/-! ## Deferred passes -/

theorem quiet_bindManyToMany (scope : Scope) (c : Collection) (node : Element) :
    Quiet (bindManyToMany scope c node) := by
  unfold bindManyToMany
  refine .bind (steady_bindManyToOne _ _ _).quiet fun v => ?_
  refine .bind (.modify fun r => quietWrites_referTo r _) fun _ => ?_
  refine .bind (.mapM (fun _ => (steady_bindFilterUse _).quiet) _) fun filters => ?_
  exact .ite (.throw_bind _ _) (.pure _)

/-- Making the foreign keys of a collection is quiet. -/
theorem quietWrites_constrainContents (r : Registry) (c : Collection) (owner : Owner) :
    QuietWrites r (r.constrainContents c owner) := by
  unfold Registry.constrainContents
  split
  · exact .refl r
  · extract_lets keyed
    have hkeyed : QuietWrites r keyed := by
      unfold keyed
      split
      · exact quietWrites_constrainTo r _ _
      · exact .refl r
    clear_value keyed
    split
    · exact hkeyed.trans (quietWrites_constrainValue _ _)
    · exact hkeyed

/-- Making the foreign key of an association that was put off is quiet. -/
theorem quiet_bindPropertyRef (pass : PropertyRefPass) : Quiet (bindPropertyRef pass) := by
  unfold bindPropertyRef
  exact .bind .get fun _ => .bind (.require _ _) fun _ => .bind (.require _ _) fun _ =>
    .ite (.pure _) (quiet_changeTable _ fun t => .addForeignKey t _)

end ObjectMapping
