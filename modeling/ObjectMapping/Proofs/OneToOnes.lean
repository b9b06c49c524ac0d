import ObjectMapping.Proofs.ForeignKeys

/-!
# Foreign keys of one-to-ones

A constrained one-to-one to an identifier asks for a foreign key like a many-to-one does, but while
a many-to-one that names no column gets one from its path, a one-to-one gets none.  So the one whose
element names its columns has a foreign key under the name of its own, and the ordinary one, which
shares the identifier of its owner, has nothing that a foreign key could be made of.
-/

namespace ObjectMapping

open Binding Registry

/-- The one-to-one that a value is. -/
def Value.oneToOne? : Value → Option OneToOne
  | .oneToOne v => some v
  | .any _ | .collection _ | .component _ | .dependant _ _ _ _ | .manyToOne _ | .oneToMany _
  | .simple _ => none

theorem Value.eq_oneToOne_of_some {v : Value} {o : OneToOne} (h : v.oneToOne? = some o) :
    v = .oneToOne o := by
  cases v with
  | oneToOne => cases h; rfl
  | any | collection | component | dependant | manyToOne | oneToMany | simple => cases h

/-- The one-to-ones of declared properties. -/
def Registry.oneToOnes (r : Registry) : List OneToOne :=
  r.declaredProperties.filterMap fun p => p.value.oneToOne?

/-- A one-to-one asks for a foreign key to an entity: it is constrained, the entity is its target,
it refers to the identifier, and the mapping does not say that there is to be none. -/
def OneToOne.AsksFor (v : OneToOne) (target : String) : Prop :=
  v.constrained = true ∧ v.toOne.referencedEntity = some target ∧
    v.toOne.referencedProperty = none ∧ v.base.foreignKeyName ≠ some "none"

instance (v : OneToOne) (target : String) : Decidable (v.AsksFor target) := by
  unfold OneToOne.AsksFor
  infer_instance

/-- What a one-to-one finds under the name of its foreign key: a foreign key in its table that was
made for an element of the source.  If the name is generated, no element gives it to a foreign key
of its own, and it stands for no other columns, the foreign key has those of the one-to-one. -/
def OneToOne.FindsForeignKey (S : Source) (r : Registry) (v : OneToOne) : Prop :=
  ∃ id t k, v.base.table = some id ∧ r.table? id = some t ∧
    t.foreignKeys.get? (t.foreignKeyName v.base.foreignKeyName v.base.columnNames) = some k ∧
    (∃ node, S.Has node ∧ k.MadeFor S.naming t.name node) ∧
    (v.base.foreignKeyName = none →
      (∀ node, S.Has node → node.attribute? "foreign-key" ≠ some k.name) →
      (constraintName "FK" t.name k.columns = constraintName "FK" t.name v.base.columnNames →
        k.columns = v.base.columnNames) →
      k.columns = v.base.columnNames)

namespace Session

/-- Every one-to-one that asks for a foreign key, and has columns but no formula, finds one under
the name of its own. -/
theorem oneToOnes_constrained {options : RegistryOptions} {documents : Document → Prop}
    {r : Registry} (h : Driven options documents r) {v : OneToOne} (hv : v ∈ r.oneToOnes)
    {target : String} (hasks : v.AsksFor target) (hformula : v.base.hasFormula = false)
    (hcolumns : v.base.columnNames ≠ []) :
    v.FindsForeignKey (sourceOf options documents) r := by
  have hr := h.grounded
  obtain ⟨p, hp, hvalue⟩ := List.mem_filterMap.mp hv
  have hsecured := hr.secured_of_declared hp
  rw [Value.eq_oneToOne_of_some hvalue] at hsecured
  obtain ⟨hconstrained, htarget, hproperty, hwanted⟩ := hasks
  have hsome : v.toOne.referencedEntity.isSome := by
    rw [htarget]
    rfl
  obtain ⟨id, t, htable, ht, htaken⟩ :=
    hsecured hconstrained hproperty hsome hformula hwanted hcolumns
  obtain ⟨k, hk⟩ := KeyedList.mem_keys_iff.mp htaken
  obtain ⟨hname, hgrounded⟩ := (hr.tables id t ht).foreignKeys _ k hk
  obtain ⟨node, hnode, hmade, -⟩ := hgrounded.element
  refine ⟨id, t, k, htable, ht, hk, ⟨node, hnode, hmade⟩, fun hgenerated hunnamed hapart => ?_⟩
  have hkname := hmade.2.resolve_right (hunnamed node hnode)
  rw [hname, Table.foreignKeyName, hgenerated, Option.getD_none] at hkname
  exact hapart hkname.symm

/-- An employee who is a person and has a desk of a column of its own. -/
def staffBook : Document := documentOf [
  identifiedClass "Person" [],
  identifiedClass "Desk" [],
  identifiedClass "Employee" [
    { name := "one-to-one"
      attributes := .ofList [("name", "person"), ("class", "Person"), ("constrained", "true")] },
    { name := "one-to-one"
      attributes := .ofList [("name", "desk"), ("class", "Desk"), ("constrained", "true"),
        ("column", "desk_id")] }]]

/-- The staff book as it is built. -/
def builtStaffBook : Registry :=
  finish.after ((addAll [⟨staffBook, .empty⟩]).after { options := {} })

/-- The staff book is built without an error. -/
theorem built_staffBook : Built {} [⟨staffBook, .empty⟩] builtStaffBook :=
  built_of_succeeds (by decide +kernel) (by decide +kernel)

/-- The desk of an employee has a foreign key on its column. -/
theorem oneToOnes_constrained_staffBook :
    Driven {} (Arrives [⟨staffBook, .empty⟩]) builtStaffBook ∧
      ∃ v ∈ builtStaffBook.oneToOnes, v.AsksFor "Desk" ∧ v.base.hasFormula = false ∧
        v.base.columnNames ≠ [] ∧
        v.FindsForeignKey (sourceOf {} (Arrives [⟨staffBook, .empty⟩])) builtStaffBook := by
  have hdriven := built_staffBook.driven
  obtain ⟨v, hv, hasks, hformula, hcolumns⟩ : ∃ v ∈ builtStaffBook.oneToOnes,
      v.AsksFor "Desk" ∧ v.base.hasFormula = false ∧ v.base.columnNames ≠ [] := by
    decide +kernel
  exact ⟨hdriven, v, hv, hasks, hformula, hcolumns,
    oneToOnes_constrained hdriven hv hasks hformula hcolumns⟩

/-- A one-to-one without columns gets no foreign key, although it is constrained: nothing in the
table of employees refers to persons. -/
theorem oneToOne_unconstrained : ¬ ∀ (options : RegistryOptions) (arrivals : List Arrival)
    (r : Registry), Built options arrivals r → ∀ v ∈ r.oneToOnes, ∀ target, v.AsksFor target →
      ∃ id t, v.base.table = some id ∧ r.table? id = some t ∧
        ∃ k ∈ t.foreignKeys.values, k.referencedEntity = target := by
  intro hclaim
  obtain ⟨v, hv, hasks⟩ : ∃ v ∈ builtStaffBook.oneToOnes, v.AsksFor "Person" := by decide +kernel
  obtain ⟨id, t, -, ht, k, hk, htarget⟩ := hclaim {} _ _ built_staffBook v hv "Person" hasks
  have hnone : ∀ t ∈ builtStaffBook.tables.values, ∀ k ∈ t.foreignKeys.values,
      k.referencedEntity ≠ "Person" := by
    decide +kernel
  exact hnone t (KeyedList.mem_values_iff_getIdx?.mpr ⟨id.index, ht⟩) k hk htarget

end Session

end ObjectMapping
