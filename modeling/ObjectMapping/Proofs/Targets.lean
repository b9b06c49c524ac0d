import ObjectMapping.Proofs.Cascades
import ObjectMapping.Proofs.Resolution

/-!
# Targets of associations

Associations name their targets before these are registered.  By the end of a session three of the
ways in which a name is used have been checked: the entity of a one-to-many, the class of a
reference to a property, and the target of a foreign key to such a property.  An association
without `property-ref` is not checked, and neither is its foreign key.  `Registry.Linked` says that
these are the only names that may lead nowhere.
-/

namespace ObjectMapping

open Binding Registry

/-! ## Names that lead to entities -/

namespace Registry

/-- A name means a registered entity, directly or through an import. -/
def Resolves (r : Registry) (name : String) : Prop :=
  ∃ entity, r.resolveEntityName? name = some entity ∧ r.hasEntity entity = true

variable {r : Registry}

/-- Whatever a name means is registered. -/
theorem resolves_iff {name : String} :
    r.Resolves name ↔ ∃ entity, r.resolveEntityName? name = some entity :=
  ⟨fun ⟨entity, h, _⟩ => ⟨entity, h⟩, fun ⟨entity, h⟩ =>
    ⟨entity, h, hasEntity_of_resolveEntityName? h⟩⟩

instance (r : Registry) (name : String) : Decidable (r.Resolves name) :=
  decidable_of_iff ((r.resolveEntityName? name).isSome = true)
    (Option.isSome_iff_exists.trans resolves_iff.symm)

/-- The name of a registered entity means that entity. -/
theorem resolves_of_hasEntity {name : String} (h : r.hasEntity name = true) : r.Resolves name :=
  ⟨name, if_pos h, h⟩

/-- The many-to-ones and one-to-ones that a registry stores, at any depth. -/
def toOnes (r : Registry) : List ToOne := r.parts.filterMap Value.toOne?

/-- The names of targets lead to registered entities, apart from those that the documents use in
associations without `property-ref`. -/
structure Linked (S : Source) (r : Registry) : Prop where
  foreignKeys : ∀ t ∈ r.tables.values, ∀ k ∈ t.foreignKeys.values,
    r.Resolves k.referencedEntity ∨
      k.referencedColumns = [] ∧ S.Refers r.options.reflection k.referencedEntity
  elements : ∀ c ∈ r.collections.values, ∀ v, c.element = some (.oneToMany v) →
    ∃ target, v.referencedEntity = some target ∧ r.Resolves target
  toOnes : ∀ v ∈ r.toOnes, ∀ target, v.referencedEntity = some target →
    r.Resolves target ∨
      v.referencedProperty = none ∧ S.Refers r.options.reflection target

end Registry

/-! ## Traced names -/

section

variable {S : Source} {r : Registry}

/-- Associations that a traced registry stores are sourced. -/
theorem Registry.Traced.toOne (hr : r.Traced S) {v : ToOne} (hv : v ∈ r.toOnes) :
    v.Sourced S r := by
  obtain ⟨part, hpart, htoOne⟩ := List.mem_filterMap.mp hv
  have hsourced := hr.part_of_mem hpart
  cases part with
  | manyToOne | oneToOne =>
    cases htoOne
    exact hsourced
  | any | collection | component | dependant | oneToMany | simple => cases htoOne

/-- A sourced association leads to an entity if all recorded references do, unless it is without
`property-ref`. -/
theorem ToOne.Sourced.resolves {v : ToOne} (hv : v.Sourced S r)
    (hreferences : ∀ ref ∈ r.propertyReferences, r.Resolves ref.entity) {target : String}
    (htarget : v.referencedEntity = some target) :
    r.Resolves target ∨ v.referencedProperty = none ∧ S.Refers r.options.reflection target := by
  cases hproperty : v.referencedProperty with
  | some property => exact .inl (hreferences _ (hv.recorded target property htarget hproperty))
  | none => exact .inr ⟨rfl, hv.named target htarget hproperty⟩

end

namespace Session

/-! ## The theorem -/

/-- Once a session that was supplied with some documents is ended well, the names of its targets
lead to registered entities, apart from those in associations without `property-ref`. -/
theorem targets_linked {options : RegistryOptions} {documents : Document → Prop} {r r' : Registry}
    (h : Supplied options documents r) (hfinish : finish.run r = .ok () r') :
    r'.Linked (sourceOf options documents) := by
  obtain ⟨hdriven, hbound⟩ := h.boundIn hfinish
  obtain ⟨log, r₁, -, happlied⟩ := of_run_finish hfinish
  have htraced := hdriven.traced.2
  refine ⟨fun t ht k hk => ?_, fun c hc v hv => ?_, fun v hv target htarget => ?_⟩
  · exact (htraced.foreignKeys k ⟨t, ht, hk⟩).imp_left resolves_of_hasEntity
  · obtain ⟨name, e, he, htarget, -⟩ := (hbound c hc).settled v hv
    obtain rfl := (htraced.entities name e he).1
    exact ⟨e.name, htarget, resolves_of_hasEntity (hasEntity_iff_exists.mpr ⟨e, he⟩)⟩
  · refine (htraced.toOne hv).resolves (fun ref href => ?_) htarget
    exact resolves_iff.mpr (resolved_of_applyPropertyReferences happlied ref href)

/-- An order whose buyer is a person, found by a number, and whose agent is of a class that is not
mapped.  Its lines are under another name. -/
def unmappedAgent : Document := documentOf [
  { name := "import", attributes := .ofList [("class", "Line"), ("rename", "Item")] },
  identifiedClass "Person" [namedElement "property" "number" []],
  identifiedClass "Line" [],
  identifiedClass "Order" [
    { name := "many-to-one"
      attributes := .ofList [("name", "buyer"), ("class", "Person"), ("column", "buyer_number"),
        ("property-ref", "number")] },
    { name := "many-to-one"
      attributes := .ofList [("name", "agent"), ("class", "Agent"), ("column", "agent_id")] },
    namedElement "set" "lines" [columnElement "key" "order_id",
      { name := "one-to-many", attributes := .ofList [("class", "Item")] }]]]

/-- The order before its session is ended. -/
def suppliedOrder : Registry := (Call.add unmappedAgent .empty).run.after { options := {} }

theorem supplied_order : Supplied {} (· = unmappedAgent) suppliedOrder :=
  .call .start (.add unmappedAgent .empty) nofun fun _ hdocument => (Option.some.inj hdocument).symm

/-- The foreign key of the buyer is to a registered entity, and that of the agent is not. -/
theorem targets_linked_unmappedAgent : Supplied {} (· = unmappedAgent) suppliedOrder ∧
    ∃ r', finish.run suppliedOrder = .ok () r' ∧
      r'.Linked (sourceOf {} (· = unmappedAgent)) ∧
      (∃ t ∈ r'.tables.values, ∃ k ∈ t.foreignKeys.values, k.referencedEntity = "Person" ∧
        r'.Resolves k.referencedEntity) ∧
      ∃ t ∈ r'.tables.values, ∃ k ∈ t.foreignKeys.values, k.referencedEntity = "Agent" ∧
        ¬ r'.Resolves k.referencedEntity := by
  obtain ⟨⟨⟩, hrun⟩ := exists_run_of_succeeds (m := finish) (r := suppliedOrder) (by decide +kernel)
  exact ⟨supplied_order, _, hrun, targets_linked supplied_order hrun, by decide +kernel,
    by decide +kernel⟩

/-- A session may be ended well although an association leads nowhere: the agent of an order is of
a class that is not mapped. -/
theorem unmapped_target_accepted : ¬ ∀ (options : RegistryOptions) (r r' : Registry),
    Open options r → finish.run r = .ok () r' →
      (∀ t ∈ r'.tables.values, ∀ k ∈ t.foreignKeys.values, r'.Resolves k.referencedEntity) ∧
      (∀ c ∈ r'.collections.values, ∀ v target, c.element = some (.oneToMany v) →
        v.referencedEntity = some target → r'.Resolves target) ∧
      ∀ v ∈ r'.toOnes, ∀ target, v.referencedEntity = some target → r'.Resolves target := by
  intro hclaim
  obtain ⟨⟨⟩, hrun⟩ := exists_run_of_succeeds (m := finish) (r := suppliedOrder) (by decide +kernel)
  obtain ⟨-, -, htoOnes⟩ := hclaim {} suppliedOrder _ supplied_order.isOpen hrun
  obtain ⟨v, hv, htarget⟩ : ∃ v ∈ (finish.after suppliedOrder).toOnes,
      v.referencedEntity = some "Agent" := by
    decide +kernel
  have hnone : ¬ (finish.after suppliedOrder).Resolves "Agent" := by decide +kernel
  exact hnone (htoOnes v hv "Agent" htarget)

end Session

end ObjectMapping
