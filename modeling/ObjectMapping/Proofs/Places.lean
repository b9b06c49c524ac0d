import ObjectMapping.Proofs.Grounding

/-!
# Places of properties

A property is read by one search and changed through another.  Reading walks up the hierarchy to
the first entity with a property of that name and then down through components; a change seeks the
owner first, goes to what is registered under the owner's name, and finds a place there: a slot of
the entity and the indices of members.

This file shows that the two meet.  Slot by slot and member by member, what is found by name is
what is held at the place found by name, so that in a registry that stores every entity under its
own name, a path leads to a property exactly if it leads to a place, and the property is the one at
that place (`referencedProperty?_eq_propertyAt?`).  Hierarchies that go in circles or end at a
missing superclass are not excluded: both searches walk the same chain.
-/

namespace ObjectMapping

/-! ## Members of components -/

/-- The property that a path leads to is the one that the located members lead to. -/
theorem Property.below?_eq_at? (p : Property) (steps : List String) :
    p.below? steps = (p.locate? steps).bind p.at? := by
  induction steps generalizing p with
  | nil => rfl
  | cons step steps ih =>
    rw [Property.below?, Property.locate?]
    split
    · next c hc =>
      rw [hc, Value.component?, Option.bind_some, Component.property?,
        List.find?_eq_bind_findIdx?_getElem?]
      cases hindex : c.properties.findIdx? fun q => q.name = step with
      | none => rfl
      | some index =>
        cases hmember : c.properties[index]? with
        | none => simp [hmember]
        | some member =>
          have hat : ∀ rest, p.at? (index :: rest) = member.at? rest := fun rest => by
            simp [Property.at?, hc, Value.component?, hmember]
          simp [hmember, ih, Option.bind_assoc, hat]
    · next hother =>
      have hnone : p.value.component? = none := by
        cases hvalue : p.value with
        | component c => exact absurd hvalue (hother c)
        | _ => rfl
      rw [hnone]
      rfl

/-- Located members lead to a property. -/
theorem Property.exists_at?_of_locate? {p : Property} {steps : List String} {members : List Nat}
    (h : p.locate? steps = some members) : ∃ q, p.at? members = some q := by
  induction steps generalizing p members with
  | nil => cases h; exact ⟨p, rfl⟩
  | cons step steps ih =>
    rw [Property.locate?] at h
    split at h
    · next c hc =>
      obtain ⟨index, -, h⟩ := Option.bind_eq_some_iff.mp h
      obtain ⟨member, hmember, h⟩ := Option.bind_eq_some_iff.mp h
      obtain ⟨rest, hrest, h⟩ := Option.bind_eq_some_iff.mp h
      cases h
      obtain ⟨q, hq⟩ := ih hrest
      exact ⟨q, by simp [Property.at?, hc, Value.component?, hmember, hq]⟩
    · cases h

/-! ## Slots of entities -/

namespace Entity

/-- The declared property of a name is the one in its slot. -/
theorem property?_eq_slot? (e : Entity) (name : String) :
    e.property? name = (e.declaredSlot? name).bind e.slot? := by
  have hjoined : ∀ joins : List Join,
      joins.findSome? (fun j => j.properties.find? fun p => p.name = name)
        = (joins.findIdx? (·.properties.any fun p => p.name = name)).bind fun join =>
            joins[join]?.bind fun j =>
              (j.properties.findIdx? fun p => p.name = name).bind (j.properties[·]?) := by
    intro joins
    induction joins with
    | nil => rfl
    | cons j joins ih =>
      rw [List.findSome?_cons, List.findIdx?_cons]
      cases hfound : j.properties.find? fun p => p.name = name with
      | none =>
        have hany : (j.properties.any fun p => p.name = name) = false := by
          rw [List.any_eq_false]
          exact List.find?_eq_none.mp hfound
        simp [hany, ih, Option.bind_map]
      | some p =>
        have hname : p.name = name := by simpa using List.find?_some hfound
        have hany : (j.properties.any fun p => p.name = name) = true :=
          List.any_eq_true.mpr ⟨p, List.mem_of_find?_eq_some hfound, by simp [hname]⟩
        simp only [hany, if_true, Option.bind_some, List.getElem?_cons_zero]
        rw [← hfound, List.find?_eq_bind_findIdx?_getElem?]
  rw [property?, allProperties, List.find?_append, List.find?_flatMap, hjoined]
  unfold declaredSlot?
  dsimp only
  cases hown : e.properties.findIdx? fun p => p.name = name with
  | some index =>
    obtain ⟨hlt, -⟩ := List.findIdx?_eq_some_iff_getElem.mp hown
    simp [List.find?_eq_bind_findIdx?_getElem?, hown, slot?, hlt]
  | none =>
    simp only [List.find?_eq_bind_findIdx?_getElem?, hown, Option.bind_none, Option.map_none,
      Option.none_or]
    cases hjoin : e.joins.findIdx? (·.properties.any fun p => p.name = name) with
    | none => rfl
    | some join =>
      cases hholder : e.joins[join]? with
      | none => simp [hholder]
      | some holder =>
        cases hindex : holder.properties.findIdx? fun p => p.name = name with
        | none => simp [hholder, hindex]
        | some index => simp [hholder, hindex, slot?]

/-- An entity that owns a referable property holds it in the slot found for the name. -/
theorem referableProperty?_eq_slot? {e : Entity} {name : String}
    (howner : e.hasReferable name = true) :
    e.referableProperty? name = (e.referableSlot? name).bind e.slot? := by
  unfold referableProperty? referableSlot?
  cases hdeclared : e.property? name with
  | some p => rw [Option.isSome_some, if_pos rfl, ← property?_eq_slot?, hdeclared]; rfl
  | none =>
    rw [hasReferable, hdeclared] at howner
    obtain ⟨p, hp, hname⟩ : ∃ p, e.identifierProperty? = some p ∧ p.name = name := by
      simpa [Option.any_eq_true] using howner
    simp [hp, hname, slot?]

/-- A property may be referred to by a name if it is declared or identifies. -/
theorem isSome_referableProperty? (e : Entity) (name : String) :
    (e.referableProperty? name).isSome = e.hasReferable name := by
  unfold referableProperty? hasReferable
  rw [Option.isSome_or, Option.isSome_filter]

end Entity

/-! ## Places in registries -/

namespace Registry

variable {r : Registry}

/-- The entities of a chain are found under their own names. -/
theorem StoredByName.entity?_of_mem_superclassChain (h : r.StoredByName) {name : String}
    {e : Entity} (he : e ∈ r.superclassChain name) : r.entity? e.name = some e := by
  obtain ⟨name', hname'⟩ := (ancestor_of_mem_chainWithin he).registered
  rw [h name' e hname']
  exact hname'

/-- The first result along a list is that of the first member with one. -/
private theorem findSome?_eq_find?_bind {α β : Type} (g : α → Option β) (q : α → Bool)
    (hq : ∀ a, (g a).isSome = q a) (l : List α) : l.findSome? g = (l.find? q).bind g := by
  induction l with
  | nil => rfl
  | cons a l ih =>
    have ha := hq a
    cases hg : g a with
    | none => rw [hg] at ha; simp [hg, ← ha, ih]
    | some b => rw [hg] at ha; simp [hg, ← ha]

/-- A path leads to a property through its owner. -/
theorem referencedProperty?_eq_owner (r : Registry) (entity path : String) :
    r.referencedProperty? entity path
      = ((r.propertyOwner? entity (pathSteps path).1).bind
          (·.referableProperty? (pathSteps path).1)).bind (·.below? (pathSteps path).2) := by
  have hchain := findSome?_eq_find?_bind (·.referableProperty? (pathSteps path).1)
    (·.hasReferable (pathSteps path).1) (fun e => e.isSome_referableProperty? _)
    (r.superclassChain entity)
  rw [propertyOwner?, ← hchain]
  rfl

/-- A place that a path leads to holds a property. -/
theorem exists_propertyAt?_of_referencedPlace? {entity path : String} {place : PropertyPlace}
    (h : r.referencedPlace? entity path = some place) : ∃ p, r.propertyAt? place = some p := by
  unfold referencedPlace? at h
  obtain ⟨owner, -, h⟩ := Option.bind_eq_some_iff.mp h
  obtain ⟨registered, hregistered, h⟩ := Option.bind_eq_some_iff.mp h
  obtain ⟨slot, -, h⟩ := Option.bind_eq_some_iff.mp h
  obtain ⟨p, hp, h⟩ := Option.bind_eq_some_iff.mp h
  obtain ⟨members, hmembers, h⟩ := Option.bind_eq_some_iff.mp h
  cases h
  obtain ⟨q, hq⟩ := Property.exists_at?_of_locate? hmembers
  exact ⟨q, by simp [propertyAt?, hregistered, hp, hq]⟩

/-- Reading and changing agree: the property that a path leads to is the one at the place that the
path leads to. -/
theorem StoredByName.referencedProperty?_eq_propertyAt? (h : r.StoredByName)
    (entity path : String) :
    r.referencedProperty? entity path = (r.referencedPlace? entity path).bind r.propertyAt? := by
  rw [referencedProperty?_eq_owner]
  unfold referencedPlace?
  cases howner : r.propertyOwner? entity (pathSteps path).1 with
  | none => simp [howner]
  | some owner =>
    have hregistered := h.entity?_of_mem_superclassChain (List.mem_of_find?_eq_some howner)
    have hslot := Entity.referableProperty?_eq_slot?
      (List.find?_some (p := fun e : Entity => e.hasReferable (pathSteps path).1) howner)
    cases hfound : owner.referableSlot? (pathSteps path).1 with
    | none => simp [howner, hregistered, hslot, hfound]
    | some slot =>
      cases hp : owner.slot? slot with
      | none => simp [howner, hregistered, hslot, hfound, hp]
      | some p =>
        have hat : ∀ members, r.propertyAt? { entity := owner.name, slot, members }
            = p.at? members := fun members => by
          simp [propertyAt?, hregistered, hp]
        simp [howner, hregistered, hslot, hfound, hp, Property.below?_eq_at?, Option.bind_assoc,
          hat]

/-- A path leads to a place exactly if it leads to a property. -/
theorem StoredByName.exists_referencedPlace?_iff (h : r.StoredByName) (entity path : String) :
    (∃ place, r.referencedPlace? entity path = some place) ↔
      ∃ p, r.referencedProperty? entity path = some p := by
  rw [h.referencedProperty?_eq_propertyAt?]
  constructor
  · rintro ⟨place, hplace⟩
    obtain ⟨p, hp⟩ := exists_propertyAt?_of_referencedPlace? hplace
    exact ⟨p, by rw [hplace]; exact hp⟩
  · rintro ⟨p, hp⟩
    obtain ⟨place, hplace, -⟩ := Option.bind_eq_some_iff.mp hp
    exact ⟨place, hplace⟩

end Registry

end ObjectMapping
