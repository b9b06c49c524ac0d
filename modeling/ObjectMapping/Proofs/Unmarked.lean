import ObjectMapping.Proofs.Places

/-!
# Registries without marks

A property that is an alternate key carries a mark in its core, the simple value behind it.  Two
views of a registry are enough to say what a mark changes: the registry *unmarked*, in which no
property is an alternate key, and the core at each place.  A mark does not show in the first
(`unmarked_modifyPropertyAt`) and shows in the second at its own place only, whatever places contain
one another (`coreAt?_modifyPropertyAt`).  Places are found alike in a registry and in the registry
unmarked (`referencedPlace?_unmarked`), so that no mark leads a path astray.
-/

namespace ObjectMapping

/-! ## Without marks -/

mutual

/-- The value with no property as an alternate key. -/
def Value.unmarked : Value → Value
  | .component c => .component c.unmarked
  | .simple v => .simple { v with alternateUniqueKey := false }
  | .dependant base wrapped nullable updatable =>
    .dependant { base with alternateUniqueKey := false } wrapped nullable updatable
  | .manyToOne v => .manyToOne { v with base := { v.base with alternateUniqueKey := false } }
  | .oneToOne v => .oneToOne { v with base := { v.base with alternateUniqueKey := false } }
  | .any v => .any { v with base := { v.base with alternateUniqueKey := false } }
  | .collection role => .collection role
  | .oneToMany v => .oneToMany v

/-- The component with no property as an alternate key. -/
def Component.unmarked : Component → Component
  | { table, ownerEntity, roleName, componentClass, isDynamic, embedded, isKey, unsavedValue,
      parentProperty, nodeName, properties, metas, tuplizers } =>
    { table, ownerEntity, roleName, componentClass, isDynamic, embedded, isKey, unsavedValue,
      parentProperty, nodeName, metas, tuplizers
      properties := Property.allUnmarked properties }

/-- The property, neither it nor one below it an alternate key. -/
def Property.unmarked : Property → Property
  | { name, nodeName, value, access, cascade, insertable, updatable, optimisticLocked, isLazy,
      isOptional, generation, naturalIdentifier, selectable, backref, metas } =>
    { name, nodeName, access, cascade, insertable, updatable, optimisticLocked, isLazy,
      isOptional, generation, naturalIdentifier, selectable, backref, metas
      value := value.unmarked }

/-- The properties, none of them an alternate key. -/
def Property.allUnmarked : List Property → List Property
  | [] => []
  | p :: ps => p.unmarked :: Property.allUnmarked ps

end

/-- The marks of properties are taken away one by one. -/
theorem Property.allUnmarked_eq_map (ps : List Property) :
    Property.allUnmarked ps = ps.map Property.unmarked := by
  induction ps with
  | nil => rfl
  | cons p ps ih => rw [Property.allUnmarked, ih, List.map_cons]

/-- The mark of a component is on its properties alone. -/
theorem Component.unmarked_eq (c : Component) :
    c.unmarked = { c with properties := c.properties.map Property.unmarked } := by
  cases c
  rw [Component.unmarked, Property.allUnmarked_eq_map]

/-- A property keeps its name without its mark. -/
@[simp] theorem Property.name_unmarked (p : Property) : p.unmarked.name = p.name := by
  cases p
  rfl

/-- The mark of a property is that of its value. -/
@[simp] theorem Property.value_unmarked (p : Property) : p.unmarked.value = p.value.unmarked := by
  cases p
  rfl

/-- Nothing of a property but its value carries a mark. -/
theorem Property.unmarked_eq (p : Property) :
    p.unmarked = { p with value := p.value.unmarked } := by
  cases p
  rfl

/-- The binding of an identifier with no property as an alternate key. -/
def IdentifierBinding.unmarked : IdentifierBinding → IdentifierBinding :=
  IdentifierBinding.modifyProperty Property.unmarked

/-- The entity with no property as an alternate key. -/
def Entity.unmarked (e : Entity) : Entity :=
  { e with
    properties := e.properties.map Property.unmarked
    joins := e.joins.map fun j => { j with properties := j.properties.map Property.unmarked }
    kind := e.kind.modifyRoot fun data =>
      { data with identifier := data.identifier.map IdentifierBinding.unmarked } }

/-- The registry with no property as an alternate key. -/
def Registry.unmarked (r : Registry) : Registry where
  __ := r
  entities :=
    { entries := r.entities.entries.map fun e => (e.1, e.2.unmarked)
      nodup_keys := by simpa [List.map_map, Function.comp_def] using r.entities.nodup_keys }

/-! ## Places are found without marks -/

/-- Members are located alike. -/
theorem Property.locate?_unmarked (p : Property) (steps : List String) :
    p.unmarked.locate? steps = p.locate? steps := by
  induction steps generalizing p with
  | nil => rfl
  | cons step steps ih =>
    rw [Property.locate?, Property.locate?, Property.value_unmarked]
    cases p.value with
    | component c =>
      simp only [Value.unmarked, Component.unmarked_eq, List.findIdx?_map, Function.comp_def,
        Property.name_unmarked, List.getElem?_map]
      simp [Option.bind_map, ih]
    | _ => rfl

namespace Entity

/-- An entity keeps its name without its marks. -/
@[simp] theorem name_unmarked (e : Entity) : e.unmarked.name = e.name := rfl

/-- An entity keeps its superclass without its marks. -/
@[simp] theorem superclass?_unmarked (e : Entity) : e.unmarked.superclass? = e.superclass? := by
  obtain ⟨_, _, _, _, kind, _⟩ := e
  cases kind <;> rfl

/-- The identifier property is found whether or not there are marks. -/
theorem identifierProperty?_unmarked (e : Entity) :
    e.unmarked.identifierProperty? = e.identifierProperty?.map Property.unmarked := by
  obtain ⟨_, _, _, _, kind, _⟩ := e
  cases kind with
  | root data =>
    obtain ⟨identifier, _⟩ := data
    rcases identifier with _ | (p | v) <;> rfl
  | subclass | joinedSubclass | unionSubclass => rfl

/-- A property is found by its name whether or not there are marks. -/
theorem property?_unmarked (e : Entity) (name : String) :
    e.unmarked.property? name = (e.property? name).map Property.unmarked := by
  have hall : e.unmarked.allProperties = e.allProperties.map Property.unmarked := by
    simp [allProperties, unmarked, List.map_flatMap, List.flatMap_map]
  rw [property?, property?, hall, List.find?_map]
  simp only [Function.comp_def, Property.name_unmarked]

/-- Slots are found alike. -/
theorem referableSlot?_unmarked (e : Entity) (name : String) :
    e.unmarked.referableSlot? name = e.referableSlot? name := by
  have hdeclared : e.unmarked.declaredSlot? name = e.declaredSlot? name := by
    unfold declaredSlot?
    simp [unmarked, List.findIdx?_map, List.any_map, Function.comp_def, Option.bind_map]
  unfold referableSlot?
  rw [hdeclared, property?_unmarked, identifierProperty?_unmarked]
  simp [Function.comp_def]

/-- Properties may be referred to by the same names. -/
theorem hasReferable_unmarked (e : Entity) (name : String) :
    e.unmarked.hasReferable name = e.hasReferable name := by
  unfold hasReferable
  rw [property?_unmarked, identifierProperty?_unmarked]
  simp [Option.any_map]

/-- A slot holds the same property, unmarked. -/
theorem slot?_unmarked (e : Entity) (slot : PropertySlot) :
    e.unmarked.slot? slot = (e.slot? slot).map Property.unmarked := by
  cases slot with
  | own index => simp [slot?, unmarked]
  | joined join index =>
    cases hjoin : e.joins[join]? <;> simp [slot?, unmarked, hjoin]
  | identifier => exact e.identifierProperty?_unmarked

end Entity

namespace Registry

variable (r : Registry)

/-- An entity is found by its name whether or not there are marks. -/
theorem entity?_unmarked (name : String) :
    r.unmarked.entity? name = (r.entity? name).map Entity.unmarked := by
  simp only [entity?, unmarked, KeyedList.get?, List.find?_map, Function.comp_def, Option.map_map]

/-- The chain of superclasses does not depend on marks. -/
theorem superclassChain_unmarked (name : String) :
    r.unmarked.superclassChain name = (r.superclassChain name).map Entity.unmarked := by
  have hwithin : ∀ bound name,
      r.unmarked.chainWithin bound name = (r.chainWithin bound name).map Entity.unmarked := by
    intro bound
    induction bound with
    | zero => exact fun _ => rfl
    | succ bound ih =>
      intro name
      rw [chainWithin, chainWithin, entity?_unmarked]
      cases r.entity? name with
      | none => rfl
      | some e =>
        simp only [Option.map_some, Entity.superclass?_unmarked, List.map_cons]
        cases e.superclass? <;> simp [ih]
  have hsize : r.unmarked.entities.size = r.entities.size := by
    simp [unmarked, KeyedList.size]
  rw [superclassChain, superclassChain, hsize, hwithin]

/-- Paths lead to the same places. -/
theorem referencedPlace?_unmarked (entity path : String) :
    r.unmarked.referencedPlace? entity path = r.referencedPlace? entity path := by
  unfold referencedPlace? propertyOwner?
  simp only [superclassChain_unmarked, List.find?_map, Function.comp_def,
    Entity.hasReferable_unmarked]
  cases (r.superclassChain entity).find? (·.hasReferable (pathSteps path).1) with
  | none => rfl
  | some owner =>
    simp only [Option.map_some, Option.bind_eq_bind, Option.bind_some, entity?_unmarked,
      Entity.name_unmarked]
    cases r.entity? owner.name with
    | none => rfl
    | some registered =>
      simp only [Option.map_some, Option.bind_some, Entity.referableSlot?_unmarked]
      cases registered.referableSlot? (pathSteps path).1 with
      | none => rfl
      | some slot =>
        simp only [Option.bind_some, Entity.slot?_unmarked]
        cases registered.slot? slot with
        | none => rfl
        | some p => simp [Property.locate?_unmarked]

end Registry

/-! ## What a mark shows -/

/-- Marking the core of a value does not show in the value unmarked. -/
theorem Value.unmarked_modifySimple (v : Value) :
    (v.modifySimple ({ · with alternateUniqueKey := true })).unmarked = v.unmarked := by
  cases v <;> rfl

/-- A mark at a member does not show in the property unmarked. -/
theorem Property.unmarked_modifyAt (p : Property) (members : List Nat) :
    (p.modifyAt Registry.markAlternateKey members).unmarked = p.unmarked := by
  induction members generalizing p with
  | nil => rw [Property.modifyAt, Registry.markAlternateKey, Property.unmarked_eq,
      Property.unmarked_eq p, Value.unmarked_modifySimple]
  | cons index rest ih =>
    unfold Property.modifyAt
    split
    · next c hc =>
      rw [Property.unmarked_eq, Property.unmarked_eq p, hc]
      simp only [Value.unmarked, Component.unmarked_eq, map_modify_of_eq _ ih]
    · rfl

/-- The core that carries the mark of a property. -/
def Property.core? (p : Property) : Option SimpleValue := p.value.simple?

/-- A mark shows at the member that is marked, and nowhere else. -/
theorem Property.core?_modifyAt (p : Property) (members others : List Nat) :
    ((p.modifyAt Registry.markAlternateKey members).at? others).bind Property.core?
      = ((p.at? others).bind Property.core?).map fun v =>
          if others = members then { v with alternateUniqueKey := true } else v := by
  induction members generalizing p others with
  | nil =>
    cases others with
    | nil =>
      simp only [Property.modifyAt, Property.at?, Option.bind_some, Property.core?,
        Registry.markAlternateKey, if_true]
      cases p.value <;> rfl
    | cons j js =>
      have hcomponent : (Registry.markAlternateKey p).value.component? = p.value.component? := by
        rw [Registry.markAlternateKey]
        cases p.value <;> rfl
      simp [Property.modifyAt, Property.at?, hcomponent]
  | cons i is ih =>
    unfold Property.modifyAt
    split
    · next c hc =>
      cases others with
      | nil => simp [Property.at?, Property.core?, Value.simple?, hc]
      | cons j js =>
        simp only [Property.at?, Value.component?, Option.bind_some, hc, List.getElem?_modify]
        cases c.properties[j]? with
        | none => rfl
        | some q =>
          by_cases hij : i = j
          · subst hij
            simpa using ih q js
          · simp [hij, Ne.symm hij]
    · next hother =>
      cases others with
      | nil => simp
      | cons j js =>
        have hnone : p.value.component? = none := by
          cases hvalue : p.value with
          | component c => exact absurd hvalue (hother c)
          | _ => rfl
        simp [Property.at?, hnone]

namespace Entity

/-- A change that the property unmarked hides is hidden by the entity unmarked. -/
theorem unmarked_modifySlot (e : Entity) (slot : PropertySlot) {f : Property → Property}
    (h : ∀ p, (f p).unmarked = p.unmarked) : (e.modifySlot f slot).unmarked = e.unmarked := by
  cases slot with
  | own index => simp [modifySlot, unmarked, map_modify_of_eq _ h]
  | joined join index =>
    have hjoin : ∀ j : Join,
        ({ j with properties := (j.properties.modify index f).map Property.unmarked } : Join)
          = { j with properties := j.properties.map Property.unmarked } := fun j => by
      rw [map_modify_of_eq _ h]
    simp only [modifySlot, unmarked]
    rw [map_modify_of_eq (fun j : Join =>
      ({ j with properties := j.properties.map Property.unmarked } : Join)) hjoin]
  | identifier =>
    obtain ⟨_, _, _, _, kind, _⟩ := e
    cases kind with
    | root data =>
      obtain ⟨identifier, _⟩ := data
      rcases identifier with _ | (p | v)
      · rfl
      · simp [modifySlot, modifyRoot, unmarked, EntityKind.modifyRoot, IdentifierBinding.unmarked,
          IdentifierBinding.modifyProperty, h]
      · rfl
    | subclass | joinedSubclass | unionSubclass => rfl

/-- A slot is changed, and no other. -/
theorem slot?_modifySlot (e : Entity) (slot other : PropertySlot) (f : Property → Property) :
    (e.modifySlot f slot).slot? other
      = (e.slot? other).map fun p => if other = slot then f p else p := by
  have hidentifier : (e.modifySlot f .identifier).identifierProperty?
      = e.identifierProperty?.map f := by
    obtain ⟨_, _, _, _, kind, _⟩ := e
    cases kind with
    | root data =>
      obtain ⟨identifier, _⟩ := data
      rcases identifier with _ | (p | v) <;> rfl
    | subclass | joinedSubclass | unionSubclass => rfl
  cases slot with
  | own i =>
    cases other with
    | own j =>
      by_cases hij : i = j
      · simp [modifySlot, slot?, hij]
      · simp [modifySlot, slot?, hij, Ne.symm hij]
    | joined | identifier => simp [modifySlot, slot?, identifierProperty?, root?]
  | joined k i =>
    cases other with
    | joined l j =>
      simp only [modifySlot, slot?, List.getElem?_modify]
      cases e.joins[l]? with
      | none => rfl
      | some join =>
        by_cases hkl : k = l
        · by_cases hij : i = j
          · simp [hkl, hij]
          · simp [hkl, hij, Ne.symm hij]
        · simp [hkl, Ne.symm hkl]
    | own | identifier => simp [modifySlot, slot?, identifierProperty?, root?]
  | identifier =>
    cases other with
    | identifier => simpa [slot?] using hidentifier
    | own | joined => simp [modifySlot, modifyRoot, slot?]

end Entity

namespace Registry

variable (r : Registry)

/-- The core at a place, which carries the mark. -/
def coreAt? (r : Registry) (place : PropertyPlace) : Option SimpleValue :=
  (r.propertyAt? place).bind Property.core?

/-- A mark does not show in the registry unmarked. -/
theorem unmarked_modifyPropertyAt (place : PropertyPlace) :
    (r.modifyPropertyAt place markAlternateKey).unmarked = r.unmarked := by
  have hentries : ((r.modifyPropertyAt place markAlternateKey).entities.entries.map
      fun e => (e.1, e.2.unmarked)) = r.entities.entries.map fun e => (e.1, e.2.unmarked) := by
    simp only [modifyPropertyAt, modifyEntity, KeyedList.modify, List.map_map]
    refine List.map_congr_left fun e _ => ?_
    by_cases he : e.1 = place.entity
    · simp [he, e.2.unmarked_modifySlot place.slot fun p => p.unmarked_modifyAt place.members]
    · simp [he]
  simp only [unmarked, hentries]
  rfl

/-- A mark shows in the core at its place, and in no other. -/
theorem coreAt?_modifyPropertyAt (place other : PropertyPlace) :
    (r.modifyPropertyAt place markAlternateKey).coreAt? other
      = (r.coreAt? other).map fun v =>
          if other = place then { v with alternateUniqueKey := true } else v := by
  obtain ⟨entity, slot, members⟩ := place
  obtain ⟨entity', slot', members'⟩ := other
  simp only [coreAt?, propertyAt?, modifyPropertyAt, modifyEntity, entity?, KeyedList.get?_modify]
  cases r.entities.get? entity' with
  | none => rfl
  | some e =>
    by_cases hentity : entity' = entity
    · simp only [hentity, Option.map_some, Option.bind_some, if_true, Entity.slot?_modifySlot]
      cases e.slot? slot' with
      | none => rfl
      | some p =>
        by_cases hslot : slot' = slot
        · simpa [hslot] using p.core?_modifyAt members members'
        · simp [hslot]
    · simp [hentity]

end Registry

end ObjectMapping
