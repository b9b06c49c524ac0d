import ObjectMapping.Proofs.Face

/-!
# What entities and collections are made of

An entity and a collection store values, and a value may hold others: those of a component's
properties, and the one that a dependent key refers to.  The parts of a value are the value and
all values inside it, at any depth.  The spans of a property are what can be referred to through
it: its own columns and those of the properties inside it, each with the path that leads there.

A property that is marked as an alternate key keeps its spans, and its parts change in their
marks only.
-/

namespace ObjectMapping

open Registry

/-! ## Parts of values -/

mutual

/-- A value and the values inside it. -/
def Value.parts : Value → List Value
  | .component c => .component c :: c.parts
  | .dependant base wrapped nullable updatable =>
    .dependant base wrapped nullable updatable :: wrapped.parts
  | .any v => [.any v]
  | .collection role => [.collection role]
  | .manyToOne v => [.manyToOne v]
  | .oneToMany v => [.oneToMany v]
  | .oneToOne v => [.oneToOne v]
  | .simple v => [.simple v]

/-- The values inside a component. -/
def Component.parts : Component → List Value
  | { properties, .. } => Property.partsOfAll properties

/-- The value of a property and the values inside it. -/
def Property.parts : Property → List Value
  | { value, .. } => value.parts

/-- The values of some properties and the values inside them. -/
def Property.partsOfAll : List Property → List Value
  | [] => []
  | p :: ps => p.parts ++ Property.partsOfAll ps

end

/-- The values of properties are those of each, in order. -/
theorem Property.partsOfAll_eq (ps : List Property) :
    Property.partsOfAll ps = ps.flatMap fun p => p.value.parts := by
  induction ps with
  | nil => rfl
  | cons p ps ih =>
    rw [Property.partsOfAll, ih, List.flatMap_cons]
    cases p
    rfl

/-- A component consists of itself and the parts of its members. -/
theorem Value.parts_component (c : Component) :
    (Value.component c).parts = .component c :: c.properties.flatMap fun p => p.value.parts := by
  cases c
  rw [Value.parts, Component.parts, Property.partsOfAll_eq]

/-- A value is one of its parts. -/
theorem Value.mem_parts_self (v : Value) : v ∈ v.parts := by
  cases v <;> simp [Value.parts]

/-! ## Foreign keys of parts -/

/-- The foreign key of an association is made to its target, or not at all. -/
theorem Registry.of_constrainAssociation {P : Registry → Prop} {base : SimpleValue} {toOne : ToOne}
    (h : ∀ entity, toOne.referencedEntity = some entity → toOne.referencedProperty = none →
      ∀ r, P r → P (r.constrainTo base entity)) {r : Registry} (hr : P r) :
    P (r.constrainAssociation base toOne) := by
  unfold constrainAssociation
  split
  · next entity hproperty hentity => exact h entity hentity hproperty r hr
  · exact hr

section

variable {P : Registry → Prop}

/-- What is kept if the foreign key of an association to an identifier is made for a value. -/
def Value.ConstrainedIn (P : Registry → Prop) (v : Value) : Prop :=
  ∀ base toOne, v.simple? = some base → v.toOne? = some toOne →
    ∀ entity, toOne.referencedEntity = some entity → toOne.referencedProperty = none →
      ∀ r, P r → P (r.constrainTo base entity)

mutual

/-- Making the foreign keys of a value comes down to making one after another, each for a part of
the value. -/
theorem Registry.of_constrainValue : ∀ v : Value, (∀ w ∈ v.parts, w.ConstrainedIn P) →
    ∀ {r : Registry}, P r → P (r.constrainValue v)
  | .manyToOne v, h, _, hr =>
    of_constrainAssociation (h _ (Value.mem_parts_self _) v.base v.toOne rfl rfl) hr
  | .oneToOne v, h, _, hr => by
    rw [Registry.constrainValue]
    split
    · exact of_constrainAssociation (h _ (Value.mem_parts_self _) v.base v.toOne rfl rfl) hr
    · exact hr
  | .component c, h, _, hr => by
    rw [Registry.constrainValue]
    exact of_constrainComponent c (fun w hw => h w (by
      rw [Value.parts_component]
      exact List.mem_cons_of_mem _ hw)) hr
  | .any _, _, _, hr | .collection _, _, _, hr | .dependant _ _ _ _, _, _, hr
  | .oneToMany _, _, _, hr | .simple _, _, _, hr => hr

theorem Registry.of_constrainComponent : ∀ c : Component,
    (∀ w ∈ c.properties.flatMap fun p => p.value.parts, w.ConstrainedIn P) →
    ∀ {r : Registry}, P r → P (r.constrainComponent c)
  | { properties, .. }, h, _, hr => of_constrainProperties properties h hr

theorem Registry.of_constrainProperty : ∀ p : Property,
    (∀ w ∈ p.value.parts, w.ConstrainedIn P) →
    ∀ {r : Registry}, P r → P (r.constrainProperty p)
  | { value, .. }, h, _, hr => of_constrainValue value h hr

theorem Registry.of_constrainProperties : ∀ ps : List Property,
    (∀ w ∈ ps.flatMap fun p => p.value.parts, w.ConstrainedIn P) →
    ∀ {r : Registry}, P r → P (r.constrainProperties ps)
  | [], _, _, hr => hr
  | p :: ps, h, _, hr => by
    rw [List.flatMap_cons] at h
    rw [Registry.constrainProperties]
    have hfirst := of_constrainProperty p (fun w hw => h w (List.mem_append_left _ hw)) hr
    exact of_constrainProperties ps (fun w hw => h w (List.mem_append_right _ hw)) hfirst

end

end

/-! ## Columns of values -/

/-- The columns and formulas of a component are those of its members, in order. -/
theorem Value.selectables_component (c : Component) :
    (Value.component c).selectables = c.properties.flatMap fun p => p.value.selectables := by
  cases c
  rw [Value.selectables, Component.selectables, Property.selectablesOfAll_eq, List.flatMap_def]

/-- The columns of a component are those of its members, in order. -/
theorem Value.columnNames_component (c : Component) :
    (Value.component c).columnNames = c.properties.flatMap fun p => p.value.columnNames := by
  simp only [Value.columnNames, Value.columns, Value.selectables_component, List.filterMap_flatMap,
    List.map_flatMap]

/-- A change of the simple core that keeps its columns and formulas keeps those of the value. -/
theorem Value.selectables_modifySimple {f : SimpleValue → SimpleValue}
    (h : ∀ v, (f v).selectables = v.selectables) (v : Value) :
    (v.modifySimple f).selectables = v.selectables := by
  cases v <;> simp [Value.modifySimple, Value.selectables, h]

/-- What the backing class knows of a value does not change its columns and formulas. -/
theorem Value.selectables_reflected (reflection : Reflection) (className property : String)
    (v : Value) : (v.reflected reflection className property).selectables = v.selectables := by
  cases v <;> rfl

/-- The nullability of columns does not show in their names. -/
theorem SimpleValue.columnNames_withNullable (v : SimpleValue) (nullable : Bool) :
    (v.withNullable nullable).columnNames = v.columnNames := by
  simp only [SimpleValue.columnNames, SimpleValue.columns, SimpleValue.withNullable,
    List.filterMap_map, List.map_filterMap]
  congr 1
  funext s
  cases s <;> rfl

/-- The nullability of columns does not make formulas of them. -/
theorem SimpleValue.hasFormula_withNullable (v : SimpleValue) (nullable : Bool) :
    (v.withNullable nullable).hasFormula = v.hasFormula := by
  simp only [SimpleValue.hasFormula, SimpleValue.withNullable, List.any_map]
  congr 1
  funext s
  cases s <;> rfl

/-- A value without a formula has a column if it has anything at all. -/
theorem SimpleValue.columnNames_ne_nil {v : SimpleValue} (h : v.selectables ≠ [])
    (hformula : v.hasFormula = false) : v.columnNames ≠ [] := by
  simp only [SimpleValue.columnNames, SimpleValue.columns, SimpleValue.hasFormula] at *
  cases hs : v.selectables with
  | nil => exact absurd hs h
  | cons s rest =>
    cases s with
    | column c => simp [Selectable.column?]
    | formula sql => simp [hs, Selectable.isFormula] at hformula

/-! ## Spans -/

mutual

/-- The path to each property inside a value, and its columns. -/
def Value.spans : Value → List (List String × List String)
  | .component c => c.spans
  | .any _ | .collection _ | .dependant _ _ _ _ | .manyToOne _ | .oneToMany _ | .oneToOne _
  | .simple _ => []

/-- The path to each property inside a component, and its columns. -/
def Component.spans : Component → List (List String × List String)
  | { properties, .. } => Property.spansOfAll properties

/-- The path to a property and to each property inside it, and their columns. -/
def Property.spans : Property → List (List String × List String)
  | { name, value, .. } =>
    ([name], value.columnNames) :: value.spans.map fun span => (name :: span.1, span.2)

/-- The paths to some properties and to each property inside them, and their columns. -/
def Property.spansOfAll : List Property → List (List String × List String)
  | [] => []
  | p :: ps => p.spans ++ Property.spansOfAll ps

end

/-- The spans of a property are its columns and the spans inside its value. -/
theorem Property.spans_eq (p : Property) : p.spans = ([p.name], p.value.columnNames) ::
    p.value.spans.map fun span => (p.name :: span.1, span.2) := by
  cases p
  rw [Property.spans]

/-- The spans of properties are those of each, in order. -/
theorem Property.spansOfAll_eq (ps : List Property) :
    Property.spansOfAll ps = ps.flatMap Property.spans := by
  induction ps with
  | nil => rfl
  | cons p ps ih => rw [Property.spansOfAll, ih, List.flatMap_cons]

theorem Value.spans_component (c : Component) :
    (Value.component c).spans = c.properties.flatMap Property.spans := by
  cases c
  rw [Value.spans, Component.spans, Property.spansOfAll_eq]

/-- A property that a path leads to is spanned by the one that the path starts from. -/
theorem Property.mem_spans_of_below? {steps : List String} {p q : Property}
    (h : p.below? steps = some q) : (p.name :: steps, q.value.columnNames) ∈ p.spans := by
  induction steps generalizing p with
  | nil =>
    cases h
    rw [Property.spans_eq]
    exact List.mem_cons_self
  | cons step steps ih =>
    rw [Property.below?] at h
    obtain ⟨member, hmember, hbelow⟩ := Option.bind_eq_some_iff.mp h
    obtain ⟨c, hc, hfound⟩ := Option.bind_eq_some_iff.mp hmember
    have hvalue : p.value = .component c := by
      cases hv : p.value <;> simp_all [Value.component?]
    have hin : member ∈ c.properties := List.mem_of_find?_eq_some hfound
    have hname : member.name = step := by simpa using List.find?_some hfound
    have hspan := ih hbelow
    rw [hname] at hspan
    rw [Property.spans_eq, hvalue, Value.spans_component]
    refine List.mem_cons_of_mem _ (List.mem_map.mpr ⟨(step :: steps, _), ?_, rfl⟩)
    exact List.mem_flatMap.mpr ⟨member, hin, hspan⟩

/-- A property that a path leads to is made of parts of the one that the path starts from. -/
theorem Property.parts_subset_of_below? {steps : List String} {p q : Property}
    (h : p.below? steps = some q) : q.value.parts ⊆ p.value.parts := by
  induction steps generalizing p with
  | nil =>
    cases h
    exact fun _ hpart => hpart
  | cons step steps ih =>
    rw [Property.below?] at h
    obtain ⟨member, hmember, hbelow⟩ := Option.bind_eq_some_iff.mp h
    obtain ⟨c, hc, hfound⟩ := Option.bind_eq_some_iff.mp hmember
    have hvalue : p.value = .component c := by
      cases hv : p.value <;> simp_all [Value.component?]
    intro part hpart
    rw [hvalue, Value.parts_component]
    refine List.mem_cons_of_mem _ (List.mem_flatMap.mpr ?_)
    exact ⟨member, List.mem_of_find?_eq_some hfound, ih hbelow hpart⟩

/-- Properties with the same spans have the same columns. -/
theorem Property.columnNames_eq_of_spans {p q : Property} (h : p.spans = q.spans) :
    p.value.columnNames = q.value.columnNames := by
  rw [Property.spans_eq, Property.spans_eq] at h
  exact congrArg Prod.snd (List.cons.inj h).1

/-- Members with the same spans make components with the same columns. -/
theorem Value.columnNames_component_congr {c c' : Component}
    (h : c'.properties.map Property.spans = c.properties.map Property.spans) :
    (Value.component c').columnNames = (Value.component c).columnNames := by
  have hheads : ∀ ps : List Property, (ps.flatMap fun p => p.value.columnNames)
      = ((ps.map Property.spans).map fun spans => (spans.headD ([], [])).2).flatten := by
    intro ps
    rw [List.map_map, List.flatMap_def]
    congr 1
    refine List.map_congr_left fun p _ => ?_
    simp [Property.spans_eq]
  rw [Value.columnNames_component, Value.columnNames_component, hheads, hheads, h]

/-- A change below a property keeps its spans if the change of the innermost one keeps the spans
of that. -/
theorem Property.spans_modifyAt {f : Property → Property} (h : ∀ p, (f p).spans = p.spans)
    (members : List Nat) (p : Property) : (p.modifyAt f members).spans = p.spans := by
  induction members generalizing p with
  | nil => exact h p
  | cons index rest ih =>
    unfold Property.modifyAt
    split
    · next c hvalue =>
      have hsame : (c.properties.modify index fun p => p.modifyAt f rest).map Property.spans
          = c.properties.map Property.spans := map_modify_of_eq _ ih _ _
      rw [Property.spans_eq, Property.spans_eq, hvalue, Value.spans_component,
        Value.spans_component, List.flatMap_def, List.flatMap_def, hsame,
        Value.columnNames_component_congr hsame]
    · rfl

/-- Marking a property as an alternate key keeps its spans. -/
theorem Registry.spans_markAlternateKey (p : Property) : (markAlternateKey p).spans = p.spans := by
  have hcolumns : (markAlternateKey p).value.columnNames = p.value.columnNames := by
    simp only [Value.columnNames, Value.columns, markAlternateKey]
    rw [Value.selectables_modifySimple (f := ({ · with alternateUniqueKey := true })) fun _ => rfl]
  have hspans : (markAlternateKey p).value.spans = p.value.spans := by
    obtain ⟨_, _, value, _⟩ := p
    cases value <;> rfl
  have hname : (markAlternateKey p).name = p.name := rfl
  rw [Property.spans_eq, Property.spans_eq, hname, hcolumns, hspans]

/-! ## Values of entities and collections -/

/-- The values that the root of a hierarchy stores besides its properties. -/
def RootData.values (r : RootData) : List Value :=
  r.identifierValue?.toList ++ (r.identifierMapper.map Value.component).toList
    ++ (r.discriminator.map fun d => Value.simple d.value).toList

/-- The values that an entity stores because of its kind. -/
def EntityKind.values : EntityKind → List Value
  | root data => data.values
  | joinedSubclass _ key => [key]
  | subclass _ | unionSubclass _ => []

/-- The values that an entity stores: of its properties, of the keys of its joins, and what
comes with its kind. -/
def Entity.values (e : Entity) : List Value :=
  e.allProperties.map Property.value ++ e.joins.filterMap Join.key ++ e.kind.values

theorem Entity.mem_values {e : Entity} {v : Value} : v ∈ e.values ↔
    (∃ p ∈ e.allProperties, p.value = v) ∨ (∃ j ∈ e.joins, j.key = some v) ∨
      v ∈ e.kind.values := by
  simp only [Entity.values, List.mem_append, List.mem_map, List.mem_filterMap, or_assoc]

/-- The values of a root are those of its data. -/
theorem Entity.values_of_root? {e : Entity} {data : RootData} (h : e.root? = some data) :
    e.kind.values = data.values := by
  obtain ⟨_, _, _, _, kind, _⟩ := e
  cases kind with
  | root => cases h; rfl
  | subclass | joinedSubclass | unionSubclass => cases h

/-- What can be referred to through the properties of an entity: paths of names, each with the
columns of the property that it leads to. -/
def Entity.spans (e : Entity) : List (List String × List String) :=
  (e.allProperties ++ e.identifierProperty?.toList).flatMap Property.spans

/-- The columns of the properties that make up the natural identifier of an entity. -/
def Entity.naturalColumns (e : Entity) : List String :=
  e.naturalIdProperties.flatMap fun p => p.value.columnNames

/-- The values that a collection stores. -/
def Collection.values (c : Collection) : List Value :=
  c.key.toList ++ c.element.toList ++ c.index.toList ++ c.identifier.toList

theorem Collection.mem_values {c : Collection} {v : Value} : v ∈ c.values ↔
    c.key = some v ∨ c.element = some v ∨ c.index = some v ∨ c.identifier = some v := by
  simp only [Collection.values, List.mem_append, Option.mem_toList, or_assoc]

/-- The elements of a collection hold the key themselves if its element is a one-to-many. -/
theorem Collection.isOneToMany_iff {c : Collection} :
    c.isOneToMany = true ↔ ∃ v, c.element = some (.oneToMany v) := by
  unfold Collection.isOneToMany
  split
  · next v hv => exact ⟨fun _ => ⟨v, hv⟩, fun _ => rfl⟩
  · next hother => exact ⟨nofun, fun ⟨v, hv⟩ => absurd hv (hother v)⟩

/-- The values that the entities and collections of a registry store. -/
def Registry.values (r : Registry) : List Value :=
  r.entities.values.flatMap Entity.values ++ r.collections.values.flatMap Collection.values

/-- Everything that the entities and collections of a registry store, at any depth. -/
def Registry.parts (r : Registry) : List Value := r.values.flatMap Value.parts

namespace Entity

/-- An added property spans what it spans, and the others what they did. -/
theorem spans_subset_addProperty (e : Entity) (p : Property) :
    e.spans ⊆ (e.addProperty p).spans := by
  intro columns hcolumns
  simp only [spans, allProperties, addProperty, identifierProperty?, root?, List.flatMap_append,
    List.mem_append] at hcolumns ⊢
  tauto

/-- An added join hides no property. -/
theorem spans_subset_addJoin (e : Entity) (j : Join) :
    e.spans ⊆ ({ e with joins := e.joins ++ [j] } : Entity).spans := by
  intro columns hcolumns
  simp only [spans, allProperties, identifierProperty?, root?, List.flatMap_append,
    List.mem_append] at hcolumns ⊢
  tauto

/-- The columns of an added property are those of the natural identifier if it is flagged, and no
others get lost. -/
theorem mem_naturalColumns_addProperty {e : Entity} {p : Property} {column : String} :
    column ∈ (e.addProperty p).naturalColumns ↔
      column ∈ e.naturalColumns ∨ p.naturalIdentifier = true ∧ column ∈ p.value.columnNames := by
  simp only [naturalColumns, naturalIdProperties, addProperty, List.filter_append,
    List.flatMap_append, List.mem_append, List.mem_flatMap, List.mem_filter, List.mem_singleton]
  grind

/-- A property that may be referred to by a name has that name. -/
theorem name_of_referableProperty? {e : Entity} {name : String} {p : Property}
    (h : e.referableProperty? name = some p) : p.name = name := by
  rcases Option.or_eq_some_iff.mp h with hdeclared | ⟨-, hidentifier⟩
  · simpa using List.find?_some hdeclared
  · simpa using (Option.filter_eq_some_iff.mp hidentifier).2

/-- A property that may be referred to by a name has one of the values of its entity. -/
theorem mem_values_of_referableProperty? {e : Entity} {name : String} {p : Property}
    (h : e.referableProperty? name = some p) : p.value ∈ e.values := by
  rw [mem_values]
  rcases Option.or_eq_some_iff.mp h with hdeclared | ⟨-, hidentifier⟩
  · exact .inl ⟨p, List.mem_of_find?_eq_some hdeclared, rfl⟩
  · obtain ⟨data, hdata, hproperty⟩ :=
      Option.bind_eq_some_iff.mp (Option.filter_eq_some_iff.mp hidentifier).1
    obtain ⟨binding, hbinding, hnamed⟩ := Option.bind_eq_some_iff.mp hproperty
    refine .inr (.inr ?_)
    rw [values_of_root? hdata, RootData.values, RootData.identifierValue?, hbinding]
    cases binding with
    | named q => cases hnamed; simp [IdentifierBinding.value]
    | unnamed => cases hnamed

/-- A property that may be referred to by a name is spanned by its entity. -/
theorem spans_subset_of_referableProperty? {e : Entity} {name : String} {p : Property}
    (h : e.referableProperty? name = some p) : p.spans ⊆ e.spans := by
  have hp : p ∈ e.allProperties ++ e.identifierProperty?.toList := by
    rcases Option.or_eq_some_iff.mp h with hdeclared | ⟨-, hidentifier⟩
    · exact List.mem_append_left _ (List.mem_of_find?_eq_some hdeclared)
    · have hfound := (Option.filter_eq_some_iff.mp hidentifier).1
      exact List.mem_append_right _ (by simp [hfound])
  exact fun columns hcolumns => List.mem_flatMap.mpr ⟨p, hp, hcolumns⟩

end Entity

end ObjectMapping
