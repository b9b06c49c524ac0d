import ObjectMapping.Proofs.Growth

/-!
# Opening an entity

An entity is opened when its header is bound and it is registered, before its body is bound.
What it is by then can be read off its element: its name, its kind and its superclass, and on
a root the version and the shadow of a composite identifier as its first properties.  The
lemmas here say so of every run that ends well, and that opening an entity is growth however
it ends.
-/

namespace ObjectMapping

open Binding Registry

/-! ## Headers -/

/-- A header has the name and kind it is asked for, and no properties. -/
theorem yields_bindHeader (scope : Scope) (node : Element) (name : String) (kind : EntityKind)
    (table : TableId) : Yields (bindHeader scope node name kind table) fun e =>
      e.skeleton = .bare name kind.label kind.superclass? := by
  unfold bindHeader
  exact .next fun _ => .next fun _ => .next fun _ => .pure rfl

/-- An entity is opened for an element if its name is that of the element and it declares
nothing. -/
def OpenedFor (scope : Scope) (node : Element) (kind : String) (superclass : Option String)
    (e : Entity) : Prop :=
  entityNameOf scope node = .ok e.name ∧ e.skeleton = .bare e.name kind superclass

/-- A header under the name of its element is opened for that element. -/
theorem yields_header {scope : Scope} {node : Element} {name : String}
    (hname : entityNameOf scope node = .ok name) (kind : EntityKind) (table : TableId) :
    Yields (bindHeader scope node name kind table)
      (OpenedFor scope node kind.label kind.superclass?) := by
  refine (yields_bindHeader scope node name kind table).mono fun e hskeleton => ?_
  have hsame : e.name = name := congrArg EntitySkeleton.name hskeleton
  rw [OpenedFor, hsame]
  exact ⟨hname, hskeleton⟩

/-! ## Subclasses -/

/-- A bound subclass is opened for its element under its superclass. -/
theorem yields_prepareSubclass (kind : SubclassKind) (scope : Scope) (superclass : String)
    (node : Element) : Yields (prepareSubclass kind scope superclass node)
      (OpenedFor scope node kind.tag (some superclass)) := by
  cases kind with
  | plain =>
    exact .next fun _ => .bind (.ofExcept fun _ => id) fun _ hname => yields_header hname _ _
  | joined =>
    exact .bind (.ofExcept fun _ => id) fun _ hname => .next fun _ => .next fun _ =>
      .next fun _ => .next fun _ => .next fun _ => .next fun _ => yields_header hname _ _
  | union =>
    exact .next fun _ => .bind (.ofExcept fun _ => id) fun _ hname => .next fun _ =>
      .next fun _ => .next fun _ => .next fun _ => yields_header hname _ _

/-- Changing the root of a hierarchy is a side write. -/
theorem sideWrites_modifyRootOf (r : Registry) (name : String) (f : RootData → RootData) :
    SideWrites r (r.modifyRootOf name f) := by
  unfold Registry.modifyRootOf
  split
  · exact .of (.entity r _ fun e => e.skeleton_modifyRoot f)
  · exact .refl r

/-- The registry with a new subclass, which its superclass knows. -/
def Registry.adopt (r : Registry) (e : Entity) (superclass : String) : Registry :=
  ({ r with entities := r.entities.insert e.name e } : Registry).modifyEntity superclass
    fun s => { s with subclasses := s.subclasses ++ [e.name] }

/-- A new subclass is appended, and its superclass learns of it. -/
theorem skeletons_adopt {r : Registry} {e : Entity} (hnew : r.hasEntity e.name = false)
    (superclass : String) :
    (r.adopt e superclass).skeletons =
      modifySkeleton superclass (·.addSubclass e.name) (r.skeletons ++ [(e.name, e.skeleton)]) := by
  rw [← skeletons_insert hnew]
  exact skeletons_modifyEntity _ superclass fun _ => rfl

/-- A superclass is still registered once the subclass is. -/
theorem hasEntity_insert {r : Registry} {e : Entity} (hnew : r.hasEntity e.name = false)
    {name : String} (h : r.hasEntity name = true) :
    ({ r with entities := r.entities.insert e.name e } : Registry).hasEntity name = true := by
  rw [hasEntity_iff, Registry.entityNames, skeletons_insert hnew, List.map_append]
  exact List.mem_append_left _ (hasEntity_iff.mp h)

/-- Decides how the hierarchy of a new subclass is stored, if nothing has decided it before. -/
def Registry.decideStorage (r : Registry) (name : String) (strategy : PersisterStrategy) :
    Registry :=
  if r.hasPersister name then r
  else r.modifyRootOf name ({ · with defaultPersister := some strategy })

theorem sideWrites_decideStorage (r : Registry) (name : String) (strategy : PersisterStrategy) :
    SideWrites r (r.decideStorage name strategy) := by
  unfold Registry.decideStorage
  split
  · exact .refl r
  · exact sideWrites_modifyRootOf r name _

/-- A new subclass of a registered entity is registered. -/
theorem run_registerSubclass {r : Registry} {superclass : String}
    (hknown : r.hasEntity superclass = true) {e : Entity} (hnew : r.hasEntity e.name = false)
    (strategy : PersisterStrategy) : (registerSubclass e superclass strategy).run r
      = .ok () ((r.adopt e superclass).decideStorage e.name strategy) := by
  have hadd := addEntity_eq_ok.mpr ⟨hnew, rfl⟩
  unfold registerSubclass
  rw [run_bind_of_ok (run_register_eq_ok (u := ()).mpr hadd),
    run_bind_of_ok (run_changeEntity _ (hasEntity_insert hnew hknown))]
  rfl

/-- A subclass is not registered under a name that is taken. -/
theorem run_registerSubclass_of_taken {r : Registry} {e : Entity}
    (htaken : r.hasEntity e.name = true) (superclass : String) (strategy : PersisterStrategy) :
    (registerSubclass e superclass strategy).run r = .error (.duplicateEntity e.name) r := by
  have hrefused : r.addEntity e = .error (.duplicateEntity e.name) := if_pos htaken
  refine run_bind_of_error ?_
  simp [Binding.register, Binding.ofExcept, hrefused]

/-- Registering a subclass of a registered entity either fails at once or appends it and makes
it known to its superclass. -/
theorem registerSubclass_cases {r : Registry} {superclass : String}
    (hknown : r.hasEntity superclass = true) (e : Entity) (strategy : PersisterStrategy) :
    (∃ err, (registerSubclass e superclass strategy).run r = .error err r) ∨
      (r.hasEntity e.name = false ∧ ∃ r',
        (registerSubclass e superclass strategy).run r = .ok () r' ∧
          SideWrites (r.adopt e superclass) r') := by
  cases hnew : r.hasEntity e.name with
  | true => exact .inl ⟨_, run_registerSubclass_of_taken hnew superclass strategy⟩
  | false =>
    exact .inr ⟨rfl, _, run_registerSubclass hknown hnew strategy, sideWrites_decideStorage _ _ _⟩

/-- A new subclass of a registered entity makes a registry grow. -/
theorem grows_adopt {r : Registry} {superclass : String} (hknown : r.hasEntity superclass = true)
    {e : Entity} (hnew : r.hasEntity e.name = false) (hsuper : e.superclass? = some superclass)
    (hbare : e.subclasses = []) : Grows r (r.adopt e superclass) := by
  refine ⟨?_, rfl⟩
  rw [skeletons_adopt hnew]
  rw [← Bool.not_eq_true, hasEntity_iff] at hnew
  exact .single (.subclass (k := e.skeleton) hnew (hasEntity_iff.mp hknown) hsuper hbare)

/-- Opening a subclass of a registered entity is growth. -/
theorem growing_openSubclass (kind : SubclassKind) (scope : Scope) (superclass : String)
    (node : Element) : Growing [superclass] (openSubclass kind scope superclass node) := by
  intro r hkeyed hknown
  have hbound := (quiet_prepareSubclass kind scope superclass node).aside
  refine rel_after_bind (R := Grows) .trans (.of_sideWrites (hbound r)) fun e r₁ hrun => ?_
  have hknown₁ : r₁.hasEntity superclass = true := by
    rw [(hbound.of_ok hrun).hasEntity]
    exact hknown superclass (List.mem_singleton_self _)
  refine rel_after_bind (R := Grows) .trans ?_ fun _ r₂ _ => .refl r₂
  obtain ⟨-, hskeleton⟩ := yields_prepareSubclass _ _ _ _ _ _ _ hrun
  rcases registerSubclass_cases hknown₁ e kind.strategy with
    ⟨err, hfailed⟩ | ⟨hnew, r₂, hdone, hwrites⟩
  · rw [after_eq_of_error hfailed]
    exact .refl r₁
  · rw [after_eq_of_ok hdone]
    exact (grows_adopt hknown₁ hnew (congrArg EntitySkeleton.superclass hskeleton)
      (congrArg EntitySkeleton.subclasses hskeleton)).trans (.of_sideWrites hwrites)

/-- A subclass is opened under the name of its element. -/
theorem yields_openSubclass (kind : SubclassKind) (scope : Scope) (superclass : String)
    (node : Element) : Yields (openSubclass kind scope superclass node) fun name =>
      entityNameOf scope node = .ok name := by
  unfold openSubclass
  exact .bind (yields_prepareSubclass _ _ _ _) fun _ he => .next fun _ => .pure he.1

/-- A subclass that is opened under a registered entity is new, is named by its element, and
comes last. -/
theorem skeletons_of_openSubclass {kind : SubclassKind} {scope : Scope} {superclass name : String}
    {node : Element} {r r' : Registry} (hknown : r.hasEntity superclass = true)
    (h : (openSubclass kind scope superclass node).run r = .ok name r') :
    entityNameOf scope node = .ok name ∧ r.hasEntity name = false ∧
      r'.skeletons = modifySkeleton superclass (·.addSubclass name)
        (r.skeletons ++ [(name, .bare name kind.tag (some superclass))]) := by
  obtain ⟨e, r₁, hbound, h⟩ := run_bind_eq_ok.mp h
  obtain ⟨u, r₂, hregistered, h⟩ := run_bind_eq_ok.mp h
  cases h
  have hwrites := (quiet_prepareSubclass kind scope superclass node).aside.of_ok hbound
  obtain ⟨hname, hskeleton⟩ := yields_prepareSubclass _ _ _ _ _ _ _ hbound
  have hknown₁ : r₁.hasEntity superclass = true := by
    rw [hwrites.hasEntity]
    exact hknown
  rcases registerSubclass_cases hknown₁ e kind.strategy with
    ⟨err, hfailed⟩ | ⟨hnew, r₂, hdone, hlast⟩
  · rw [hfailed] at hregistered
    cases hregistered
  · rw [hdone] at hregistered
    cases hregistered
    refine ⟨hname, ?_, ?_⟩
    · rw [← hwrites.hasEntity]
      exact hnew
    · rw [hlast.skeletons, skeletons_adopt hnew, hwrites.skeletons, hskeleton]

/-! ## Rows -/

/-- The names of the properties that an element adds to the rows of a class. -/
def Element.rowProperties (node : Element) : List String :=
  match node.tag? with
  | some .compositeId => if node.attributeIs "mapped" "true" then [identifierMapperName] else []
  | some .version | some .timestamp => (node.attribute? "name").toList
  | _ => []

/-- The name of a property-like element is its `name`. -/
theorem attribute?_of_propertyName {node : Element} {name : String}
    (h : node.propertyName = .ok name) : node.attribute? "name" = some name := by
  unfold Element.propertyName at h
  split at h
  · cases h
    assumption
  · cases h

/-- A property has the value and the name it is bound under, and is no backref and no part of a
natural identifier.  Its element says with what else it is stored, and whether it is generated and
written. -/
structure Property.BoundAs (p : Property) (scope : Scope) (node : Element) (value : Value)
    (name : String) : Prop where
  name : p.name = name
  value : p.value = value
  backref : p.backref = none
  naturalIdentifier : p.naturalIdentifier = false
  cascade : p.cascade = (node.attribute? "cascade").getD scope.defaults.cascade
  metas : p.metas = mergeMetas node scope.metas false
  generation : generationOf node = .ok p.generation
  insertable : ∃ e, writable node "insert" (p.generation ≠ .never) e = .ok p.insertable
  updatable : ∃ e, writable node "update" (p.generation = .always) e = .ok p.updatable

/-- A property that is bound is bound as its element says. -/
theorem boundAs_of_bindProperty {scope : Scope} {node : Element} {value : Value} {name : String}
    {p : Property} (h : bindProperty scope node value name = .ok p) :
    p.BoundAs scope node value name := by
  unfold bindProperty at h
  obtain ⟨generation, hgeneration, h⟩ := except_bind_eq_ok.mp h
  obtain ⟨insertable, hinsertable, h⟩ := except_bind_eq_ok.mp h
  obtain ⟨updatable, hupdatable, h⟩ := except_bind_eq_ok.mp h
  cases h
  exact ⟨rfl, rfl, rfl, rfl, rfl, rfl, hgeneration, ⟨_, hinsertable⟩, ⟨_, hupdatable⟩⟩

/-- The data of a root are not part of its skeleton. -/
theorem yields_changeRoot (e : Entity) (f : RootData → RootData) :
    Yields (changeRoot e f) fun e' => e'.skeleton = e.skeleton := by
  unfold changeRoot
  exact .ite (fun _ => .pure (e.skeleton_modifyRoot f)) fun _ => .throw _ _

/-- A simple identifier is no declared property. -/
theorem yields_bindSimpleId (scope : Scope) (e : Entity) (node : Element) :
    Yields (bindSimpleId scope e node) fun e' => e'.skeleton = e.skeleton := by
  unfold bindSimpleId
  refine .next fun v => .next fun r => ?_
  refine .ite (fun _ => .throw_bind _ _ _) fun _ => .next fun v => ?_
  split
  · exact .next fun _ => yields_changeRoot _ _
  · exact .next fun _ => yields_changeRoot _ _

/-- The shadow of a composite identifier is a declared property. -/
theorem yields_bindIdentifierMapper (scope : Scope) (e : Entity) (path : String)
    (node : Element) : Yields (bindIdentifierMapper scope e path node) fun e' =>
      e'.skeleton = e.skeleton.declare [identifierMapperName] [] := by
  unfold bindIdentifierMapper
  refine .next fun mapper => (yields_changeRoot _ _).mono fun e' hskeleton => ?_
  rw [hskeleton, Entity.skeleton_addProperty]

/-- A composite identifier declares its shadow if it is mapped twice, and otherwise nothing. -/
theorem yields_bindCompositeId (scope : Scope) (e : Entity) (node : Element) :
    Yields (bindCompositeId scope e node) fun e' => e'.skeleton = e.skeleton.declare
      (if node.attributeIs "mapped" "true" then [identifierMapperName] else []) [] := by
  unfold bindCompositeId
  refine .ite (fun _ => .throw_bind _ _ _) fun _ => .next fun id => ?_
  extract_lets key finish
  have hfinish : ∀ e₁, Yields (finish e₁) fun e' => e'.skeleton = e₁.skeleton := by
    intro e₁
    unfold finish
    dsimp only
    split
    · exact .next fun _ => yields_changeRoot _ _
    · exact yields_changeRoot _ _
  clear_value finish
  refine .ite (fun hmapped => ?_) fun hmapped => ?_
  · refine .bind (yields_bindIdentifierMapper _ _ _ _) fun e₁ he₁ => ?_
    refine (hfinish e₁).mono fun e' he' => ?_
    rw [he', he₁, if_pos hmapped]
  · refine .bind (P := fun e₁ => e₁ = e) (.pure rfl) fun e₁ he₁ => ?_
    refine (hfinish e₁).mono fun e' he' => ?_
    rw [he', he₁, if_neg hmapped, EntitySkeleton.declare_nil]

/-- A version is a declared property. -/
theorem yields_bindVersion (scope : Scope) (e : Entity) (node : Element) :
    Yields (bindVersion scope e node) fun e' =>
      e'.skeleton = e.skeleton.declare (node.attribute? "name").toList [] := by
  unfold bindVersion
  refine .bind (.ofExcept fun _ => attribute?_of_propertyName) fun name hname => ?_
  refine .next fun v => .bind (.ofExcept fun _ => boundAs_of_bindProperty) fun p hp => ?_
  refine .ite (fun _ => .throw_bind _ _ _) fun _ => ?_
  refine .bind (yields_changeRoot _ _) fun e₁ he₁ => .pure ?_
  rw [Entity.skeleton_addProperty, he₁, hp.name, hname]
  rfl

/-- A child of a class adds the properties to the entity that its element names. -/
theorem yields_bindRowChild (scope : Scope) (e : Entity) (node : Element) :
    Yields (bindRowChild scope e node) fun e' =>
      e'.skeleton = e.skeleton.declare node.rowProperties [] := by
  unfold bindRowChild
  split <;> rename_i htag
  · rw [Element.rowProperties, htag]
    exact (yields_bindSimpleId _ _ _).mono fun e' he' => by rw [he', EntitySkeleton.declare_nil]
  · rw [Element.rowProperties, htag]
    exact yields_bindCompositeId _ _ _
  · rw [Element.rowProperties, htag]
    exact yields_bindVersion _ _ _
  · rw [Element.rowProperties, htag]
    exact yields_bindVersion _ _ _
  · rw [Element.rowProperties, htag]
    unfold bindDiscriminator
    refine .next fun _ => (yields_changeRoot _ _).mono fun e' he' => ?_
    rw [he', EntitySkeleton.declare_nil]
  · rw [Element.rowProperties, htag]
    unfold bindCache
    refine .next fun _ => .pure ?_
    rw [e.skeleton_modifyRoot, EntitySkeleton.declare_nil]
  · refine .pure ?_
    unfold Element.rowProperties
    split
    · exact absurd ‹_› ‹_›
    · exact absurd ‹_› ‹_›
    · exact absurd ‹_› ‹_›
    · exact (EntitySkeleton.declare_nil _).symm

/-- The children of a class add the properties to the entity that their elements name. -/
theorem yields_bindRow (scope : Scope) (e : Entity) (children : List Element) :
    Yields (bindRow scope e children) fun e' =>
      e'.skeleton = e.skeleton.declare (children.flatMap Element.rowProperties) [] := by
  induction children generalizing e with
  | nil => exact .pure (EntitySkeleton.declare_nil _).symm
  | cons node rest ih =>
    refine .bind (yields_bindRowChild scope e node) fun e₁ he₁ => ?_
    refine (ih e₁).mono fun e' he' => ?_
    rw [he', he₁, EntitySkeleton.declare_declare, List.flatMap_cons]
    rfl

/-! ## Roots -/

/-- A root class that is bound has the name of its element, no superclass, and the properties
that its rows call for. -/
theorem yields_prepareRootClass (scope : Scope) (node : Element) :
    Yields (prepareRootClass scope node) fun e =>
      entityNameOf scope node = .ok e.name ∧
        e.skeleton = (EntitySkeleton.bare e.name "class" none).declare
          (node.children.flatMap Element.rowProperties) [] := by
  unfold prepareRootClass
  refine .bind (.ofExcept fun _ => id) fun name hname => .next fun request => ?_
  refine .next fun table => .next fun _ => .bind (yields_header hname _ _) fun e he => ?_
  obtain ⟨hnamed, hskeleton⟩ := he
  refine .next fun _ => ?_
  extract_lets rows
  have hrows : ∀ u, Yields (rows u) fun e' => e'.skeleton = e.skeleton.declare
      (node.children.flatMap Element.rowProperties) [] := by
    intro u
    refine .bind (yields_bindRow _ _ _) fun e' he' => ?_
    exact .ite (fun _ => .pure he') fun _ => .next fun _ => .pure he'
  clear_value rows
  have hclass : ∀ e' : Entity, e'.skeleton = e.skeleton.declare
      (node.children.flatMap Element.rowProperties) [] →
      entityNameOf scope node = .ok e'.name ∧
        e'.skeleton = (EntitySkeleton.bare e'.name "class" none).declare
          (node.children.flatMap Element.rowProperties) [] := by
    intro e' he'
    have hsame : e'.name = e.name := congrArg EntitySkeleton.name he'
    rw [hsame, he', hskeleton]
    exact ⟨hnamed, rfl⟩
  split
  · exact .next fun u => (hrows u).mono hclass
  · exact (hrows ()).mono hclass

/-- A root class is opened under the name of its element. -/
theorem yields_openRootClass (scope : Scope) (node : Element) :
    Yields (openRootClass scope node) fun name => entityNameOf scope node = .ok name := by
  unfold openRootClass
  exact .bind (yields_prepareRootClass _ _) fun _ he => .next fun _ => .pure he.1

/-- Opening a root class is growth. -/
theorem growing_openRootClass (scope : Scope) (node : Element) :
    Growing [] (openRootClass scope node) := by
  intro r hkeyed hknown
  have hprepared := (prepares_prepareRootClass scope node).aside
  refine rel_after_bind (R := Grows) .trans (.of_sideWrites (hprepared r)) fun e r₁ hrun => ?_
  obtain ⟨-, hskeleton⟩ := yields_prepareRootClass _ _ _ _ _ hrun
  refine rel_after_bind (R := Grows) .trans ?_ fun _ r₂ _ => .refl r₂
  rw [after_register]
  cases hadd : r₁.addEntity e with
  | ok r₂ =>
    exact .addEntity hadd (congrArg EntitySkeleton.superclass hskeleton)
      (congrArg EntitySkeleton.subclasses hskeleton)
  | error err => exact .refl r₁

/-- A root class that is opened is new, is named by its element, and comes last. -/
theorem skeletons_of_openRootClass {scope : Scope} {name : String} {node : Element}
    {r r' : Registry} (h : (openRootClass scope node).run r = .ok name r') :
    entityNameOf scope node = .ok name ∧ r.hasEntity name = false ∧
      r'.skeletons = r.skeletons ++ [(name, (EntitySkeleton.bare name "class" none).declare
        (node.children.flatMap Element.rowProperties) [])] := by
  obtain ⟨e, r₁, hbound, h⟩ := run_bind_eq_ok.mp h
  obtain ⟨u, r₂, hregistered, h⟩ := run_bind_eq_ok.mp h
  cases h
  have hwrites := (prepares_prepareRootClass scope node).aside.of_ok hbound
  obtain ⟨hname, hskeleton⟩ := yields_prepareRootClass _ _ _ _ _ hbound
  obtain ⟨hnew, rfl⟩ := addEntity_eq_ok.mp (run_register_eq_ok.mp hregistered)
  refine ⟨hname, ?_, ?_⟩
  · rw [← hwrites.hasEntity]
    exact hnew
  · rw [skeletons_insert hnew, hwrites.skeletons, hskeleton]

end ObjectMapping
