import ObjectMapping.Proofs.Body

/-!
# Outlines of documents

The outline of an entity is its skeleton without the subclasses, which may come from other
documents.  What entities a document declares, and their outlines, can be read off its elements
alone, without a registry: `documentOutlines` does so in the order in which they are registered.
The lemmas say that binding a document without an error registers exactly these entities, after
those that were there.
-/

namespace ObjectMapping

open Binding Registry

/-! ## Reading outlines off elements -/

/-- The members that every kind of body has in common. -/
def Tag.isSimpleMember : Tag → Bool
  | manyToOne | any | property => true
  | _ => false

/-- Whether the children of a join of a kind are properties. -/
def Tag.isJoinedProperty : Tag → Bool
  | component | dynamicComponent => true
  | tag => tag.isSimpleMember

/-- Whether the children of a body of a kind are properties. -/
def Tag.isBodyProperty : Tag → Bool
  | collection _ | oneToOne | component | dynamicComponent | properties => true
  | tag => tag.isSimpleMember

/-- The names of the properties among the children of a join. -/
def joinedNames (children : List Element) : List String :=
  (children.filter fun node => node.tag?.any Tag.isJoinedProperty).filterMap
    (·.attribute? "name")

/-- The name of the entity that an element declares. -/
def entityNameIn (defaults : DocumentDefaults) (node : Element) : String :=
  ((node.attribute? "entity-name").or ((node.attribute? "name").map defaults.qualifyClass)).getD ""

/-- What the body of an entity declares. -/
structure BodyOutline where
  properties : List String := []
  joins : List (List String) := []
  /-- The subclasses in the body, in the order of registration. -/
  subclasses : List EntitySkeleton := []

/-- What two parts of a body declare. -/
def BodyOutline.append (a b : BodyOutline) : BodyOutline where
  properties := a.properties ++ b.properties
  joins := a.joins ++ b.joins
  subclasses := a.subclasses ++ b.subclasses

mutual

/-- The outlines of a subclass and of the subclasses in its body. -/
def subclassOutlines (defaults : DocumentDefaults) (kind : SubclassKind) (superclass : String) :
    Element → List EntitySkeleton
  | ⟨tag, attributes, children, text⟩ =>
    let name := entityNameIn defaults ⟨tag, attributes, children, text⟩
    let body := bodyOutline defaults name children
    (EntitySkeleton.bare name kind.tag (some superclass)).declare body.properties body.joins
      :: body.subclasses

/-- What the group of properties of a natural identifier declares. -/
def naturalIdOutline (defaults : DocumentDefaults) (owner : String) : Element → BodyOutline
  | ⟨_, _, children, _⟩ => bodyOutline defaults owner children

/-- What the children of a body declare. -/
def bodyOutline (defaults : DocumentDefaults) (owner : String) : List Element → BodyOutline
  | [] => {}
  | node :: rest =>
    let first : BodyOutline := match node.tag? with
      | some .subclass => { subclasses := subclassOutlines defaults .plain owner node }
      | some .joinedSubclass => { subclasses := subclassOutlines defaults .joined owner node }
      | some .unionSubclass => { subclasses := subclassOutlines defaults .union owner node }
      | some .naturalId => naturalIdOutline defaults owner node
      | some tag => {
          properties := if tag.isBodyProperty then (node.attribute? "name").toList else []
          joins := if tag = .join then [joinedNames node.children] else [] }
      | none => {}
    first.append (bodyOutline defaults owner rest)

end

/-- The outlines of a root class and of the subclasses in its body. -/
def classOutlines (defaults : DocumentDefaults) (node : Element) : List EntitySkeleton :=
  let name := entityNameIn defaults node
  let body := bodyOutline defaults name node.children
  (EntitySkeleton.bare name "class" none).declare
    (node.children.flatMap Element.rowProperties ++ body.properties) body.joins
    :: body.subclasses

/-- The outlines of a top-level subclass and of the subclasses in its body. -/
def topSubclassOutlines (defaults : DocumentDefaults) (kind : SubclassKind) (node : Element) :
    List EntitySkeleton :=
  subclassOutlines defaults kind (((node.attribute? "extends").map defaults.qualifyClass).getD "")
    node

/-- The outlines of the entities that a document declares, in the order of registration. -/
def documentOutlines (root : Element) : List EntitySkeleton :=
  let defaults := DocumentDefaults.ofRoot root
  (root.childrenNamed "class").flatMap (classOutlines defaults)
    ++ SubclassKind.all.flatMap fun kind =>
      (root.childrenNamed kind.tag).flatMap (topSubclassOutlines defaults kind)

/-! ## Names of properties -/

/-- A property that is created is named by its element. -/
theorem yields_createProperty (scope : Scope) (node : Element) (value : Value)
    (className : Option String) (owner : String) :
    Yields (createProperty scope node value className owner) fun p =>
      node.attribute? "name" = some p.name := by
  unfold createProperty
  refine .bind (.ofExcept fun _ => attribute?_of_propertyName) fun name hname => ?_
  refine .next fun _ => .next fun _ => .next fun _ => ?_
  refine .ofExcept fun p hp => ?_
  rw [(boundAs_of_bindProperty hp).name]
  exact hname

/-- A simple member is bound exactly if its tag says that it is one. -/
theorem yields_bindSimpleMember (scope : Scope) (site : ColumnSite) (node : Element) (tag : Tag) :
    Yields (bindSimpleMember scope site node tag) fun value =>
      value.isSome = tag.isSimpleMember := by
  unfold bindSimpleMember
  split
  · exact .next fun _ => .pure rfl
  · exact .next fun _ => .pure rfl
  · exact .next fun _ => .pure rfl
  · refine .pure ?_
    unfold Tag.isSimpleMember
    split
    · exact absurd rfl ‹_›
    · exact absurd rfl ‹_›
    · exact absurd rfl ‹_›
    · rfl

/-- A child of a join is bound exactly if its tag says that it is a property. -/
theorem yields_bindJoinedValue (scope : Scope) (owner : Owner) (table : TableId)
    (node : Element) : Yields (bindJoinedValue scope owner table node) fun value =>
      value.isSome = node.tag?.any Tag.isJoinedProperty := by
  unfold bindJoinedValue
  dsimp only
  split
  · rw [‹node.tag? = _›]
    exact .next fun _ => .pure rfl
  · rw [‹node.tag? = _›]
    exact .next fun _ => .pure rfl
  · rw [‹node.tag? = _›]
    refine (yields_bindSimpleMember _ _ _ _).mono fun value hvalue => ?_
    rw [hvalue, Option.any_some]
    unfold Tag.isJoinedProperty
    split
    · exact absurd rfl ‹_›
    · exact absurd rfl ‹_›
    · rfl
  · rw [‹node.tag? = _›]
    exact .pure rfl

/-- The properties of a join are named by its children. -/
theorem yields_bindJoinedProperties (scope : Scope) (owner : Owner) (table : TableId)
    (isOptional : Bool) (children : List Element) :
    Yields (bindJoinedProperties scope owner table isOptional children) fun ps =>
      ps.map Property.name = joinedNames children := by
  induction children with
  | nil => exact .pure rfl
  | cons node rest ih =>
    rw [bindJoinedProperties]
    refine .bind (yields_bindJoinedValue scope owner table node) fun value hvalue => ?_
    rw [joinedNames, List.filter_cons]
    cases value with
    | none =>
      have hother : ¬node.tag?.any Tag.isJoinedProperty = true := by
        rw [← hvalue]
        exact Bool.false_ne_true
      rw [if_neg hother]
      exact ih
    | some value =>
      have hproperty : node.tag?.any Tag.isJoinedProperty = true := hvalue.symm
      rw [if_pos hproperty]
      refine .bind (yields_createProperty _ _ _ _ _) fun p hp => ?_
      refine .bind ih fun others hothers => .pure ?_
      rw [List.map_cons, hothers, List.filterMap_cons, hp]
      rfl

/-- The properties of a join are those that its element names. -/
theorem yields_bindJoin (scope : Scope) (owner : Owner) (node : Element) :
    Yields (bindJoin scope owner node) fun j => j.propertyNames = joinedNames node.children := by
  unfold bindJoin
  refine .next fun _ => .next fun _ => .next fun _ => .next fun _ => .next fun _ => ?_
  exact .bind (yields_bindJoinedProperties _ _ _ _ _) fun ps hps => .pure hps

/-- A child of a body is bound exactly if its tag says that it is a property. -/
theorem yields_bindBodyValue (scope : Scope) (owner : Owner) (walk : BodyWalk)
    (node : Element) : Yields (bindBodyValue scope owner walk node) fun value =>
      value.isSome = node.tag?.any Tag.isBodyProperty := by
  unfold bindBodyValue
  dsimp only
  split
  · rw [‹node.tag? = _›]
    exact .next fun _ => .pure rfl
  · rw [‹node.tag? = _›]
    exact .next fun _ => .pure rfl
  · rw [‹node.tag? = _›]
    exact .next fun _ => .pure rfl
  · rw [‹node.tag? = _›]
    exact .next fun _ => .pure rfl
  · rw [‹node.tag? = _›]
    exact .next fun _ => .pure rfl
  · rw [‹node.tag? = _›]
    refine (yields_bindSimpleMember _ _ _ _).mono fun value hvalue => ?_
    rw [hvalue, Option.any_some]
    unfold Tag.isBodyProperty
    split
    · next hcollection _ _ _ _ _ => exact (hcollection _ rfl).elim
    · exact absurd rfl ‹_›
    · exact absurd rfl ‹_›
    · exact absurd rfl ‹_›
    · exact absurd rfl ‹_›
    · rfl
  · rw [‹node.tag? = _›]
    exact .pure rfl

/-- The name under which an entity is opened is that of its element. -/
theorem entityNameIn_of_entityNameOf {scope : Scope} {node : Element} {name : String}
    (h : entityNameOf scope node = .ok name) : entityNameIn scope.defaults node = name := by
  have hdeclared : entityNameIn scope.defaults node
      = ((node.attribute? "entity-name").or (scope.classAttribute? node "name")).getD "" := rfl
  unfold entityNameOf at h
  split at h
  · next hname =>
    cases h
    rw [hdeclared, hname, Option.getD_some]
  · cases h

/-! ## Outlines of a registry -/

/-- The skeleton without the subclasses. -/
def EntitySkeleton.outline (k : EntitySkeleton) : EntitySkeleton := { k with subclasses := [] }

/-- Skeletons under their names. -/
def byName (ks : List EntitySkeleton) : List (String × EntitySkeleton) :=
  ks.map fun k => (k.name, k)

namespace Registry

/-- The outlines of the registered entities by name, in the order of registration. -/
def outlines (r : Registry) : List (String × EntitySkeleton) :=
  r.skeletons.map fun k => (k.1, k.2.outline)

/-- The outlines are under the names of the entities. -/
@[simp] theorem map_fst_outlines (r : Registry) : r.outlines.map Prod.fst = r.entityNames := by
  simp [outlines, entityNames, Function.comp_def]

/-- The outline under a name is that of the entity stored under it. -/
theorem mem_outlines_iff {r : Registry} {name : String} {k : EntitySkeleton} :
    (name, k) ∈ r.outlines ↔ (r.entity? name).map (·.skeleton.outline) = some k := by
  rw [Option.map_eq_some_iff]
  constructor
  · intro h
    obtain ⟨entry, hentry, hk⟩ := List.mem_map.mp h
    cases hk
    obtain ⟨e, hfound, hskeleton⟩ := entity?_of_mem_skeletons hentry
    exact ⟨e, hfound, congrArg EntitySkeleton.outline hskeleton⟩
  · rintro ⟨e, hfound, rfl⟩
    exact List.mem_map.mpr ⟨_, mem_skeletons_of_entity? hfound, rfl⟩

/-- Side writes leave the outlines alone. -/
theorem SideWrites.outlines {r r' : Registry} (h : SideWrites r r') :
    r'.outlines = r.outlines := by
  rw [Registry.outlines, h.skeletons, Registry.outlines]

/-- Changing a name that is not there changes nothing. -/
theorem modifySkeleton_of_not_mem {ks : List (String × EntitySkeleton)} {name : String}
    (h : name ∉ ks.map Prod.fst) (g : EntitySkeleton → EntitySkeleton) :
    modifySkeleton name g ks = ks := by
  unfold modifySkeleton
  conv_rhs => rw [← List.map_id ks]
  refine List.map_congr_left fun k hk => ?_
  have hother : k.1 ≠ name := by
    rintro rfl
    exact h (List.mem_map.mpr ⟨k, hk, rfl⟩)
  rw [if_neg hother]
  rfl

/-- A change applies to both halves of a list. -/
theorem modifySkeleton_append (name : String) (g : EntitySkeleton → EntitySkeleton)
    (ks ls : List (String × EntitySkeleton)) :
    modifySkeleton name g (ks ++ ls) = modifySkeleton name g ks ++ modifySkeleton name g ls :=
  List.map_append

/-- Two changes of a name are one. -/
theorem modifySkeleton_modifySkeleton (name : String) (f g : EntitySkeleton → EntitySkeleton)
    (ks : List (String × EntitySkeleton)) :
    modifySkeleton name g (modifySkeleton name f ks) = modifySkeleton name (g ∘ f) ks := by
  unfold modifySkeleton
  rw [List.map_map]
  refine List.map_congr_left fun k _ => ?_
  by_cases h : k.1 = name <;> simp [h]

/-- What is declared shows in the outlines. -/
theorem outlines_modifyEntity (r : Registry) (name : String) {f : Entity → Entity}
    {properties : List String} {joins : List (List String)}
    (h : ∀ e, (f e).skeleton = e.skeleton.declare properties joins) :
    (r.modifyEntity name f).outlines
      = modifySkeleton name (·.declare properties joins) r.outlines := by
  unfold outlines
  rw [skeletons_modifyEntity r name (g := (·.declare properties joins)) h]
  unfold modifySkeleton
  rw [List.map_map, List.map_map]
  refine List.map_congr_left fun k _ => ?_
  by_cases hk : k.1 = name
  · simp only [Function.comp_apply, if_pos hk]
    rfl
  · simp only [Function.comp_apply, if_neg hk]

end Registry

end ObjectMapping
