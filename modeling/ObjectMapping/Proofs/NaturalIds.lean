import ObjectMapping.Proofs.SharedTables

/-!
# Natural identifiers

The groups in the body of an entity say which of its properties make up its natural identifier.
What they say can be read off the elements alone: `membersAmong` lists the properties that stand in
a group, each with its group, and `documentBodies` the bodies of a document, however deep the groups
and the subclasses in them are.

On the other side, `Registry.naturalId?` is what a registry holds of a natural identifier: the table
of the entity, and its flagged properties with their columns.  Of all that is written while
documents are bound and passes are run, only a property that is added in a group changes it.
-/

namespace ObjectMapping

open Binding Registry

/-! ## What documents say -/

/-- What is said of a property of a natural identifier: its name, and whether it is updated. -/
structure NaturalMark where
  name : String
  updatable : Bool
deriving DecidableEq

/-- Whether a property is updated if the group that it stands in does not forbid it: what the
database always generates is not. -/
def Element.isUpdated (node : Element) : Bool :=
  node.isNotDenied "update" && !node.attributeIs "generated" "always"

/-- The mark of a property in a group, which has to be mutable for its properties to be updated. -/
def Element.naturalMark (group node : Element) : NaturalMark where
  name := (node.attribute? "name").getD ""
  updatable := node.isUpdated && group.attributeIs "mutable" "true"

mutual

/-- The properties in a group, each with the group that it stands in. -/
def groupMembers : Element → List (Element × Element)
  | ⟨tag, attributes, children, text⟩ =>
    membersAmong (some ⟨tag, attributes, children, text⟩) children

/-- The properties in groups among the children of a body, or of a group. -/
def membersAmong (group : Option Element) : List Element → List (Element × Element)
  | [] => []
  | node :: rest =>
    let first := match node.tag? with
      | some .naturalId => groupMembers node
      | some tag => if tag.isBodyProperty then group.toList.map (·, node) else []
      | none => []
    first ++ membersAmong group rest

end

/-- The marks of the properties in groups. -/
def marksAmong (group : Option Element) (children : List Element) : List NaturalMark :=
  (membersAmong group children).map fun member => member.1.naturalMark member.2

/-- What the groups of a body say of the natural identifier. -/
def naturalMarks (children : List Element) : List NaturalMark := marksAmong none children

mutual

/-- The body of an element, under the name of its entity, and the bodies of the subclasses in it. -/
def entityBodies (defaults : DocumentDefaults) : Element → List (String × List Element)
  | ⟨tag, attributes, children, text⟩ =>
    (entityNameIn defaults ⟨tag, attributes, children, text⟩, children)
      :: bodiesAmong defaults children

/-- The bodies of the subclasses in a group. -/
def groupBodies (defaults : DocumentDefaults) : Element → List (String × List Element)
  | ⟨_, _, children, _⟩ => bodiesAmong defaults children

/-- The bodies of the subclasses among the children of a body, or of a group. -/
def bodiesAmong (defaults : DocumentDefaults) : List Element → List (String × List Element)
  | [] => []
  | node :: rest =>
    let first := match node.tag? with
      | some .subclass | some .joinedSubclass | some .unionSubclass => entityBodies defaults node
      | some .naturalId => groupBodies defaults node
      | some _ | none => []
    first ++ bodiesAmong defaults rest

end

/-- An element is the first of the bodies in it. -/
theorem entityBodies_eq (defaults : DocumentDefaults) (node : Element) :
    entityBodies defaults node
      = (entityNameIn defaults node, node.children) :: bodiesAmong defaults node.children := by
  cases node
  rw [entityBodies]

/-- The bodies of the entities that a document declares. -/
def documentBodies (root : Element) : List (String × List Element) :=
  let defaults := DocumentDefaults.ofRoot root
  (root.childrenNamed "class").flatMap (entityBodies defaults)
    ++ SubclassKind.all.flatMap fun kind =>
      (root.childrenNamed kind.tag).flatMap (entityBodies defaults)

/-! ## What registries hold -/

/-- The mark of a property. -/
def Property.naturalMark (p : Property) : NaturalMark := ⟨p.name, p.updatable⟩

/-- A property of a natural identifier, with its columns. -/
structure NaturalPart where
  mark : NaturalMark
  columns : List String

/-- A property as part of a natural identifier. -/
def Property.naturalPart (p : Property) : NaturalPart := ⟨p.naturalMark, p.value.columnNames⟩

/-- A natural identifier, with the table of its entity. -/
structure NaturalId where
  table : TableId
  parts : List NaturalPart

/-- A natural identifier with further parts. -/
def NaturalId.append (k : NaturalId) (parts : List NaturalPart) : NaturalId :=
  { k with parts := k.parts ++ parts }

/-- The natural identifier of an entity. -/
def Entity.naturalId (e : Entity) : NaturalId where
  table := e.table
  parts := e.naturalIdProperties.map Property.naturalPart

/-- A property that is added joins the natural identifier if it is flagged. -/
theorem Entity.naturalId_addProperty (e : Entity) (p : Property) :
    (e.addProperty p).naturalId
      = e.naturalId.append (if p.naturalIdentifier then [p.naturalPart] else []) := by
  unfold naturalId addProperty naturalIdProperties NaturalId.append
  rw [List.filter_append, List.map_append]
  cases hflag : p.naturalIdentifier <;> simp [hflag]

/-- A change of a property that keeps its flag, its mark and its columns keeps the natural
identifier. -/
theorem Entity.naturalId_modifySlot (e : Entity) (slot : PropertySlot) {f : Property → Property}
    (hflag : ∀ p, (f p).naturalIdentifier = p.naturalIdentifier)
    (hpart : ∀ p, (f p).naturalPart = p.naturalPart) :
    (e.modifySlot f slot).naturalId = e.naturalId := by
  rw [naturalId, naturalId, e.table_modifySlot,
    e.map_naturalIdProperties_modifySlot _ slot hflag hpart]

namespace Registry

variable {r r' r'' : Registry}

/-- The natural identifier of a registered entity. -/
def naturalId? (r : Registry) (name : String) : Option NaturalId :=
  (r.entity? name).map Entity.naturalId

/-- Registries with the same natural identifiers. -/
def SameNaturalIds (r r' : Registry) : Prop := ∀ name, r'.naturalId? name = r.naturalId? name

theorem SameNaturalIds.refl (r : Registry) : r.SameNaturalIds r := fun _ => rfl

theorem SameNaturalIds.trans (h : r.SameNaturalIds r') (h' : r'.SameNaturalIds r'') :
    r.SameNaturalIds r'' :=
  fun name => (h' name).trans (h name)

theorem SameNaturalIds.of_entities (h : r'.entities = r.entities) : r.SameNaturalIds r' := by
  intro name
  rw [naturalId?, naturalId?, entity?, entity?, h]

/-- The natural identifier of an entity that is changed is changed with it. -/
theorem naturalId?_modifyEntity (r : Registry) (name : String) {f : Entity → Entity}
    {g : NaturalId → NaturalId} (h : ∀ e, (f e).naturalId = g e.naturalId) (other : String) :
    (r.modifyEntity name f).naturalId? other
      = (r.naturalId? other).map fun k => if other = name then g k else k := by
  simp only [naturalId?, entity?_modifyEntity, Option.map_map]
  congr 1
  funext e
  by_cases hother : other = name <;> simp [hother, h]

/-- An entity may be changed in what has to do with neither its table nor its flagged
properties. -/
theorem SameNaturalIds.modifyEntity (r : Registry) (name : String) {f : Entity → Entity}
    (h : ∀ e, (f e).naturalId = e.naturalId) : r.SameNaturalIds (r.modifyEntity name f) := by
  intro other
  rw [naturalId?_modifyEntity r name (g := id) h]
  simp

/-! ### Writes -/

/-- Preparation leaves natural identifiers alone. -/
theorem Preparation.sameNaturalIds (h : Preparation r r') : r.SameNaturalIds r' := by
  cases h with
  | quiet h => exact .of_entities h.alike.entities
  | collection h =>
    obtain ⟨-, rfl⟩ := addCollection_eq_ok.mp h
    exact .of_entities rfl
  | propertyRef => exact .of_entities rfl
  | mark name => exact .modifyEntity r name fun _ => rfl

/-- So do the deferred passes, which flag no property. -/
theorem Passing.sameNaturalIds (h : Passing r r') : r.SameNaturalIds r' := by
  cases h with
  | prepare h => exact h.sameNaturalIds
  | @reveal name p h =>
    refine .modifyEntity r name fun e => ?_
    rw [e.naturalId_addProperty, h]
    simp [NaturalId.append]
  | store => exact .of_entities rfl

/-- A mark below a property keeps its flag, its mark and its columns. -/
theorem naturalPart_modifyAt (members : List Nat) (p : Property) :
    (p.modifyAt markAlternateKey members).naturalIdentifier = p.naturalIdentifier ∧
      (p.modifyAt markAlternateKey members).naturalPart = p.naturalPart := by
  have hface := Property.face_modifyAt face_markAlternateKey members p
  have hname : (p.modifyAt markAlternateKey members).name = p.name :=
    congrArg PropertyFace.name hface
  have hupdatable : (p.modifyAt markAlternateKey members).updatable = p.updatable :=
    congrArg PropertyFace.updatable hface
  have hselectables : (p.modifyAt markAlternateKey members).value.selectables
      = p.value.selectables :=
    congrArg PropertyFace.selectables hface
  refine ⟨Property.naturalIdentifier_modifyAt (f := markAlternateKey) (fun _ => rfl) p members, ?_⟩
  unfold Property.naturalPart Property.naturalMark
  rw [hname, hupdatable, Value.columnNames, Value.columns, hselectables]
  rfl

theorem Mark.sameNaturalIds (h : Mark r r') : r.SameNaturalIds r' := by
  cases h with
  | property place =>
    exact .modifyEntity r place.entity fun e => e.naturalId_modifySlot place.slot
      (fun p => (naturalPart_modifyAt place.members p).1)
      fun p => (naturalPart_modifyAt place.members p).2

/-- Any number of writes leave natural identifiers alone if each does. -/
theorem SameNaturalIds.of_steps {R : Registry → Registry → Prop}
    (hR : ∀ r r', R r r' → r.SameNaturalIds r') (h : Relation.ReflTransGen R r r') :
    r.SameNaturalIds r' := by
  induction h with
  | refl => exact .refl r
  | tail _ hstep ih => exact ih.trans (hR _ _ hstep)

end Registry

/-- Supplements leave natural identifiers alone: the properties of joins are no part of them. -/
theorem Supplement.sameNaturalIds {r r' : Registry} (h : Supplement r r') :
    r.SameNaturalIds r' := by
  cases h with
  | prepare h => exact h.sameNaturalIds
  | change name hextends hproperties =>
    refine .modifyEntity r name fun e => ?_
    simp only [Entity.naturalId, Entity.naturalIdProperties, (hextends e).table, hproperties]
  | join name => exact .modifyEntity r name fun _ => rfl

end ObjectMapping
