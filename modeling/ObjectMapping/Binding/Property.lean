import ObjectMapping.Binding.ForeignKey
import ObjectMapping.Document.Tag

/-!
# Properties

A property is made from a bound value and the settings on its element.  Before that, what
the mapping leaves out is taken from the backing class, references to properties are
recorded, and foreign keys are made.
-/

namespace ObjectMapping

/-- An association with its target taken from the backing class, if the mapping names none and
the class is known. -/
def ToOne.reflected (reflection : Reflection) (className property : String) (toOne : ToOne) :
    ToOne :=
  { toOne with referencedEntity :=
      toOne.referencedEntity.or (reflection.propertyType? className property) }

/-- A value with its type or target taken from the backing class, if the mapping names none
and the class is known. -/
def Value.reflected (reflection : Reflection) (className property : String) : Value → Value
  | .simple v =>
    .simple { v with typeName := v.typeName.or (reflection.propertyType? className property) }
  | .manyToOne v => .manyToOne { v with toOne := v.toOne.reflected reflection className property }
  | .oneToOne v => .oneToOne { v with toOne := v.toOne.reflected reflection className property }
  | v => v

/-- Records the references that a property's value makes to other properties, and queues the
foreign keys that have to wait for them. -/
def Registry.recordReferences (r : Registry) (owner : String) (isManyToMany : Bool) :
    Value → Registry
  | .manyToOne v =>
    let r := r.referTo v.toOne
    if isManyToMany then r else r.queuePropertyRef v
  | .oneToOne v => r.referTo v.toOne
  | .collection role =>
    match (r.collection? role).bind Collection.referencedProperty with
    | some property => r.addPropertyReference { entity := owner, property }
    | none => r
  | _ => r

/-- Whether an attribute is true or absent, once generation is taken into account: what the
database generates is not written, and it is an error to say that it is. -/
def writable (node : Element) (name : String) (generated : Bool) (e : MappingError) :
    Except MappingError Bool :=
  if generated && node.isNotDenied name then
    if node.hasAttribute name then .error e else .ok false
  else .ok (node.isNotDenied name)

/-- When the database generates the property of an element. -/
def generationOf (node : Element) : Except MappingError PropertyGeneration :=
  match node.attribute? "generated" with
  | none => .ok .never
  | some raw =>
    match PropertyGeneration.ofLiteral? raw with
    | some generation => .ok generation
    | none => .error (.unknownGeneration raw)

/-- Whether elements of a kind may be lazy by themselves. -/
def Tag.mayBeLazy : Tag → Bool
  | property | component | manyToOne | oneToOne | any => true
  | _ => false

/-- The property of a value, with the settings of its element. -/
def bindProperty (scope : Scope) (node : Element) (value : Value) (name : String) :
    Except MappingError Property := do
  let generation ← generationOf node
  let label := (node.attribute? "generated").getD ""
  let insertable ← writable node "insert" (generation ≠ .never) (.insertOfGenerated label name)
  let updatable ← writable node "update" (generation = .always) (.updateOfGenerated label name)
  return {
    name
    nodeName := some ((node.attribute? "node").getD name)
    value
    access := (node.attribute? "access").getD
      (if node.tag? = some .properties then "embedded" else scope.defaults.access)
    cascade := (node.attribute? "cascade").getD scope.defaults.cascade
    insertable
    updatable
    optimisticLocked := node.isNotDenied "optimistic-lock"
    isLazy := node.tag?.any Tag.mayBeLazy && node.attributeIs "lazy" "true"
    generation
    metas := mergeMetas node scope.metas false }

/-- Finishes a bound value and makes its property. -/
def createProperty (scope : Scope) (node : Element) (value : Value) (className : Option String)
    (owner : String) : Binding Property := do
  let name ← Binding.ofExcept node.propertyName
  let reflection := (← get).options.reflection
  let value := match className with
    | some className => value.reflected reflection className name
    | none => value
  modify (·.recordReferences owner (node.tag? = some .manyToMany) value)
  modify (·.constrainValue value)
  Binding.ofExcept (bindProperty scope node value name)

end ObjectMapping
