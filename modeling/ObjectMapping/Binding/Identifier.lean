import ObjectMapping.Binding.Component

/-!
# Identifiers, versions and discriminators

The children of a class that describe its rows rather than its properties.  They are bound
before the entity is registered, so they work on the entity itself.
-/

namespace ObjectMapping

/-- The identifier that marks transient instances where nothing else is said. -/
def undefinedSentinel : String := "undefined"

/-- The generator that an element describes; the document's schema and catalog are parameters
of every generator. -/
def generatorOf (scope : Scope) (node : Element) :
    Except MappingError (Option IdentifierGenerator) :=
  match node.child? "generator" with
  | none => .ok none
  | some generator =>
    match generator.attribute? "class" with
    | none => .error (.generatorWithoutClass ((node.attribute? "name").getD node.name))
    | some strategy =>
      let located := (scope.defaults.schema.map (("schema", ·))).toList
        ++ (scope.defaults.catalog.map (("catalog", ·))).toList
      let given := (generator.childrenNamed "param").filterMap fun param =>
        (param.attribute? "name").map fun name => (name, param.text)
      .ok (some { strategy, parameters := .ofList (located ++ given) })

/-- A value as an identifier: with its generator, and the identifier that marks transient
instances, which has a default only if the application assigns identifiers. -/
def SimpleValue.asIdentifier (v : SimpleValue) (scope : Scope) (node : Element) :
    Except MappingError SimpleValue := do
  let generator ← generatorOf scope node
  let assigned := (generator.map (·.strategy)).getD assignedStrategy = assignedStrategy
  return { v with
    generator
    unsavedValue := (node.attribute? "unsaved-value").or
      (if assigned then some undefinedSentinel else none) }

/-- Changes the root's data of an entity, which must be a root. -/
def changeRoot (e : Entity) (f : RootData → RootData) : Binding Entity :=
  if e.isRoot then pure (e.modifyRoot f) else throw (.notHierarchyRoot e.name)

/-- Binds a simple identifier. -/
def bindSimpleId (scope : Scope) (e : Entity) (node : Element) : Binding Entity := do
  let name := node.attribute? "name"
  let v ← bindSimpleValue { table := some e.table, nullable := false, path := name.getD "id" } node
  let reflection := (← get).options.reflection
  let reflected := match e.className, name with
    | some className, some name => reflection.propertyType? className name
    | _, _ => none
  let v := { v with typeName := v.typeName.or reflected }
  if v.typeName.isNone then throw (.untypedIdentifier e.name)
  let v ← Binding.ofExcept (v.asIdentifier scope node)
  let binding ← match name with
    | some name => .named <$> Binding.ofExcept (bindProperty scope node (.simple v) name)
    | none => pure (.unnamed (.simple v))
  changeRoot e ({ · with identifier := some binding })

/-- The name of the property that shadows a composite identifier. -/
def identifierMapperName : String := "_identifierMapper"

/-- Binds the shadow of a composite identifier that is mapped twice. -/
def bindIdentifierMapper (scope : Scope) (e : Entity) (path : String) (node : Element) :
    Binding Entity := do
  let mapper ← bindComponent scope {
    owner := .ofEntity e
    table := some e.table
    ownerClass := e.className
    path
    nullable := false
    embedded := true
    isShadow := true } node
  let e := e.addProperty {
    name := identifierMapperName
    nodeName := some "id"
    value := .component mapper
    access := "embedded"
    insertable := false
    updatable := false }
  changeRoot e ({ · with identifierMapper := some mapper })

/-- Binds a composite identifier. -/
def bindCompositeId (scope : Scope) (e : Entity) (node : Element) : Binding Entity := do
  let name := node.attribute? "name"
  let mapped := node.attributeIs "mapped" "true"
  if name.isSome && mapped then throw .mappedIdentifierWithName
  let path := qualify e.name (name.getD "id")
  let id ← bindComponent scope {
    owner := .ofEntity e
    table := some e.table
    ownerClass := e.className
    parentProperty := name
    path
    nullable := false
    embedded := !node.hasAttribute "class" && name.isNone } node
  let e ← if mapped then bindIdentifierMapper scope e path node else pure e
  let id := { id with
    isKey := true
    unsavedValue := some ((node.attribute? "unsaved-value").getD undefinedSentinel) }
  match name with
  | some name =>
    let property ← Binding.ofExcept (bindProperty scope node (.component id) name)
    changeRoot e ({ · with identifier := some (.named property) })
  | none =>
    let id := if id.embedded then { id with isDynamic := e.className.isNone } else id
    changeRoot e ({ · with
      embeddedIdentifier := id.embedded
      identifier := some (.unnamed (.component id)) })

/-- The type of a version or timestamp that declares none. -/
def versionType (node : Element) : String :=
  if node.name = "version" then "integer"
  else if node.attributeIs "source" "db" then "dbtimestamp"
  else "timestamp"

/-- Binds a version or timestamp. -/
def bindVersion (scope : Scope) (e : Entity) (node : Element) : Binding Entity := do
  let name ← Binding.ofExcept node.propertyName
  let v ← bindSimpleValue { table := some e.table, nullable := false, path := name } node
  let v := { v with
    typeName := v.typeName.or (some (versionType node))
    unsavedValue := some ((node.attribute? "unsaved-value").getD undefinedSentinel) }
  let property ← Binding.ofExcept (bindProperty scope node (.simple v) name)
  if property.generation = .insert then throw .versionGeneratedOnInsert
  let e ← changeRoot e ({ · with version := some name })
  return e.addProperty property

/-- Binds a discriminator. -/
def bindDiscriminator (e : Entity) (node : Element) : Binding Entity := do
  let v ← bindSimpleValue { table := some e.table, nullable := false, path := "class" } node
  changeRoot e ({ · with
    polymorphic := true
    discriminator := some {
      value := { v with typeName := v.typeName.or (some "string") }
      force := node.attributeIs "force" "true"
      insertable := !node.attributeIs "insert" "false" } })

/-- Binds the cache settings of a root. -/
def bindCache (e : Entity) (node : Element) : Binding Entity := do
  let cache ← Binding.ofExcept node.cacheSettings
  return e.modifyRoot ({ · with cache := some cache })

/-- Binds a child of a class that describes its rows. -/
def bindRowChild (scope : Scope) (e : Entity) (node : Element) : Binding Entity :=
  match node.tag? with
  | some .identifier => bindSimpleId scope e node
  | some .compositeId => bindCompositeId scope e node
  | some .version | some .timestamp => bindVersion scope e node
  | some .discriminator => bindDiscriminator e node
  | some .cache => bindCache e node
  | _ => pure e

end ObjectMapping
