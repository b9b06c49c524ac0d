import ObjectMapping.Binding.Collection

/-!
# Entity headers

The settings that every kind of entity reads off its own element, and the table that the
element asks for.
-/

namespace ObjectMapping

/-- The name of an entity: explicit, or else that of its class. -/
def entityNameOf (scope : Scope) (node : Element) : Except MappingError String :=
  match (node.attribute? "entity-name").or (scope.classAttribute? node "name") with
  | some name => .ok name
  | none => .error .unnamedEntity

/-- Whether an element is abstract, as far as it says so. -/
def abstractFlag (node : Element) : Option Bool :=
  match node.attribute? "abstract" with
  | some raw => if raw = "true" then some true else if raw = "false" then some false else none
  | none => none

/-- The table that an element of an entity asks for; the physical name is recorded. -/
def requestTable (scope : Scope) (node : Element) (entity : String) (isAbstract : Bool) :
    Binding Registry.TableRequest := do
  let naming := (← get).naming
  let schema := scope.schemaOf node
  let catalog := scope.catalogOf node
  let (logical, name) := match node.attribute? "table" with
    | some table => (table, naming.table table)
    | none => (unqualify entity, naming.tableOfClass entity)
  modify (·.addTableBinding ⟨schema, catalog, logical⟩ name)
  return { schema, catalog, name, subselect := node.subselect?, isAbstract }

/-- Registers the imports that the name of an entity implies. -/
def importEntity (scope : Scope) (name : String) : Binding Unit := do
  Binding.register (·.addImport name name)
  if scope.defaults.autoImport && isDotted name then
    Binding.register (·.addAutoImport name (unqualify name))

/-- The lock style of an entity. -/
def optimisticLockOf (node : Element) : Except MappingError OptimisticLock :=
  match node.attribute? "optimistic-lock" with
  | none => .ok .version
  | some style =>
    match OptimisticLock.ofLiteral? style with
    | some lock => .ok lock
    | none => .error (.unsupportedOptimisticLock style)

/-- Binds the header of an entity, which has no properties yet. -/
def bindHeader (scope : Scope) (node : Element) (name : String) (kind : EntityKind)
    (table : TableId) : Binding Entity := do
  importEntity scope name
  let batchSize ← Binding.ofExcept (node.unsigned "batch-size")
  let optimisticLock ← Binding.ofExcept (optimisticLockOf node)
  let className := scope.classAttribute? node "name"
  let proxy := scope.classAttribute? node "proxy"
  let declaredLazy := ((node.attribute? "lazy").map (· == "true")).getD scope.defaults.isLazy
  return {
    name
    className
    proxyInterface := proxy.or (if declaredLazy then className else none)
    nodeName := (node.attribute? "node").getD (unqualify name)
    kind
    table
    isLazy := proxy.isSome || declaredLazy
    discriminatorValue := (node.attribute? "discriminator-value").getD name
    dynamicUpdate := node.attributeIs "dynamic-update" "true"
    dynamicInsert := node.attributeIs "dynamic-insert" "true"
    batchSize
    selectBeforeUpdate := node.attributeIs "select-before-update" "true"
    optimisticLock
    metas := mergeMetas node scope.metas false
    persister := scope.classAttribute? node "persister"
    customSql := node.customSqlSet
    loaderQuery := node.loaderQuery?
    synchronizedTables := node.synchronizedTables
    isAbstract := abstractFlag node
    tuplizers := node.tuplizers }

end ObjectMapping
