import ObjectMapping.Binding.Association
import ObjectMapping.Binding.Filter
import ObjectMapping.Binding.Owner

/-!
# Registering collections

While the owner is bound, a collection is registered with everything that its element says
about the collection as a whole.  A pass is queued that binds the key, the element and the
index once every entity is known.
-/

namespace ObjectMapping

/-- How the contents of a collection of a shape are bound. -/
def CollectionKind.passKind : CollectionKind → PassKind
  | array | list | primitiveArray => .list
  | map => .map
  | identifierBag => .identifierBag
  | bag | set => .plain

/-- Whether a collection is lazy, and whether extra lazy. -/
def collectionLaziness (scope : Scope) (node : Element) : Bool × Bool :=
  match node.attribute? "lazy" with
  | none => (scope.defaults.isLazy, false)
  | some raw => if raw = "extra" then (true, true) else (raw = "true", false)

/-- Sets the comment of a table, if an element has one. -/
def commentTable (id : TableId) (node : Element) : Binding Unit :=
  match node.child? "comment" with
  | some comment => modify (·.modifyTable id ({ · with comment := some comment.trimmedText }))
  | none => pure ()

/-- Registers the table of a request. -/
def openTable (q : Registry.TableRequest) : Binding TableId :=
  modifyGet fun r => ((r.addTable q).2, (r.addTable q).1)

/-- Registers the table that holds the elements of a collection. -/
def openCollectionTable (scope : Scope) (node : Element) (role : String) (owner : Owner) :
    Binding TableId := do
  let r ← get
  let name := match node.attribute? "table" with
    | some name => r.naming.table name
    | none => r.naming.tableOfCollection (r.tableName owner.table) none role
  let table ← openTable {
    schema := scope.schemaOf node
    catalog := scope.catalogOf node
    name
    subselect := node.subselect? }
  commentTable table node
  return table

/-- The element of a collection and the table that holds it, as far as they are known before
the contents are bound. -/
def openElement (scope : Scope) (node : Element) (role : String) (owner : Owner) :
    Binding (Option Value × Option TableId) := do
  match node.child? "one-to-many" with
  | some target => return (some (.oneToMany (oneToManyOf scope target)), none)
  | none => return (none, some (← openCollectionTable scope node role owner))

/-- Registers a collection and queues the pass for its contents. -/
def bindCollection (scope : Scope) (node : Element) (kind : CollectionKind) (role : String)
    (owner : Owner) : Binding Value := do
  let batchSize ← Binding.ofExcept (node.unsigned "batch-size")
  let subselectLoadable := node.attributeIs "fetch" "subselect"
  if subselectLoadable then
    modify (·.modifyEntity owner.name ({ · with subselectLoadableCollections := true }))
  let (element, table) ← openElement scope node role owner
  let filters ← (node.childrenNamed "filter").mapM bindFilterUse
  let (isLazy, extraLazy) := collectionLaziness scope node
  Binding.register (·.addCollection {
    role
    ownerEntity := owner.name
    kind
    table
    element
    inverse := node.attributeIs "inverse" "true"
    isMutable := !node.attributeIs "mutable" "false"
    optimisticLocked := node.isNotDenied "optimistic-lock"
    isLazy
    extraLazy
    fetch := (fetchOf node false).1
    subselectLoadable
    embedded := node.isNotDenied "embed-xml"
    orphanDelete := (node.attribute? "cascade").any cascadesDeleteOrphan
    sort := .ofAttribute (node.attribute? "sort")
    orderBy := node.attribute? "order-by"
    whereClause := node.attribute? "where"
    batchSize
    nodeName := (node.attribute? "node").or (node.attribute? "name")
    persister := scope.classAttribute? node "persister"
    typeName := node.attribute? "collection-type"
    elementClass := if kind = .array || kind = .primitiveArray then
        scope.classAttribute? node "element-class" else none
    referencedProperty := (node.child? "key").bind (·.attribute? "property-ref")
    loaderQuery := node.loaderQuery?
    customSql := { node.customSqlSet with deleteAll := node.customSql? "sql-delete-all" }
    filters
    synchronizedTables := node.synchronizedTables
    metas := mergeMetas node scope.metas false })
  modify (·.addPass (.contents kind.passKind { role, node, scope }))
  return .collection role

end ObjectMapping
