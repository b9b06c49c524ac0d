import ObjectMapping.Binding.Filter

/-!
# Binding queries

Named queries, native queries and descriptions of results.  Inside a class their names are
qualified by the entity.
-/

namespace ObjectMapping

/-- The name of a query, below the entity that it is declared in. -/
def queryName (node : Element) (owner : Option String) : Except MappingError String :=
  match node.attribute? "name" with
  | none => .error (.queryWithoutName node.name)
  | some name => .ok ((owner.map (qualify · name)).getD name)

/-- Reads an optional literal. -/
def literalOf (node : Element) (name : String) (read : String → Option α)
    (e : String → MappingError) : Except MappingError (Option α) :=
  match node.attribute? name with
  | none => .ok none
  | some raw =>
    match read raw with
    | some a => .ok (some a)
    | none => .error (e raw)

/-- The settings of a query. -/
def querySettings (node : Element) : Except MappingError QuerySettings := do
  let timeout ← node.unsigned "timeout"
  let fetchSize ← node.unsigned "fetch-size"
  let flushMode ← literalOf node "flush-mode" FlushMode.ofLiteral? .unknownFlushMode
  let cacheMode ← literalOf node "cache-mode" CacheMode.ofLiteral? .unknownCacheMode
  return {
    cacheable := node.attributeIs "cacheable" "true"
    cacheRegion := node.attribute? "cache-region"
    timeout
    fetchSize
    flushMode
    cacheMode
    readOnly := node.attributeIs "read-only" "true"
    comment := node.attribute? "comment"
    parameterTypes := parameterTypesOf node "query-param" }

/-- Binds a query over entities. -/
def bindNamedQuery (owner : Option String) (node : Element) : Binding Unit := do
  let name ← Binding.ofExcept (queryName node owner)
  let settings ← Binding.ofExcept (querySettings node)
  Binding.register (·.addQuery { name, query := node.trimmedText, settings })

/-! ## Results -/

/-- A result column without its backticks: one at the start, and then one at the end. -/
def unquote (name : String) : String :=
  match name.toList with
  | '`' :: cs => String.ofList (if cs.getLast? = some '`' then cs.dropLast else cs)
  | _ => name

/-- The result columns that an element names: by its attribute, and by its children. -/
def resultColumns (node : Element) : List String :=
  ((node.attribute? "column").toList
    ++ (node.childrenNamed "return-column").filterMap (·.attribute? "name")).map unquote

/-- The name under which the discriminator of a result is listed. -/
def discriminatorResult : String := "class"

/-- Adds the columns of one property to those of a result. -/
def addPropertyResult (aliasName : String) (results : KeyedList String (List String))
    (node : Element) : Except MappingError (KeyedList String (List String)) :=
  let name := (node.attribute? "name").getD ""
  let columns := resultColumns node
  if name = discriminatorResult then .error .reservedReturnProperty
  else if columns.isEmpty then .error (.returnPropertyWithoutColumns aliasName)
  else if results.contains name then .error (.duplicateReturnProperty name aliasName)
  else .ok (results.insert name columns)

/-- The result columns of each property of a return. -/
def propertyResults (aliasName : String) (node : Element) :
    Except MappingError (KeyedList String (List String)) :=
  let discriminator := (node.child? "return-discriminator").toList.map fun d =>
    (discriminatorResult, resultColumns d)
  (node.childrenNamed "return-property").foldlM (addPropertyResult aliasName)
    (.ofList discriminator)

/-- The lock mode of a return; rows are read unless it says otherwise. -/
def lockModeOf (node : Element) : Except MappingError LockMode := do
  return (← literalOf node "lock-mode" LockMode.ofLiteral? .unknownLockMode).getD .read

/-- An entity of a result; without an alias it is named by its position. -/
def entityReturn (scope : Scope) (node : Element) (position : Nat) :
    Except MappingError EntityReturn := do
  let aliasName :=
    ((node.attribute? "alias").filter (!·.isEmpty)).getD ("alias_" ++ toString position)
  match scope.targetOf? node with
  | none => throw (.returnWithoutEntity aliasName)
  | some entity =>
    let lockMode ← lockModeOf node
    let propertyResults ← propertyResults aliasName node
    return { aliasName, source := .entity entity, lockMode, propertyResults }

/-- A return that belongs to another: what it stands for is a path that ends in a property. -/
def dependentReturn (node : Element) (pathAttribute : String)
    (source : String → String → ReturnSource)
    (malformed : String → MappingError) : Except MappingError EntityReturn := do
  let aliasName := (node.attribute? "alias").getD ""
  let lockMode ← lockModeOf node
  match (node.attribute? pathAttribute).bind splitLastDot with
  | none => throw (malformed aliasName)
  | some (owner, property) =>
    let propertyResults ← propertyResults aliasName node
    return { aliasName, source := source owner property, lockMode, propertyResults }

/-- The return that a child of a result describes, if it is one. -/
def returnOf? (scope : Scope) (node : Element) (position : Nat) :
    Except MappingError (Option EntityReturn) :=
  if node.name = "return" then some <$> entityReturn scope node position
  else if node.name = "return-join" then
    some <$> dependentReturn node "property" .join .malformedOwnerPath
  else if node.name = "load-collection" then
    some <$> dependentReturn node "role"
      (fun owner property => .collection (scope.qualifyClass owner) property)
      .malformedCollectionRole
  else .ok none

/-- The returns among the children of a result; positions count all children from one. -/
def returnsOf (scope : Scope) : Nat → List Element → Except MappingError (List EntityReturn)
  | _, [] => .ok []
  | position, node :: rest => do
    let first ← returnOf? scope node position
    let others ← returnsOf scope (position + 1) rest
    return first.toList ++ others

/-- A scalar column of a result. -/
def scalarReturn (node : Element) : Except MappingError ScalarReturn :=
  let column := (node.attribute? "column").getD ""
  let type := (node.attribute? "type").or ((node.child? "type").bind (·.attribute? "name"))
  match type with
  | some type => .ok { column, type := .ofName type }
  | none => .error (.untypedScalar column)

/-- The result that an element describes. -/
def resultSetOf (scope : Scope) (node : Element) (name : String) :
    Except MappingError ResultSet := do
  let scalars ← (node.childrenNamed "return-scalar").mapM scalarReturn
  let returns ← returnsOf scope 1 node.children
  return { name, scalars, returns }

/-- What a native query returns: a registered result by name, or the one it describes. -/
def queryResultsOf (scope : Scope) (node : Element) (name : String) :
    Except MappingError QueryResults :=
  match (node.attribute? "resultset-ref").filter (!·.isEmpty) with
  | some reference => .ok (.reference reference)
  | none => .inline <$> resultSetOf scope node name

/-- Binds a native query. -/
def bindNamedSqlQuery (scope : Scope) (owner : Option String) (node : Element) :
    Binding Unit := do
  let name ← Binding.ofExcept (queryName node owner)
  let settings ← Binding.ofExcept (querySettings node)
  let results ← Binding.ofExcept (queryResultsOf scope node name)
  Binding.register (·.addSqlQuery {
    name
    query := node.trimmedText
    settings
    results
    synchronizedTables := node.synchronizedTables
    callable := node.attributeIs "callable" "true" })

/-- Binds the description of a result. -/
def bindResultSet (scope : Scope) (owner : Option String) (node : Element) : Binding Unit := do
  let name ← Binding.ofExcept (queryName node owner)
  let results ← Binding.ofExcept (resultSetOf scope node name)
  Binding.register (·.addResultSet results)

end ObjectMapping
