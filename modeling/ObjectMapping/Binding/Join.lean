import ObjectMapping.Binding.Component
import ObjectMapping.Binding.Header
import ObjectMapping.Binding.Key

/-!
# Joins

A join holds some of an entity's properties in a second table, keyed by the entity's own
identifier.
-/

namespace ObjectMapping

/-- Where a component declared directly in an entity's body goes. -/
def bodySite (owner : Owner) (table : TableId) (name : String) (embedded : Bool) :
    ComponentSite where
  owner
  table := some table
  ownerClass := owner.className
  parentProperty := some name
  path := qualify owner.name name
  embedded

/-- Binds the value of a child of a join, if it is a property. -/
def bindJoinedValue (scope : Scope) (owner : Owner) (table : TableId) (node : Element) :
    Binding (Option Value) := do
  let name := (node.attribute? "name").getD ""
  match node.tag? with
  | some .component | some .dynamicComponent =>
    return some (.component (← bindComponent scope (bodySite owner table name false) node))
  | some tag =>
    bindSimpleMember scope { table := some table, nullable := true, path := name } node tag
  | none => return none

/-- Binds the properties of a join. -/
def bindJoinedProperties (scope : Scope) (owner : Owner) (table : TableId) (isOptional : Bool) :
    List Element → Binding (List Property)
  | [] => return []
  | node :: rest => do
    match ← bindJoinedValue scope owner table node with
    | none => bindJoinedProperties scope owner table isOptional rest
    | some value =>
      let property ← createProperty scope node value owner.className owner.name
      let others ← bindJoinedProperties scope owner table isOptional rest
      return { property with isOptional } :: others

/-- Binds a join. -/
def bindJoin (scope : Scope) (owner : Owner) (node : Element) : Binding Join := do
  let table ← openTable (← requestTable scope node owner.name false)
  commentTable table node
  let keyNode ← Binding.require (.joinWithoutKey owner.name) (node.child? "key")
  let key ← bindDependantKey table owner.name owner.name keyNode
  let isOptional := node.attributeIs "optional" "true"
  let properties ← bindJoinedProperties scope owner table isOptional node.children
  return {
    table
    key := some key
    sequentialSelect := node.attributeIs "fetch" "select"
    inverse := node.attributeIs "inverse" "true"
    isOptional
    properties
    customSql := node.customSqlSet }

end ObjectMapping
