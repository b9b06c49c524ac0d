import ObjectMapping.Binding.Monad

/-!
# Columns and formulas

The columns of a value are named by an attribute or by nested elements, never by both; where
neither names one, a column may be made from the property's path.  Every column is also
registered on the value's table, along with the indexes and unique keys that its element or
the element of its owner names.
-/

namespace ObjectMapping

/-- The names in an `index` or `unique-key` attribute, divided by commas and spaces. -/
def constraintNames (raw : String) : List String :=
  splitPieces (fun c => c = ',' || c = ' ') raw

/-- A column with the settings that an element gives it. -/
def Column.describedBy (c : Column) (node : Element) (nullable : Bool) :
    Except MappingError Column := do
  let length ← node.unsigned "length"
  let scale ← node.unsigned "scale"
  let precision ← node.unsigned "precision"
  return { c with
    length, scale, precision
    nullable := ((node.attribute? "not-null").map (· == "false")).getD nullable
    unique := node.attributeIs "unique" "true"
    check := node.attribute? "check"
    defaultValue := node.attribute? "default"
    sqlType := node.attribute? "sql-type"
    comment := (node.child? "comment").map Element.trimmedText }

/-- Adds a column to the indexes and unique keys that an element names. -/
def Table.constrain (t : Table) (column : String) (source : Element) : Table :=
  let indexes := ((source.attribute? "index").map constraintNames).getD []
  let uniqueKeys := ((source.attribute? "unique-key").map constraintNames).getD []
  let t := indexes.foldl (fun t name => t.addToIndex name column) t
  uniqueKeys.foldl (fun t name => t.addToUniqueKey name [column]) t

/-- Registers a column of a value on a table; `sources` are the elements that may name
indexes and unique keys for it. -/
def registerColumn (table : Option TableId) (c : Column) (sources : List Element) :
    Binding Selectable := do
  Binding.changeTable table fun t =>
    sources.foldl (fun t source => t.constrain c.name source) (t.addColumn c)
  return .column c

/-- Where the columns of a value go, and what they are called if the mapping does not say. -/
structure ColumnSite where
  table : Option TableId
  /-- Whether the columns may be null unless they say otherwise. -/
  nullable : Bool
  /-- The path of the property. -/
  path : String

/-- Binds the `<column>` and `<formula>` elements among some children of `owner`; `position`
counts the columns before them. -/
def bindNestedColumns (site : ColumnSite) (owner : Element) (position : Nat) :
    List Element → Binding (List Selectable)
  | [] => return []
  | child :: rest => do
    if child.name = "column" then
      let name ← Binding.require (.columnWithoutName site.path) (child.attribute? "name")
      let named := Column.ofName ((← get).naming.column name)
      let column ← Binding.ofExcept <|
        { named with typeIndex := position }.describedBy child site.nullable
      let first ← registerColumn site.table column [child, owner]
      return first :: (← bindNestedColumns site owner (position + 1) rest)
    else if child.name = "formula" then
      return .formula child.trimmedText :: (← bindNestedColumns site owner position rest)
    else bindNestedColumns site owner position rest

/-- Binds a column that is described by the element of its owner. -/
def bindOwnColumn (site : ColumnSite) (node : Element) (name : String) :
    Binding (List Selectable) := do
  let column ← Binding.ofExcept ((Column.ofName name).describedBy node site.nullable)
  return [← registerColumn site.table column [node]]

/-- Binds the columns and formulas that an element names. -/
def bindNamedColumns (site : ColumnSite) (node : Element) : Binding (List Selectable) :=
  match node.attribute? "column" with
  | some name => do
    if (node.child? "column").isSome then throw .columnAttributeWithColumns
    if (node.child? "formula").isSome then throw .columnAttributeWithFormulas
    bindOwnColumn site node ((← get).naming.column name)
  | none => bindNestedColumns site node 0 node.children

/-- Binds the columns and formulas that an element names, or else a column made from the
path of the property. -/
def bindColumns (site : ColumnSite) (node : Element) : Binding (List Selectable) := do
  let selectables ← bindNamedColumns site node
  if selectables.isEmpty then
    bindOwnColumn site node ((← get).naming.columnOfProperty site.path)
  else return selectables

/-- Binds the formula that an attribute holds, or else columns. -/
def bindColumnsOrFormula (site : ColumnSite) (node : Element) : Binding (List Selectable) :=
  match node.attribute? "formula" with
  | some sql => return [.formula sql]
  | none => bindColumns site node

end ObjectMapping
