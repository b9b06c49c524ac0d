import ObjectMapping.Binding.Columns

/-!
# Simple values

A simple value has a type and columns.  The type is named by an attribute or by a nested
`<type>`; if the name is that of a type alias, the alias supplies the class and the
parameters that the mapping does not give.
-/

namespace ObjectMapping

/-- A type as a mapping names it. -/
structure DeclaredType where
  name : Option String := none
  parameters : KeyedList String String := .empty
deriving DecidableEq, Inhabited

namespace DeclaredType

/-- The type that an element declares: by attribute, or else by a nested element. -/
def ofElement (node : Element) : DeclaredType :=
  match (node.attribute? "type").or (node.attribute? "id-type") with
  | some name => { name := some name }
  | none =>
    match node.child? "type" with
    | some type => { name := type.attribute? "name", parameters := .ofList type.parameters }
    | none => {}

/-- A declared type with a type alias of its name replaced by what it stands for. -/
def resolve (r : Registry) (t : DeclaredType) : DeclaredType :=
  match t.name.bind r.typeDefinition? with
  | some definition =>
    { name := some definition.typeClass
      parameters := definition.parameters.insertMany t.parameters.entries }
  | none => t

end DeclaredType

/-- The type of the value that an element declares. -/
def Registry.declaredType (r : Registry) (node : Element) : DeclaredType :=
  (DeclaredType.ofElement node).resolve r

/-- Binds a simple value. -/
def bindSimpleValue (site : ColumnSite) (node : Element) : Binding SimpleValue := do
  let type := (← get).declaredType node
  let selectables ← bindColumnsOrFormula site node
  return {
    table := site.table
    selectables
    typeName := type.name
    typeParameters := type.parameters
    foreignKeyName := node.attribute? "foreign-key" }

end ObjectMapping
