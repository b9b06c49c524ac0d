import ObjectMapping.Binding.Monad

/-!
# Filters

A filter's condition is the text of its element, or else an attribute; a filter that is
applied without a condition takes the one of its definition.
-/

namespace ObjectMapping

/-- The condition that an element states. -/
def conditionOf (node : Element) : Option String :=
  let text := node.trimmedText
  if text.isEmpty then (node.attribute? "condition").filter (!·.isEmpty) else some text

/-- The declared parameters among children of a name; both name and type are needed. -/
def parameterTypesOf (node : Element) (child : String) : KeyedList String TypeRef :=
  .ofList <| (node.childrenNamed child).filterMap fun param =>
    match param.attribute? "name", param.attribute? "type" with
    | some name, some type => some (name, .ofName type)
    | _, _ => none

/-- Binds a filter definition. -/
def bindFilterDefinition (node : Element) : Binding Unit := do
  let name ← Binding.require .filterDefinitionWithoutName (node.attribute? "name")
  modify (·.addFilterDefinition {
    name
    defaultCondition := conditionOf node
    parameterTypes := parameterTypesOf node "filter-param" })

/-- The filter that an element applies. -/
def Registry.filterUse (r : Registry) (node : Element) : Except MappingError FilterUse :=
  match node.attribute? "name" with
  | none => .error .filterWithoutName
  | some name =>
    match (conditionOf node).or ((r.filterDefinition? name).bind (·.defaultCondition)) with
    | some condition => .ok { name, condition }
    | none => .error (.filterWithoutCondition name)

/-- Binds the filter that an element applies. -/
def bindFilterUse (node : Element) : Binding FilterUse := do
  Binding.ofExcept ((← get).filterUse node)

end ObjectMapping
