import ObjectMapping.Registry.Basic

/-!
# Binding

Binding an element reads the registry and writes to it, and may fail.  Nothing is undone on
failure: what was registered before the error stays registered.  `Binding α` is a computation
of that kind.
-/

namespace ObjectMapping

/-- A computation over the registry that may fail, and keeps what it wrote when it does. -/
abbrev Binding := EStateM MappingError Registry

namespace Binding

/-- The value of a checked computation, or its error. -/
def ofExcept : Except MappingError α → Binding α
  | .ok a => pure a
  | .error e => throw e

/-- Writes to the registry, if it accepts. -/
def register (f : Registry → Except MappingError Registry) : Binding Unit := do
  set (← ofExcept (f (← get)))

/-- Reads from the registry. -/
def read (f : Registry → α) : Binding α := return f (← get)

/-- The value of an option, or an error. -/
def require (e : MappingError) : Option α → Binding α
  | some a => pure a
  | none => throw e

/-- Changes a table, if there is one. -/
def changeTable (id : Option TableId) (f : Table → Table) : Binding Unit :=
  match id with
  | some id => modify (·.modifyTable id f)
  | none => pure ()

/-- Changes a registered entity. -/
def changeEntity (name : String) (f : Entity → Entity) : Binding Unit := do
  if (← get).hasEntity name then modify (·.modifyEntity name f)
  else throw (.unknownEntity name)

end Binding

end ObjectMapping
