import ObjectMapping.Data.KeyedList

/-!
# Reflected property types

Where a mapping leaves out a type, the backing class may know it.  A `Reflection` is the
table of what is known.
-/

namespace ObjectMapping

/-- The known types of properties, by class and property. -/
structure Reflection where
  types : KeyedList (String × String) String := .empty
deriving Inhabited

namespace Reflection

/-- Nothing is known. -/
def none : Reflection := {}

/-- Records the type of a property; a later record overrides. -/
def add (r : Reflection) (className property type : String) : Reflection :=
  { r with types := r.types.insert (className, property) type }

/-- The type of a property of a class. -/
def propertyType? (r : Reflection) (className property : String) : Option String :=
  r.types.get? (className, property)

end Reflection

end ObjectMapping
