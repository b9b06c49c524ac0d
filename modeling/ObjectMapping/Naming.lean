import ObjectMapping.Text.Path
import ObjectMapping.Text.SnakeCase

/-!
# Naming strategies

A naming strategy turns logical names into physical ones, where a mapping omits the
physical name or gives one that has to be normalised.
-/

namespace ObjectMapping

/-- How physical table and column names are derived. -/
inductive NamingStrategy where
  /-- Unqualified names as they are. -/
  | plain
  /-- Lower-case words joined by underscores. -/
  | snake
deriving DecidableEq, Inhabited, Repr

namespace NamingStrategy

/-- The form of one name. -/
def normalize : NamingStrategy → String → String
  | plain, name => name
  | snake, name => snakeCase name

/-- The table of an entity mapped without one. -/
def tableOfClass (s : NamingStrategy) (className : String) : String :=
  s.normalize (unqualify className)

/-- The column of a value mapped without one. -/
def columnOfProperty (s : NamingStrategy) (path : String) : String :=
  s.normalize (unqualify path)

/-- The physical form of a table name given in the mapping. -/
def table (s : NamingStrategy) (name : String) : String := s.normalize name

/-- The physical form of a column name given in the mapping. -/
def column (s : NamingStrategy) (name : String) : String := s.normalize name

/-- The table of a collection mapped without one: the owner's table and the associated table,
or else the collection's own name, joined by an underscore. -/
def tableOfCollection (s : NamingStrategy) (ownerTable : String) (associated : Option String)
    (path : String) : String :=
  s.normalize ownerTable ++ "_" ++ s.normalize (associated.getD (unqualify path))

end NamingStrategy

end ObjectMapping
