import ObjectMapping.Data.KeyedList
import ObjectMapping.TypeRef

/-!
# Definitions

Type aliases, filter definitions and auxiliary database objects: what a mapping declares
beside its entities.
-/

namespace ObjectMapping

/-- A name for a type class with parameters. -/
structure TypeDefinition where
  name : String
  typeClass : String
  parameters : KeyedList String String := .empty
deriving DecidableEq, Inhabited

/-- A filter that entities and collections apply by name. -/
structure FilterDefinition where
  name : String
  defaultCondition : Option String := none
  parameterTypes : KeyedList String TypeRef := .empty
deriving DecidableEq, Inhabited

/-- Extra statements emitted with the schema, or the class that makes them. -/
inductive AuxiliaryContent where
  | custom (definitionClass : String)
  | statements (create drop : String)
deriving DecidableEq, Inhabited

/-- An extra object of the database, for some dialects or for all. -/
structure AuxiliaryObject where
  content : AuxiliaryContent
  dialectScopes : List String := []
deriving DecidableEq, Inhabited

/-- Whether an object applies to a dialect: if it names no dialect, or this one. -/
def AuxiliaryObject.appliesTo (o : AuxiliaryObject) (dialect : String) : Bool :=
  o.dialectScopes.isEmpty || o.dialectScopes.contains dialect

end ObjectMapping
