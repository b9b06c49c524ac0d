import ObjectMapping.Document.Scope

/-!
# Deferred passes

Work that waits until every entity is registered: binding the contents of a collection, and
making the foreign key of an association to a property other than the identifier.
-/

namespace ObjectMapping

/-- How the contents of a collection are bound. -/
inductive PassKind where
  | plain | identifierBag | list | map
deriving DecidableEq, Inhabited, Repr

namespace PassKind

/-- What a reader calls a pass of this kind. -/
def label : PassKind → String
  | plain => "collection"
  | identifierBag => "identifier collection"
  | list => "list"
  | map => "map"

end PassKind

/-- A registered collection whose contents are still to be bound, with its element and the
scope that it was declared in. -/
structure CollectionPass where
  role : String
  node : Element
  scope : Scope
deriving Inhabited

/-- An association to a property, whose foreign key is still to be made. -/
structure PropertyRefPass where
  table : Option TableId
  columns : List String
  hasFormula : Bool := false
  referencedEntity : String
  referencedProperty : String
  foreignKeyName : Option String := none
  cascadeDelete : Bool := false
deriving DecidableEq, Inhabited

/-- A piece of deferred work. -/
inductive DeferredPass where
  | contents (kind : PassKind) (pass : CollectionPass)
  | propertyRef (pass : PropertyRefPass)
deriving Inhabited

namespace DeferredPass

/-- What a reader calls a pass. -/
def describe : DeferredPass → String
  | contents kind pass => kind.label ++ " " ++ pass.role
  | propertyRef pass => "property-ref " ++ pass.referencedEntity ++ "." ++ pass.referencedProperty

/-- The number of elements that a pass may still bind; passes that it queues have fewer. -/
def weight : DeferredPass → Nat
  | contents _ pass => pass.node.weight
  | propertyRef _ => 1

end DeferredPass

end ObjectMapping
