import ObjectMapping.Binding.Monad

/-!
# Owners

What binding a property needs to know about the entity it belongs to.
-/

namespace ObjectMapping

/-- The entity whose properties are being bound. -/
structure Owner where
  name : String
  className : Option String
  nodeName : String
  table : TableId
deriving DecidableEq, Inhabited

namespace Owner

/-- An entity as an owner. -/
def ofEntity (e : Entity) : Owner := ⟨e.name, e.className, e.nodeName, e.table⟩

/-- A registered entity as an owner. -/
def find (name : String) : Binding Owner := do
  Binding.require (.unknownOwner name) (((← get).entity? name).map ofEntity)

end Owner

end ObjectMapping
