import ObjectMapping.Binding.Association
import ObjectMapping.Binding.ForeignKey

/-!
# Keys of secondary tables

The table of a joined subclass, or of a join, is keyed by the identifier of another entity:
the key is its primary key and a foreign key to that entity.
-/

namespace ObjectMapping

/-- Binds the key of a table to the identifier of `referenced`. -/
def bindDependantKey (table : TableId) (referenced path : String) (node : Element) :
    Binding Value := do
  let identifier ← Binding.require (.identifierNotFound referenced)
    ((← get).identifierValue? referenced)
  let base ← bindSimpleValue { table := some table, nullable := false, path } node
  let base := { base with cascadeDelete := node.attributeIs "on-delete" "cascade" }
  Binding.changeTable (some table) (·.setPrimaryKey base.columnNames)
  modify (·.constrainTo base referenced)
  return .dependant base identifier false true

end ObjectMapping
