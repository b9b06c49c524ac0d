import ObjectMapping.Binding.Monad
import ObjectMapping.Registry.Hierarchy

/-!
# Foreign keys

An association to an entity's identifier gets its foreign key at once.  A many-to-one to
another property must wait until that property is known, and queues a pass.
-/

namespace ObjectMapping

/-- Makes the foreign key of a value to an entity, unless the value has a formula or no
columns, or its mapping asks for none. -/
def Registry.constrainTo (r : Registry) (value : SimpleValue) (entity : String) : Registry :=
  let columns := value.columnNames
  if value.hasFormula || value.foreignKeyName = some "none" || columns.isEmpty then r
  else
    match value.table with
    | none => r
    | some id => r.modifyTable id fun t => t.addForeignKey {
        name := t.foreignKeyName value.foreignKeyName columns
        columns
        referencedEntity := entity
        cascadeDelete := value.cascadeDelete }

/-- Makes the foreign key of an association to an identifier. -/
def Registry.constrainAssociation (r : Registry) (base : SimpleValue) (toOne : ToOne) : Registry :=
  match toOne.referencedProperty, toOne.referencedEntity with
  | none, some entity => r.constrainTo base entity
  | _, _ => r

mutual

/-- Makes the foreign keys of a value: of a many-to-one, of a constrained one-to-one, and of
those among the properties of a component. -/
def Registry.constrainValue (r : Registry) : Value → Registry
  | .manyToOne v => r.constrainAssociation v.base v.toOne
  | .oneToOne v => if v.constrained then r.constrainAssociation v.base v.toOne else r
  | .component c => r.constrainComponent c
  | .any _ | .collection _ | .dependant _ _ _ _ | .oneToMany _ | .simple _ => r

/-- Makes the foreign keys of a component. -/
def Registry.constrainComponent (r : Registry) : Component → Registry
  | { properties, .. } => r.constrainProperties properties

/-- Makes the foreign keys of a property. -/
def Registry.constrainProperty (r : Registry) : Property → Registry
  | { value, .. } => r.constrainValue value

/-- Makes the foreign keys of properties, in order. -/
def Registry.constrainProperties (r : Registry) : List Property → Registry
  | [] => r
  | p :: ps => (r.constrainProperty p).constrainProperties ps

end

/-- Records that an association refers to a property, which makes it an alternate key. -/
def Registry.referTo (r : Registry) (toOne : ToOne) : Registry :=
  match toOne.referencedEntity, toOne.referencedProperty with
  | some entity, some property => r.addPropertyReference { entity, property, unique := true }
  | _, _ => r

/-- Queues the foreign key of a many-to-one to a property, unless missing rows are ignored. -/
def Registry.queuePropertyRef (r : Registry) (v : ManyToOne) : Registry :=
  match v.toOne.referencedEntity, v.toOne.referencedProperty with
  | some referencedEntity, some referencedProperty =>
    if v.ignoreNotFound then r
    else r.addPass <| .propertyRef {
      table := v.base.table
      columns := v.base.columnNames
      hasFormula := v.base.hasFormula
      referencedEntity
      referencedProperty
      foreignKeyName := v.base.foreignKeyName
      cascadeDelete := v.base.cascadeDelete }
  | _, _ => r

/-- Makes the foreign key of an association to a property. -/
def bindPropertyRef (pass : PropertyRefPass) : Binding Unit := do
  let r ← get
  let entity ← Binding.require (.unmappedReferencedClass pass.referencedEntity)
    (r.resolveEntityName? pass.referencedEntity)
  let property ← Binding.require (.constrainedPropertyNotFound pass.referencedProperty entity)
    (r.referencedProperty? entity pass.referencedProperty)
  unless pass.hasFormula || pass.foreignKeyName = some "none" do
    Binding.changeTable pass.table fun t => t.addForeignKey {
      name := t.foreignKeyName pass.foreignKeyName pass.columns
      columns := pass.columns
      referencedEntity := entity
      referencedColumns := property.value.columnNames
      cascadeDelete := pass.cascadeDelete }

end ObjectMapping
