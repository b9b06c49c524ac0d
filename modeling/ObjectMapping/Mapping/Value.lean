import ObjectMapping.Document.Meta
import ObjectMapping.Mapping.Cascade
import ObjectMapping.Schema.Table

/-!
# Values and properties

A property is a named slot on an entity, a join or a component; its value says which columns
it is stored in and what they hold.  Components are values made of properties, so the three
types are defined together.

Most values have a simple core (`Value.simple?`): columns and formulas with a type.
`Value.selectables` flattens components, and everything said about the columns of a value is
said through it.
-/

namespace ObjectMapping

/-- How the identifiers of an entity or a bag are made. -/
structure IdentifierGenerator where
  strategy : String
  parameters : KeyedList String String := .empty
deriving DecidableEq, Inhabited

/-- The generator strategy of identifiers that the application assigns. -/
def assignedStrategy : String := "assigned"

/-- Columns and formulas with a type. -/
structure SimpleValue where
  table : Option TableId := none
  selectables : List Selectable := []
  typeName : Option String := none
  typeParameters : KeyedList String String := .empty
  generator : Option IdentifierGenerator := none
  /-- The identifier that tells transient from persistent instances. -/
  unsavedValue : Option String := none
  foreignKeyName : Option String := none
  cascadeDelete : Bool := false
  alternateUniqueKey : Bool := false
deriving DecidableEq, Inhabited

namespace SimpleValue

/-- The columns, in order. -/
def columns (v : SimpleValue) : List Column := v.selectables.filterMap Selectable.column?

/-- The names of the columns, in order. -/
def columnNames (v : SimpleValue) : List String := v.columns.map Column.name

/-- Whether there is a formula. -/
def hasFormula (v : SimpleValue) : Bool := v.selectables.any Selectable.isFormula

/-- Nullable if a formula is involved or every column is nullable. -/
def isNullable (v : SimpleValue) : Bool := v.hasFormula || v.columns.all Column.nullable

/-- Sets the nullability of every column. -/
def withNullable (v : SimpleValue) (nullable : Bool) : SimpleValue :=
  { v with selectables := v.selectables.map (·.withNullable nullable) }

/-- The strategy of the generator. -/
def generatorStrategy? (v : SimpleValue) : Option String :=
  v.generator.map IdentifierGenerator.strategy

end SimpleValue

/-- How an association is fetched. -/
inductive FetchMode where
  | unspecified | join | select
deriving DecidableEq, Inhabited, Repr

/-- What an association to one entity refers to. -/
structure ToOne where
  referencedEntity : Option String := none
  /-- The property referred to in place of the identifier. -/
  referencedProperty : Option String := none
  fetch : FetchMode := .unspecified
  isLazy : Bool := true
  unwrapProxy : Bool := false
  embedded : Bool := true
deriving DecidableEq, Inhabited

/-- A reference to one entity, held in columns of its own. -/
structure ManyToOne where
  base : SimpleValue := {}
  toOne : ToOne := {}
  ignoreNotFound : Bool := false
deriving DecidableEq, Inhabited

/-- Which side of a one-to-one holds the constraint. -/
inductive ForeignKeyDirection where
  | fromParent | toParent
deriving DecidableEq, Inhabited, Repr

/-- A reference to the one entity that shares an identifier. -/
structure OneToOne where
  base : SimpleValue := {}
  toOne : ToOne := {}
  constrained : Bool := false
  direction : ForeignKeyDirection := .toParent
  propertyName : String := ""
  ownerEntity : String
deriving DecidableEq, Inhabited

/-- A reference to an entity of any class, held as a discriminator and an identifier. -/
structure AnyValue where
  base : SimpleValue := {}
  identifierType : Option String := none
  metaType : Option String := none
  /-- The entities that the discriminator's values stand for. -/
  metaValues : SortedMap String := .empty
  isLazy : Bool := false
deriving DecidableEq, Inhabited

/-- The element of a one-to-many collection. -/
structure OneToMany where
  referencedEntity : Option String := none
  /-- The table of the element, known once its entity is bound. -/
  associatedTable : Option TableId := none
  embedded : Bool := true
  ignoreNotFound : Bool := false
deriving DecidableEq, Inhabited

/-- When the database generates a property. -/
inductive PropertyGeneration where
  | always | insert | never
deriving DecidableEq, Inhabited, Repr

/-- Reads a generation literal. -/
def PropertyGeneration.ofLiteral? (raw : String) : Option PropertyGeneration :=
  if raw = "always" then some .always
  else if raw = "insert" then some .insert
  else if raw = "never" then some .never
  else none

/-- What a backref shows of a collection. -/
inductive BackrefKind where
  | collection | index
deriving DecidableEq, Inhabited, Repr

/-- Marks a synthetic property that shows a collection's ownership from the element's side. -/
structure Backref where
  kind : BackrefKind
  collectionRole : String
  entityName : String
deriving DecidableEq, Inhabited

mutual

/-- The column-bearing payload of a property. -/
inductive Value where
  | any (value : AnyValue)
  /-- A registered collection, by role. -/
  | collection (role : String)
  | component (component : Component)
  /-- A foreign key that takes its type from the value it references. -/
  | dependant (base : SimpleValue) (wrapped : Value) (nullable updatable : Bool)
  | manyToOne (value : ManyToOne)
  | oneToMany (value : OneToMany)
  | oneToOne (value : OneToOne)
  | simple (value : SimpleValue)

/-- A value made of properties. -/
structure Component where
  table : Option TableId := none
  ownerEntity : String
  roleName : String
  componentClass : Option String := none
  /-- Whether there is no class behind the component. -/
  isDynamic : Bool := false
  embedded : Bool := false
  isKey : Bool := false
  /-- The identifier that marks transient instances, on a composite identifier. -/
  unsavedValue : Option String := none
  parentProperty : Option String := none
  nodeName : Option String := none
  properties : List Property := []
  metas : MetaMap := .empty
  tuplizers : SortedMap String := .empty

/-- A named slot on an entity, a join or a component. -/
structure Property where
  name : String
  nodeName : Option String := none
  value : Value
  access : String := "property"
  cascade : String := "none"
  insertable : Bool := true
  updatable : Bool := true
  optimisticLocked : Bool := true
  isLazy : Bool := false
  isOptional : Bool := false
  generation : PropertyGeneration := .never
  naturalIdentifier : Bool := false
  /-- Synthetic properties never appear in a select list. -/
  selectable : Bool := true
  backref : Option Backref := none
  metas : MetaMap := .empty

end

instance : Inhabited Value := ⟨.simple {}⟩

instance : Inhabited Component := ⟨{ ownerEntity := "", roleName := "" }⟩

instance : Inhabited Property := ⟨{ name := "", value := default }⟩

/-! ## Cores -/

namespace Value

/-- The simple core of a value that has one. -/
def simple? : Value → Option SimpleValue
  | simple v => some v
  | dependant base _ _ _ => some base
  | manyToOne v => some v.base
  | oneToOne v => some v.base
  | any v => some v.base
  | component _ | collection _ | oneToMany _ => none

/-- Changes the simple core of a value that has one. -/
def modifySimple (f : SimpleValue → SimpleValue) : Value → Value
  | simple v => simple (f v)
  | dependant base wrapped nullable updatable => dependant (f base) wrapped nullable updatable
  | manyToOne v => manyToOne { v with base := f v.base }
  | oneToOne v => oneToOne { v with base := f v.base }
  | any v => any { v with base := f v.base }
  | component c => component c
  | collection role => collection role
  | oneToMany v => oneToMany v

/-- The target of an association to one entity. -/
def toOne? : Value → Option ToOne
  | manyToOne v => some v.toOne
  | oneToOne v => some v.toOne
  | _ => none

/-- The component, if it is one. -/
def component? : Value → Option Component
  | component c => some c
  | _ => none

/-- Whether the value is a collection. -/
def isCollection : Value → Bool
  | collection _ => true
  | _ => false

end Value

/-! ## Columns -/

mutual

/-- The columns and formulas of a value in order, flattening components. -/
def Value.selectables : Value → List Selectable
  | .component c => c.selectables
  | .simple v => v.selectables
  | .dependant base _ _ _ => base.selectables
  | .manyToOne v => v.base.selectables
  | .oneToOne v => v.base.selectables
  | .any v => v.base.selectables
  | .collection _ | .oneToMany _ => []

/-- The columns and formulas of a component's properties. -/
def Component.selectables : Component → List Selectable
  | { properties, .. } => Property.selectablesOfAll properties

/-- The columns and formulas of a property. -/
def Property.selectables : Property → List Selectable
  | { value, .. } => value.selectables

/-- The columns and formulas of properties in order. -/
def Property.selectablesOfAll : List Property → List Selectable
  | [] => []
  | p :: ps => p.selectables ++ Property.selectablesOfAll ps

end

mutual

/-- Whether the columns of a value may all be null: a component if each of its properties
may, a dependant key as declared. -/
def Value.isNullable : Value → Bool
  | .component c => c.isNullable
  | .dependant _ _ nullable _ => nullable
  | .collection _ | .oneToMany _ => true
  | .simple v => v.isNullable
  | .manyToOne v => v.base.isNullable
  | .oneToOne v => v.base.isNullable
  | .any v => v.base.isNullable

/-- Whether every property of a component may be null. -/
def Component.isNullable : Component → Bool
  | { properties, .. } => Property.areNullable properties

/-- Whether a property may be null. -/
def Property.isNullable : Property → Bool
  | { value, .. } => value.isNullable

/-- Whether all properties of a list may be null. -/
def Property.areNullable : List Property → Bool
  | [] => true
  | p :: ps => p.isNullable && Property.areNullable ps

end

mutual

/-- Sets the nullability of every column of a value. -/
def Value.withNullable (nullable : Bool) : Value → Value
  | .component c => .component (c.withNullable nullable)
  | .simple v => .simple (v.withNullable nullable)
  | .dependant base wrapped declared updatable =>
    .dependant (base.withNullable nullable) wrapped declared updatable
  | .manyToOne v => .manyToOne { v with base := v.base.withNullable nullable }
  | .oneToOne v => .oneToOne { v with base := v.base.withNullable nullable }
  | .any v => .any { v with base := v.base.withNullable nullable }
  | .collection role => .collection role
  | .oneToMany v => .oneToMany v

/-- Sets the nullability of every column of a component. -/
def Component.withNullable (nullable : Bool) : Component → Component
  | { table, ownerEntity, roleName, componentClass, isDynamic, embedded, isKey, unsavedValue,
      parentProperty, nodeName, properties, metas, tuplizers } =>
    { table, ownerEntity, roleName, componentClass, isDynamic, embedded, isKey, unsavedValue,
      parentProperty, nodeName, metas, tuplizers
      properties := Property.allWithNullable nullable properties }

/-- Sets the nullability of every column of a property. -/
def Property.withNullable (nullable : Bool) : Property → Property
  | { name, nodeName, value, access, cascade, insertable, updatable, optimisticLocked, isLazy,
      isOptional, generation, naturalIdentifier, selectable, backref, metas } =>
    { name, nodeName, access, cascade, insertable, updatable, optimisticLocked, isLazy,
      isOptional, generation, naturalIdentifier, selectable, backref, metas
      value := value.withNullable nullable }

/-- Sets the nullability of every column of some properties. -/
def Property.allWithNullable (nullable : Bool) : List Property → List Property
  | [] => []
  | p :: ps => p.withNullable nullable :: Property.allWithNullable nullable ps

end

namespace Value

/-- The columns of a value, flattening components. -/
def columns (v : Value) : List Column := v.selectables.filterMap Selectable.column?

/-- The names of the columns of a value. -/
def columnNames (v : Value) : List String := v.columns.map Column.name

/-- The number of columns and formulas of a value. -/
def columnSpan (v : Value) : Nat := v.selectables.length

/-- Whether a value has a formula. -/
def hasFormula (v : Value) : Bool := v.selectables.any Selectable.isFormula

/-- The declared type of a value with a simple core. -/
def typeName? (v : Value) : Option String := v.simple?.bind SimpleValue.typeName

/-- The table that holds a value. -/
def table? : Value → Option TableId
  | component c => c.table
  | oneToMany v => v.associatedTable
  | v => v.simple?.bind SimpleValue.table

end Value

/-! ## Properties by path -/

/-- The property of a name. -/
def Component.property? (c : Component) (name : String) : Option Property :=
  c.properties.find? fun p => p.name = name

namespace Property

/-- Whether a property is synthetic. -/
def isBackref (p : Property) : Bool := p.backref.isSome

/-- The property that a path leads to through components. -/
def below? (p : Property) : List String → Option Property
  | [] => some p
  | step :: steps => (p.value.component?.bind (·.property? step)).bind (below? · steps)

/-- Where a path leads to through components: the index of a member for each step. -/
def locate? (p : Property) : List String → Option (List Nat)
  | [] => some []
  | step :: steps =>
    match p.value with
    | .component c => do
      let index ← c.properties.findIdx? fun q => q.name = step
      let member ← c.properties[index]?
      let rest ← member.locate? steps
      return index :: rest
    | _ => none

/-- The property that indices lead to through components. -/
def at? (p : Property) : List Nat → Option Property
  | [] => some p
  | index :: rest => (p.value.component?.bind (·.properties[index]?)).bind (at? · rest)

/-- Changes the property that indices lead to through components, if there is one. -/
def modifyAt (f : Property → Property) (p : Property) : List Nat → Property
  | [] => f p
  | index :: rest =>
    match p.value with
    | .component c =>
      let properties := c.properties.modify index (modifyAt f · rest)
      { p with value := .component { c with properties } }
    | _ => p

end Property

end ObjectMapping
