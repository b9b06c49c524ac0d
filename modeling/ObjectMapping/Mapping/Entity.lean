import ObjectMapping.Mapping.Value

/-!
# Entities

An entity is a persistent type: the root of a hierarchy, or one of three kinds of subclass.
What all kinds share is held by `Entity`, the rest by its `EntityKind`.
-/

namespace ObjectMapping

/-- A statement that replaces a generated one. -/
structure CustomSql where
  sql : String
  callable : Bool := false
deriving DecidableEq, Inhabited

/-- The statements that replace generated ones. -/
structure CustomSqlSet where
  insert : Option CustomSql := none
  update : Option CustomSql := none
  delete : Option CustomSql := none
  deleteAll : Option CustomSql := none
deriving DecidableEq, Inhabited

/-- A filter as applied to an entity or collection, with its condition. -/
structure FilterUse where
  name : String
  condition : String
deriving DecidableEq, Inhabited

/-- The second-level cache of an entity or collection. -/
structure CacheSettings where
  usage : String
  region : Option String := none
  includeLazy : Bool := true
deriving DecidableEq, Inhabited

/-- How concurrent changes are detected. -/
inductive OptimisticLock where
  | all | dirty | off | version
deriving DecidableEq, Inhabited, Repr

namespace OptimisticLock

/-- The literal of a lock style. -/
def literal : OptimisticLock → String
  | all => "all"
  | dirty => "dirty"
  | off => "none"
  | version => "version"

/-- Reads the literal of a lock style. -/
def ofLiteral? (raw : String) : Option OptimisticLock :=
  [all, dirty, off, version].find? fun l => l.literal = raw

end OptimisticLock

/-- How the classes of a hierarchy are stored. -/
inductive PersisterStrategy where
  | singleTable | joinedSubclass | unionSubclass
deriving DecidableEq, Inhabited, Repr

/-- The name of a storage strategy. -/
def PersisterStrategy.label : PersisterStrategy → String
  | singleTable => "single-table"
  | joinedSubclass => "joined-subclass"
  | unionSubclass => "union-subclass"

/-- The identifier of a hierarchy: reachable as a property, or only as a value. -/
inductive IdentifierBinding where
  | named (property : Property)
  | unnamed (value : Value)
deriving Inhabited

namespace IdentifierBinding

/-- The value of an identifier. -/
def value : IdentifierBinding → Value
  | named p => p.value
  | unnamed v => v

/-- The property of a named identifier. -/
def property? : IdentifierBinding → Option Property
  | named p => some p
  | unnamed _ => none

/-- Changes the property of a named identifier. -/
def modifyProperty (f : Property → Property) : IdentifierBinding → IdentifierBinding
  | named p => named (f p)
  | unnamed v => unnamed v

end IdentifierBinding

/-- The column that tells the classes of a hierarchy apart. -/
structure Discriminator where
  value : SimpleValue
  force : Bool := false
  insertable : Bool := true
deriving DecidableEq, Inhabited

/-- What only the root of a hierarchy carries. -/
structure RootData where
  identifier : Option IdentifierBinding := none
  embeddedIdentifier : Bool := false
  /-- The shadow of a composite identifier that is mapped twice. -/
  identifierMapper : Option Component := none
  /-- The name of the version or timestamp property. -/
  version : Option String := none
  discriminator : Option Discriminator := none
  polymorphic : Bool := false
  explicitPolymorphism : Bool := false
  isMutable : Bool := true
  whereClause : Option String := none
  cache : Option CacheSettings := none
  /-- How the hierarchy is stored where no persister is set. -/
  defaultPersister : Option PersisterStrategy := none
deriving Inhabited

namespace RootData

/-- The value of the identifier. -/
def identifierValue? (r : RootData) : Option Value := r.identifier.map IdentifierBinding.value

/-- The property of a named identifier. -/
def identifierProperty? (r : RootData) : Option Property :=
  r.identifier.bind IdentifierBinding.property?

end RootData

/-- What an entity is within its hierarchy. -/
inductive EntityKind where
  | root (data : RootData)
  | subclass (superclass : String)
  | joinedSubclass (superclass : String) (key : Value)
  | unionSubclass (superclass : String)
deriving Inhabited

namespace EntityKind

/-- The tag of a kind. -/
def label : EntityKind → String
  | root _ => "class"
  | subclass _ => "subclass"
  | joinedSubclass _ _ => "joined-subclass"
  | unionSubclass _ => "union-subclass"

/-- The superclass of a kind other than root. -/
def superclass? : EntityKind → Option String
  | root _ => none
  | subclass superclass | joinedSubclass superclass _ | unionSubclass superclass =>
    some superclass

/-- The root's data, on a root. -/
def root? : EntityKind → Option RootData
  | root data => some data
  | _ => none

/-- Changes the root's data, on a root. -/
def modifyRoot (f : RootData → RootData) : EntityKind → EntityKind
  | root data => root (f data)
  | kind => kind

end EntityKind

/-- A second table that holds some of an entity's properties. -/
structure Join where
  table : TableId
  key : Option Value := none
  sequentialSelect : Bool := false
  inverse : Bool := false
  isOptional : Bool := false
  properties : List Property := []
  customSql : CustomSqlSet := {}
deriving Inhabited

/-- Where an entity holds a property: among its own, among those of a join, or in its
identifier. -/
inductive PropertySlot where
  | own (index : Nat)
  | joined (join index : Nat)
  | identifier
deriving DecidableEq, Inhabited

/-- A persistent type. -/
structure Entity where
  name : String
  className : Option String := none
  proxyInterface : Option String := none
  nodeName : String := name
  kind : EntityKind
  /-- The table of the rows; a plain subclass shares it with its superclass. -/
  table : TableId
  isLazy : Bool := true
  discriminatorValue : String := name
  dynamicUpdate : Bool := false
  dynamicInsert : Bool := false
  batchSize : Option Nat := none
  selectBeforeUpdate : Bool := false
  optimisticLock : OptimisticLock := .version
  metas : MetaMap := .empty
  persister : Option String := none
  customSql : CustomSqlSet := {}
  loaderQuery : Option String := none
  synchronizedTables : List String := []
  /-- Unspecified unless the mapping says true or false. -/
  isAbstract : Option Bool := none
  properties : List Property := []
  joins : List Join := []
  /-- The names of the direct subclasses, in order of registration. -/
  subclasses : List String := []
  filters : List FilterUse := []
  tuplizers : SortedMap String := .empty
  subselectLoadableCollections : Bool := false
deriving Inhabited

namespace Entity

/-- The superclass of an entity that is not a root. -/
def superclass? (e : Entity) : Option String := e.kind.superclass?

/-- The root's data, on a root. -/
def root? (e : Entity) : Option RootData := e.kind.root?

/-- Whether the entity is the root of its hierarchy. -/
def isRoot (e : Entity) : Bool := e.root?.isSome

/-- Changes the root's data, on a root. -/
def modifyRoot (e : Entity) (f : RootData → RootData) : Entity :=
  { e with kind := e.kind.modifyRoot f }

/-- The declared properties, those of joins last. -/
def allProperties (e : Entity) : List Property :=
  e.properties ++ e.joins.flatMap Join.properties

/-- The declared property of a name. -/
def property? (e : Entity) (name : String) : Option Property :=
  e.allProperties.find? fun p => p.name = name

/-- Adds a property at the end. -/
def addProperty (e : Entity) (p : Property) : Entity :=
  { e with properties := e.properties ++ [p] }

/-- The property of a named identifier. -/
def identifierProperty? (e : Entity) : Option Property :=
  e.root?.bind RootData.identifierProperty?

/-- The declared property of a name, or else the identifier property of that name. -/
def referableProperty? (e : Entity) (name : String) : Option Property :=
  (e.property? name).or (e.identifierProperty?.filter fun p => p.name = name)

/-- Whether a declared property or the identifier property has a name. -/
def hasReferable (e : Entity) (name : String) : Bool :=
  (e.property? name).isSome || e.identifierProperty?.any (·.name = name)

/-- Where the declared property of a name is held: by the entity, or else by its first join that
has one. -/
def declaredSlot? (e : Entity) (name : String) : Option PropertySlot :=
  let named (p : Property) : Bool := p.name = name
  ((e.properties.findIdx? named).map .own).or do
    let join ← e.joins.findIdx? (·.properties.any named)
    let holder ← e.joins[join]?
    let index ← holder.properties.findIdx? named
    return .joined join index

/-- Where the declared property of a name is held, or else that of the identifier. -/
def referableSlot? (e : Entity) (name : String) : Option PropertySlot :=
  if (e.property? name).isSome then e.declaredSlot? name
  else e.identifierProperty?.map fun _ => .identifier

/-- The property that a slot holds. -/
def slot? (e : Entity) : PropertySlot → Option Property
  | .own index => e.properties[index]?
  | .joined join index => e.joins[join]?.bind (·.properties[index]?)
  | .identifier => e.identifierProperty?

/-- Changes the property that a slot holds, if it holds one. -/
def modifySlot (e : Entity) (f : Property → Property) : PropertySlot → Entity
  | .own index => { e with properties := e.properties.modify index f }
  | .joined join index =>
    { e with joins := e.joins.modify join fun j =>
        { j with properties := j.properties.modify index f } }
  | .identifier => e.modifyRoot fun r =>
    { r with identifier := r.identifier.map (·.modifyProperty f) }

/-- Changes the declared property of a name. -/
def modifyProperty (e : Entity) (name : String) (f : Property → Property) : Entity :=
  match e.declaredSlot? name with
  | some slot => e.modifySlot f slot
  | none => e

/-- The properties that make up the natural identifier. -/
def naturalIdProperties (e : Entity) : List Property :=
  e.properties.filter Property.naturalIdentifier

end Entity

end ObjectMapping
