import ObjectMapping.Binding.Identifier
import ObjectMapping.Binding.Join
import ObjectMapping.Binding.Query

/-!
# Classes and subclasses

A class is registered after its header, its table and its identifier, and before its
properties, so that the subclasses and joins in its body find it.  A subclass is registered
under its superclass; the first subclass of a hierarchy without a persister decides how the
hierarchy is stored.

`bindBody` walks the children of any entity, and meets subclasses on its way, so the walk
and the subclasses are bound by one recursion over elements.
-/

namespace ObjectMapping

/-- The three kinds of subclass. -/
inductive SubclassKind where
  /-- In the table of the superclass. -/
  | plain
  /-- In a table keyed by the identifier of the superclass. -/
  | joined
  /-- In a table that repeats the columns of the superclass. -/
  | union
deriving DecidableEq, Inhabited, Repr

namespace SubclassKind

/-- The tag of a kind of subclass. -/
def tag : SubclassKind → String
  | plain => "subclass"
  | joined => "joined-subclass"
  | union => "union-subclass"

/-- All kinds, in the order in which a document binds them. -/
def all : List SubclassKind := [plain, joined, union]

/-- How a hierarchy is stored that is decided by a subclass of this kind. -/
def strategy : SubclassKind → PersisterStrategy
  | plain => .singleTable
  | joined => .joinedSubclass
  | union => .unionSubclass

end SubclassKind

/-! ## Registration -/

/-- Registers a subclass under its superclass, and decides how the hierarchy is stored if
nothing has decided it before. -/
def registerSubclass (e : Entity) (superclass : String) (strategy : PersisterStrategy) :
    Binding Unit := do
  Binding.register (·.addEntity e)
  Binding.changeEntity superclass fun s => { s with subclasses := s.subclasses ++ [e.name] }
  modify fun r =>
    if r.hasPersister e.name then r
    else r.modifyRootOf e.name ({ · with defaultPersister := some strategy })

/-- The table of a superclass. -/
def superclassTable (superclass : String) : Binding TableId := do
  Binding.require (.unmappedSuperclass superclass)
    (((← get).entity? superclass).map Entity.table)

/-- Adds the check constraint of an element to a table. -/
def checkTable (table : TableId) (node : Element) : Binding Unit :=
  match node.attribute? "check" with
  | some check => Binding.changeTable (some table) (·.addCheck check)
  | none => pure ()

/-- Binds a plain subclass up to its registration. -/
def preparePlainSubclass (scope : Scope) (superclass : String) (node : Element) :
    Binding Entity := do
  let table ← superclassTable superclass
  let name ← Binding.ofExcept (entityNameOf scope node)
  bindHeader scope node name (.subclass superclass) table

/-- Binds a joined subclass up to its registration. -/
def prepareJoinedSubclass (scope : Scope) (superclass : String) (node : Element) :
    Binding Entity := do
  let name ← Binding.ofExcept (entityNameOf scope node)
  let table ← openTable (← requestTable scope node name false)
  commentTable table node
  let keyNode ← Binding.require (.joinedSubclassWithoutKey name) (node.child? "key")
  let key ← bindDependantKey table superclass name keyNode
  checkTable table node
  bindHeader scope node name (.joinedSubclass superclass key) table

/-- Binds a union subclass up to its registration. -/
def prepareUnionSubclass (scope : Scope) (superclass : String) (node : Element) :
    Binding Entity := do
  let parent ← superclassTable superclass
  let name ← Binding.ofExcept (entityNameOf scope node)
  let request ← requestTable scope node name ((abstractFlag node).getD false)
  let (r, table) ← Binding.ofExcept ((← get).addDenormalizedTable request parent)
  set r
  bindHeader scope node name (.unionSubclass superclass) table

/-- Binds a subclass up to its registration. -/
def prepareSubclass (kind : SubclassKind) (scope : Scope) (superclass : String)
    (node : Element) : Binding Entity :=
  match kind with
  | .plain => preparePlainSubclass scope superclass node
  | .joined => prepareJoinedSubclass scope superclass node
  | .union => prepareUnionSubclass scope superclass node

/-- Binds and registers a subclass, without its body; its name is returned. -/
def openSubclass (kind : SubclassKind) (scope : Scope) (superclass : String) (node : Element) :
    Binding String := do
  let e ← prepareSubclass kind scope superclass node
  registerSubclass e superclass kind.strategy
  return e.name

/-- Binds the children of a class that describe its rows, in order. -/
def bindRow (scope : Scope) (e : Entity) : List Element → Binding Entity
  | [] => return e
  | node :: rest => do bindRow scope (← bindRowChild scope e node) rest

/-- Binds a root class up to its registration. -/
def prepareRootClass (scope : Scope) (node : Element) : Binding Entity := do
  let name ← Binding.ofExcept (entityNameOf scope node)
  let table ← openTable (← requestTable scope node name ((abstractFlag node).getD false))
  commentTable table node
  let e ← bindHeader scope node name (.root {
    isMutable := node.isNotDenied "mutable"
    whereClause := node.attribute? "where"
    explicitPolymorphism := node.attributeIs "polymorphism" "explicit" }) table
  checkTable table node
  if let some rowId := node.attribute? "rowid" then
    Binding.changeTable (some table) ({ · with rowId := some rowId })
  let e ← bindRow (scope.descend node) e node.children
  let keyColumns := ((e.root?.bind RootData.identifierValue?).map Value.columnNames).getD []
  unless keyColumns.isEmpty do
    Binding.changeTable (some table) (·.setPrimaryKey keyColumns)
  return e

/-- Binds and registers a root class, without its body; its name is returned. -/
def openRootClass (scope : Scope) (node : Element) : Binding String := do
  let e ← prepareRootClass scope node
  Binding.register (·.addEntity e)
  return e.name

/-! ## Bodies -/

/-- What holds for every property of one walk over a body. -/
structure BodyWalk where
  isMutable : Bool := true
  nullable : Bool := true
  naturalId : Bool := false

/-- The walk over a group of properties that make up a natural identifier. -/
def BodyWalk.ofNaturalId (node : Element) : BodyWalk where
  isMutable := node.attributeIs "mutable" "true"
  nullable := false
  naturalId := true

/-- The name of the unique key of a natural identifier. -/
def naturalIdKey : String := "_UniqueKey"

/-- Binds the value of a child of a body, if it is a property. -/
def bindBodyValue (scope : Scope) (owner : Owner) (walk : BodyWalk) (node : Element) :
    Binding (Option Value) := do
  let name := (node.attribute? "name").getD ""
  let site : ColumnSite := { table := some owner.table, nullable := walk.nullable, path := name }
  match node.tag? with
  | some (.collection kind) =>
    return some (← bindCollection scope node kind (qualify owner.name name) owner)
  | some .oneToOne =>
    return some (.oneToOne (← bindOneToOne scope { site with nullable := true } owner.name node))
  | some .component | some .dynamicComponent =>
    return some (.component (← bindComponent scope (bodySite owner owner.table name false) node))
  | some .properties =>
    return some (.component (← bindComponent scope (bodySite owner owner.table name true) node))
  | some tag => bindSimpleMember scope site node tag
  | none => return none

/-- Binds a child of a body that is a property, and adds it to the entity; the names of its
columns are returned. -/
def bindBodyProperty (scope : Scope) (owner : Owner) (walk : BodyWalk) (node : Element) :
    Binding (List String) := do
  match ← bindBodyValue scope owner walk node with
  | none => return []
  | some value =>
    let property ← createProperty scope node value owner.className owner.name
    let property := { property with
      updatable := property.updatable && walk.isMutable
      naturalIdentifier := walk.naturalId }
    Binding.changeEntity owner.name (·.addProperty property)
    return property.value.columnNames

/-- Binds a child of a body that is neither a property nor a nested body. -/
def bindBodyExtra (scope : Scope) (owner : Owner) (node : Element) : Tag → Binding Unit
  | .join => do
    let join ← bindJoin scope owner node
    Binding.changeEntity owner.name fun e => { e with joins := e.joins ++ [join] }
  | .filter => do
    let filter ← bindFilterUse node
    Binding.changeEntity owner.name fun e => { e with filters := e.filters ++ [filter] }
  | .query => bindNamedQuery (some owner.name) node
  | .sqlQuery => bindNamedSqlQuery scope (some owner.name) node
  | .resultSet => bindResultSet scope (some owner.name) node
  | _ => pure ()

mutual

/-- Binds a subclass with its body. -/
def bindSubclass (kind : SubclassKind) (scope : Scope) (superclass : String) :
    Element → Binding Unit
  | ⟨tag, attributes, children, text⟩ => do
    let node : Element := ⟨tag, attributes, children, text⟩
    let name ← openSubclass kind scope superclass node
    let owner ← Owner.find name
    discard <| bindBody (scope.descend node) owner {} children

/-- Binds a group of properties that make up a natural identifier. -/
def bindNaturalId (scope : Scope) (owner : Owner) : Element → Binding Unit
  | ⟨tag, attributes, children, text⟩ => do
    let walk := BodyWalk.ofNaturalId ⟨tag, attributes, children, text⟩
    let columns ← bindBody scope owner walk children
    Binding.changeTable (some owner.table) (·.addToUniqueKey naturalIdKey columns)

/-- Binds the children of an entity's body, in order; the names of the columns of the
properties it adds are returned. -/
def bindBody (scope : Scope) (owner : Owner) (walk : BodyWalk) :
    List Element → Binding (List String)
  | [] => return []
  | node :: rest => do
    let columns ← match node.tag? with
      | some .subclass => do bindSubclass .plain scope owner.name node; pure []
      | some .joinedSubclass => do bindSubclass .joined scope owner.name node; pure []
      | some .unionSubclass => do bindSubclass .union scope owner.name node; pure []
      | some .naturalId => do bindNaturalId scope owner node; pure []
      | some tag => do
        bindBodyExtra scope owner node tag
        bindBodyProperty scope owner walk node
      | none => pure []
    return columns ++ (← bindBody scope owner walk rest)

end

/-- Binds a root class with its body. -/
def bindRootClass (scope : Scope) (node : Element) : Binding Unit := do
  let name ← openRootClass scope node
  let owner ← Owner.find name
  discard <| bindBody (scope.descend node) owner {} node.children

end ObjectMapping
