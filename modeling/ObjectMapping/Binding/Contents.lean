import ObjectMapping.Binding.Component
import ObjectMapping.Binding.Identifier

/-!
# Contents of collections

Once every entity is registered, the key, the element and the index of each collection are
bound.  A one-to-many collection that is not inverse and whose key may not be null is also
shown from the side of its elements, by a synthetic property (a backref) on their entity.
-/

namespace ObjectMapping

/-- The column of a collection's key where the mapping names none. -/
def defaultKeyColumn : String := "id"

/-- The column of a collection's elements where the mapping names none. -/
def defaultElementColumn : String := "elt"

/-- The column of a collection's index where the mapping names none. -/
def defaultIndexColumn : String := "idx"

/-- The column of a bag's row identifiers where the mapping names none. -/
def defaultBagIdColumn : String := "id"

/-! ## Targets -/

/-- A collection whose element is known to be held by an entity and its table. -/
def Collection.resolveTarget (r : Registry) (c : Collection) : Except MappingError Collection :=
  match c.element with
  | some (.oneToMany v) =>
    let target := v.referencedEntity.getD ""
    match (r.resolveEntityName? target).bind r.entity? with
    | some e =>
      .ok { c with
        element := some (.oneToMany
          { v with referencedEntity := some e.name, associatedTable := some e.table })
        table := some e.table }
    | none => .error (.unmappedElementClass target)
  | _ => .ok c

/-- Adds the check constraint of an element to a collection and its table. -/
def bindCollectionCheck (c : Collection) (node : Element) : Binding Collection :=
  match node.attribute? "check" with
  | some check => do
    Binding.changeTable c.table (·.addCheck check)
    return { c with check := some check }
  | none => return c

/-! ## Keys -/

/-- The value that a collection's key refers to: the owner's identifier, or the property that
the key names. -/
def Registry.keyTarget (r : Registry) (c : Collection) (owner : Owner) :
    Except MappingError Value :=
  match c.referencedProperty with
  | none =>
    match r.identifierValue? owner.name with
    | some v => .ok v
    | none => .error (.ownerWithoutIdentifier owner.name)
  | some property =>
    match r.referencedProperty? owner.name property with
    | some p => .ok p.value
    | none => .error (.keyPropertyNotFound property owner.name)

/-- Binds the key of a collection.  It may be null unless it says otherwise, or orphans are
deleted; the columns of a key that may not be null are made so in the table, too. -/
def bindCollectionKey (c : Collection) (owner : Owner) (node : Element) : Binding Value := do
  let wrapped ← Binding.ofExcept ((← get).keyTarget c owner)
  let base ← bindSimpleValue
    { table := c.table, nullable := c.isOneToMany, path := defaultKeyColumn } node
  let base := { base with cascadeDelete := node.attributeIs "on-delete" "cascade" }
  let nullable := ((node.attribute? "not-null").map (· == "false")).getD (!c.orphanDelete)
  let updatable := node.isNotDenied "update"
  if nullable then return .dependant base wrapped true updatable
  else
    Binding.changeTable c.table (·.requireColumns base.columnNames)
    return .dependant (base.withNullable false) wrapped false updatable

/-! ## Elements -/

/-- Binds a many-to-many element and what it says about the collection. -/
def bindManyToMany (scope : Scope) (c : Collection) (node : Element) : Binding Collection := do
  let v ← bindManyToOne scope
    { table := c.table, nullable := false, path := defaultElementColumn } node
  modify (·.referTo v.toOne)
  let filters ← (node.childrenNamed "filter").mapM bindFilterUse
  let restricted := !filters.isEmpty || node.hasAttribute "where"
  if restricted && c.fetch = .join && v.toOne.fetch ≠ .join then
    throw (.restrictedElementWithoutJoin c.role)
  return { c with
    element := some (.manyToOne v)
    manyToManyWhere := node.attribute? "where"
    manyToManyOrderBy := node.attribute? "order-by"
    manyToManyFilters := filters }

/-- Where a component that belongs to a collection is declared. -/
def contentsSite (c : Collection) (owner : Owner) (part : String) (nullable : Bool) :
    ComponentSite where
  owner
  table := c.table
  path := qualify c.role part
  nullable

/-- A collection whose element has a node name, if the element of the mapping gives one. -/
def Collection.nameElement (c : Collection) (node : Element) : Collection :=
  { c with elementNodeName := (node.attribute? "node").or c.elementNodeName }

/-- Binds a child of a collection that describes its contents. -/
def bindContent (scope : Scope) (owner : Owner) (c : Collection) (node : Element) :
    Binding Collection := do
  let site : ColumnSite := { table := c.table, nullable := true, path := defaultElementColumn }
  match node.tag? with
  | some .key => return { c with key := some (← bindCollectionKey c owner node) }
  | some .element =>
    let v ← bindSimpleValue site node
    return { c with element := some (.simple v) }.nameElement node
  | some .manyToMany => return (← bindManyToMany scope c node).nameElement node
  | some .compositeElement =>
    let v ← bindComponent scope (contentsSite c owner "element" true) node
    return { c with element := some (.component v) }.nameElement node
  | some .manyToAny =>
    let v ← bindAny scope site node
    return { c with element := some (.any v) }.nameElement node
  | some .cache => return { c with cache := some (← Binding.ofExcept node.cacheSettings) }
  | _ => return c

/-- Binds the children of a collection that describe its contents, in order. -/
def bindContentsOf (scope : Scope) (owner : Owner) (c : Collection) :
    List Element → Binding Collection
  | [] => return c
  | node :: rest => do bindContentsOf scope owner (← bindContent scope owner c node) rest

/-- Makes the foreign keys of a collection's key and element. -/
def Registry.constrainContents (r : Registry) (c : Collection) (owner : Owner) : Registry :=
  if c.referencedProperty.isSome then r
  else
    let r := match c.key with
      | some (.dependant base _ _ _) => r.constrainTo base owner.name
      | _ => r
    match c.element with
    | some v => r.constrainValue v
    | none => r

/-! ## Backrefs -/

/-- The backref that shows the given value of a collection from the side of its elements, and
the entity it belongs to, if there is to be one: elements must be entities that hold the key
themselves, and the key must be the collection's to write and not null. -/
def Collection.backref? (c : Collection) (node : Element) (kind : BackrefKind) :
    Option (String × Property) :=
  match c.element, c.key with
  | some (.oneToMany target), some key =>
    if c.inverse || key.isNullable then none
    else
      let name := (node.attribute? "name").getD c.propertyName
      let shown := match kind with
        | .collection => some ("_" ++ name ++ "Backref", "backref", key)
        | .index => c.index.map fun index => ("_" ++ name ++ "IndexBackref", "index-backref", index)
      shown.map fun (propertyName, access, value) =>
        (target.referencedEntity.getD "", {
          name := propertyName
          value
          access
          updatable := false
          selectable := false
          backref := some { kind, collectionRole := c.role, entityName := c.ownerEntity } })
  | _, _ => none

/-- Adds a backref to the entity of a collection's elements, if there is to be one. -/
def addBackref (node : Element) (c : Collection) (kind : BackrefKind) : Binding Unit := do
  match c.backref? node kind with
  | none => pure ()
  | some (target, property) =>
    if (← get).hasEntity target then modify (·.modifyEntity target (·.addProperty property))
    else throw (.unmappedElementClass target)

/-- Adds the backref that shows a collection's index; an index with a formula is not shown. -/
def addIndexBackref (node : Element) (c : Collection) : Binding Unit :=
  if c.index.any Value.hasFormula then pure () else addBackref node c .index

/-! ## Passes -/

/-- Binds the key and element of a registered collection. -/
def bindContents (pass : CollectionPass) : Binding Collection := do
  let c ← Binding.require (.unknownRole pass.role) ((← get).collection? pass.role)
  let owner ← Owner.find c.ownerEntity
  let c ← Binding.ofExcept (c.resolveTarget (← get))
  let c ← bindCollectionCheck c pass.node
  let c ← bindContentsOf pass.scope owner c pass.node.children
  modify (·.constrainContents c owner)
  addBackref pass.node c .collection
  return c

/-- Replaces a registered collection. -/
def storeCollection (c : Collection) : Binding Unit := do
  if (← get).collections.contains c.role then modify (·.modifyCollection c.role fun _ => c)
  else throw (.unknownRole c.role)

/-- Binds the row identifier of a bag. -/
def bindBagIdentifier (pass : CollectionPass) (c : Collection) : Binding Collection := do
  let node ← Binding.require (.identifierBagWithoutIdentifier pass.role)
    (pass.node.child? "collection-id")
  let v ← bindSimpleValue
    { table := c.table, nullable := false, path := defaultBagIdColumn } node
  let v ← Binding.ofExcept (v.asIdentifier pass.scope node)
  return { c with identifier := some (.simple v) }

/-- Binds the position of a list or array, which is an integer. -/
def bindListIndex (pass : CollectionPass) (c : Collection) : Binding Collection := do
  let node ← Binding.require (.collectionWithoutIndex pass.node.name pass.role)
    ((pass.node.child? "list-index").or (pass.node.child? "index"))
  let v ← bindSimpleValue
    { table := c.table, nullable := c.isOneToMany, path := defaultIndexColumn } node
  let base ← Binding.ofExcept (node.signed "base")
  let c := { c with
    index := some (.simple { v with typeName := some "integer" })
    baseIndex := base.getD 0
    indexNodeName := node.attribute? "node" }
  addIndexBackref pass.node c
  return c

/-- Binds a child of a map that describes its keys. -/
def bindMapKey (scope : Scope) (c : Collection) (node : Element) : Binding Collection := do
  let nullable := c.isOneToMany
  let site : ColumnSite := { table := c.table, nullable, path := defaultIndexColumn }
  match node.tag? with
  | some .index =>
    let v ← bindSimpleValue site node
    if v.typeName.isNone then throw (.untypedMapIndex c.role)
    return { c with index := some (.simple v), indexNodeName := node.attribute? "node" }
  | some .indexManyToMany =>
    let v ← bindManyToOne scope site node
    modify (·.referTo v.toOne)
    modify (·.queuePropertyRef v)
    modify (·.constrainValue (.manyToOne v))
    return { c with index := some (.manyToOne v) }
  | some .compositeIndex =>
    let owner ← Owner.find c.ownerEntity
    let v ← bindComponent scope (contentsSite c owner "index" nullable) node
    return { c with index := some (.component v) }
  | some .indexManyToAny => return { c with index := some (.any (← bindAny scope site node)) }
  | _ => return c

/-- Binds the children of a map that describe its keys; the last one counts. -/
def bindMapKeys (scope : Scope) (c : Collection) : List Element → Binding Collection
  | [] => return c
  | node :: rest => do bindMapKeys scope (← bindMapKey scope c node) rest

/-- Binds the keys of a map, which must have some. -/
def bindMapIndex (pass : CollectionPass) (c : Collection) : Binding Collection := do
  let c ← bindMapKeys pass.scope c pass.node.children
  if c.index.isNone then throw (.collectionWithoutIndex "map" pass.role)
  addIndexBackref pass.node c
  return c

/-- Binds what a collection of a kind has besides its key and element. -/
def bindIndexing : PassKind → CollectionPass → Collection → Binding Collection
  | .plain, _, c => pure c
  | .identifierBag, pass, c => bindBagIdentifier pass c
  | .list, pass, c => bindListIndex pass c
  | .map, pass, c => bindMapIndex pass c

/-- Binds all contents of a registered collection. -/
def bindCollectionPass (kind : PassKind) (pass : CollectionPass) : Binding Unit := do
  let c ← bindContents pass
  storeCollection (← bindIndexing kind pass c)

/-- Runs a deferred pass. -/
def DeferredPass.run : DeferredPass → Binding Unit
  | contents kind pass => bindCollectionPass kind pass
  | propertyRef pass => bindPropertyRef pass

end ObjectMapping
