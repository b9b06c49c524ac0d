import ObjectMapping.Document.Defaults
import ObjectMapping.Mapping.Collection
import ObjectMapping.Mapping.Definition
import ObjectMapping.Naming
import ObjectMapping.Query.Basic
import ObjectMapping.Reflection
import ObjectMapping.Registry.Pass

/-!
# The registry

The registry holds everything bound so far, by name and in the order of registration, along
with the work that is still waiting.  Tables are addressed by their position, which never
changes.
-/

namespace ObjectMapping

/-- The choices that hold for a whole build. -/
structure RegistryOptions where
  naming : NamingStrategy := .plain
  reflection : Reflection := {}
  /-- Whether an implied import that conflicts with an earlier one is an error. -/
  rejectConflictingImports : Bool := true
deriving Inhabited

/-- A property that is referred to in place of an identifier. -/
structure PropertyReference where
  entity : String
  property : String
  /-- Whether the property becomes an alternate key. -/
  unique : Bool := false
deriving DecidableEq, Inhabited

/-- A document that waits for superclasses. -/
structure PendingDocument where
  document : Document
  metas : MetaMap
  missing : List String
deriving Inhabited

/-- Everything bound so far, and the work that is waiting. -/
structure Registry where
  options : RegistryOptions := {}
  entities : KeyedList String Entity := .empty
  tables : KeyedList TableKey Table := .empty
  /-- The physical names that logical table names were resolved to. -/
  tableBindings : KeyedList TableKey String := .empty
  collections : KeyedList String Collection := .empty
  imports : KeyedList String String := .empty
  typeDefinitions : KeyedList String TypeDefinition := .empty
  filterDefinitions : KeyedList String FilterDefinition := .empty
  queries : KeyedList String NamedQuery := .empty
  sqlQueries : KeyedList String NamedSqlQuery := .empty
  resultSets : KeyedList String ResultSet := .empty
  auxiliaryObjects : List AuxiliaryObject := []
  propertyReferences : List PropertyReference := []
  /-- The deferred passes, oldest first. -/
  passes : List DeferredPass := []
  /-- The documents that wait for superclasses, oldest first. -/
  waiting : List PendingDocument := []
  /-- The defaults of the document bound last. -/
  defaults : DocumentDefaults := {}
deriving Inhabited

namespace Registry

/-- The naming strategy. -/
def naming (r : Registry) : NamingStrategy := r.options.naming

/-! ## Entities -/

/-- The entity of a name. -/
def entity? (r : Registry) (name : String) : Option Entity := r.entities.get? name

/-- Whether an entity is registered. -/
def hasEntity (r : Registry) (name : String) : Bool := r.entities.contains name

/-- Registers an entity under its name. -/
def addEntity (r : Registry) (e : Entity) : Except MappingError Registry :=
  if r.hasEntity e.name then .error (.duplicateEntity e.name)
  else .ok { r with entities := r.entities.insert e.name e }

/-- Changes the entity of a name, if there is one. -/
def modifyEntity (r : Registry) (name : String) (f : Entity → Entity) : Registry :=
  { r with entities := r.entities.modify name f }

/-! ## Tables -/

/-- The table at a position. -/
def table? (r : Registry) (id : TableId) : Option Table := r.tables.getIdx? id.index

/-- The position of a table. -/
def findTable? (r : Registry) (key : TableKey) : Option TableId :=
  (r.tables.indexOf? key).map TableId.mk

/-- Changes the table at a position, if there is one. -/
def modifyTable (r : Registry) (id : TableId) (f : Table → Table) : Registry :=
  { r with tables := r.tables.modifyIdx id.index f }

/-- The name of the table at a position, empty if there is none. -/
def tableName (r : Registry) (id : TableId) : String := ((r.table? id).map Table.name).getD ""

/-- What a mapping says of a table: its qualified name, or the query that stands for it. -/
structure TableRequest where
  schema : Option String := none
  catalog : Option String := none
  name : String
  subselect : Option String := none
  isAbstract : Bool := false
deriving DecidableEq, Inhabited

/-- The key of a requested table; a query is its own name. -/
def TableRequest.key (q : TableRequest) : TableKey :=
  match q.subselect with
  | some sql => ⟨none, none, sql⟩
  | none => ⟨q.schema, q.catalog, q.name⟩

/-- Appends a table that is not registered. -/
private def appendTable (r : Registry) (t : Table) : Registry × TableId :=
  ({ r with tables := r.tables.insertIfNew t.key t }, ⟨r.tables.size⟩)

/-- The table of a request, created if need be.  A table stays abstract only as long as every
request for it is. -/
def addTable (r : Registry) (q : TableRequest) : Registry × TableId :=
  match r.findTable? q.key with
  | some id => (if q.isAbstract then r else r.modifyTable id ({ · with isAbstract := false }), id)
  | none => r.appendTable { key := q.key, subselect := q.subselect, isAbstract := q.isAbstract }

/-- A new table that repeats the columns of another. -/
def addDenormalizedTable (r : Registry) (q : TableRequest) (parent : TableId) :
    Except MappingError (Registry × TableId) :=
  match r.findTable? q.key with
  | some _ => .error (.duplicateTable q.name)
  | none => .ok <| r.appendTable
      { key := q.key, subselect := q.subselect, isAbstract := q.isAbstract,
        denormalizedParent := some parent }

/-- The columns of the table at a position, after those of the tables it repeats; the count
bounds the number of tables visited. -/
def columnsWithin (r : Registry) : Nat → TableId → List Column
  | 0, _ => []
  | bound + 1, id =>
    match r.table? id with
    | none => []
    | some t =>
      (match t.denormalizedParent with
        | some parent => if parent = id then [] else r.columnsWithin bound parent
        | none => []) ++ t.columns.values

/-- The columns of the table at a position, after those of the tables it repeats. -/
def allColumns (r : Registry) (id : TableId) : List Column := r.columnsWithin r.tables.size id

/-- Records the physical name that a logical table name was resolved to. -/
def addTableBinding (r : Registry) (logical : TableKey) (physical : String) : Registry :=
  { r with tableBindings := r.tableBindings.insert logical physical }

/-- The physical name of a logical table name. -/
def physicalTableName? (r : Registry) (logical : TableKey) : Option String :=
  r.tableBindings.get? logical

/-! ## Definitions -/

/-- Registers a type alias; a later one of a name replaces an earlier one. -/
def addTypeDefinition (r : Registry) (d : TypeDefinition) : Registry :=
  { r with typeDefinitions := r.typeDefinitions.insert d.name d }

/-- The type alias of a name. -/
def typeDefinition? (r : Registry) (name : String) : Option TypeDefinition :=
  r.typeDefinitions.get? name

/-- Registers a filter definition; a later one of a name replaces an earlier one. -/
def addFilterDefinition (r : Registry) (d : FilterDefinition) : Registry :=
  { r with filterDefinitions := r.filterDefinitions.insert d.name d }

/-- The filter definition of a name. -/
def filterDefinition? (r : Registry) (name : String) : Option FilterDefinition :=
  r.filterDefinitions.get? name

/-- Registers an extra object of the database. -/
def addAuxiliaryObject (r : Registry) (o : AuxiliaryObject) : Registry :=
  { r with auxiliaryObjects := r.auxiliaryObjects ++ [o] }

/-! ## Queries -/

/-- Whether either kind of query has a name. -/
def hasQuery (r : Registry) (name : String) : Bool :=
  r.queries.contains name || r.sqlQueries.contains name

/-- Registers a query over entities. -/
def addQuery (r : Registry) (q : NamedQuery) : Except MappingError Registry :=
  if r.hasQuery q.name then .error (.duplicateQuery q.name)
  else .ok { r with queries := r.queries.insert q.name q }

/-- Registers a native query. -/
def addSqlQuery (r : Registry) (q : NamedSqlQuery) : Except MappingError Registry :=
  if r.hasQuery q.name then .error (.duplicateQuery q.name)
  else .ok { r with sqlQueries := r.sqlQueries.insert q.name q }

/-- Registers the description of a result. -/
def addResultSet (r : Registry) (s : ResultSet) : Except MappingError Registry :=
  if r.resultSets.contains s.name then .error (.duplicateResultSet s.name)
  else .ok { r with resultSets := r.resultSets.insert s.name s }

/-! ## Imports -/

/-- The target of an import. -/
def import? (r : Registry) (shortName : String) : Option String := r.imports.get? shortName

/-- Registers an import.  The same target again changes nothing; another target replaces the
first, or is refused. -/
def addImportUnless (r : Registry) (refuse : Bool) (target shortName : String) :
    Except MappingError Registry :=
  match r.import? shortName with
  | some existing =>
    if existing = target then .ok r
    else if refuse then .error (.conflictingImport shortName target existing)
    else .ok { r with imports := r.imports.insert shortName target }
  | none => .ok { r with imports := r.imports.insert shortName target }

/-- Registers an explicit import. -/
def addImport (r : Registry) (target shortName : String) : Except MappingError Registry :=
  r.addImportUnless true target shortName

/-- Registers an import that an entity's name implies. -/
def addAutoImport (r : Registry) (target shortName : String) : Except MappingError Registry :=
  r.addImportUnless r.options.rejectConflictingImports target shortName

/-- The registered entity that a name means, directly or through an import. -/
def resolveEntityName? (r : Registry) (name : String) : Option String :=
  if r.hasEntity name then some name
  else (r.import? name).filter r.hasEntity

/-! ## Collections -/

/-- The collection of a role. -/
def collection? (r : Registry) (role : String) : Option Collection := r.collections.get? role

/-- Registers a collection under its role. -/
def addCollection (r : Registry) (c : Collection) : Except MappingError Registry :=
  if r.collections.contains c.role then .error (.duplicateCollection c.role)
  else .ok { r with collections := r.collections.insert c.role c }

/-- Changes the collection of a role, if there is one. -/
def modifyCollection (r : Registry) (role : String) (f : Collection → Collection) : Registry :=
  { r with collections := r.collections.modify role f }

/-! ## Deferred work -/

/-- Records a reference to a property. -/
def addPropertyReference (r : Registry) (ref : PropertyReference) : Registry :=
  { r with propertyReferences := r.propertyReferences ++ [ref] }

/-- Queues a pass. -/
def addPass (r : Registry) (pass : DeferredPass) : Registry :=
  { r with passes := r.passes ++ [pass] }

/-- Takes the oldest pass off the queue. -/
def nextPass? (r : Registry) : Option (DeferredPass × Registry) :=
  match r.passes with
  | [] => none
  | pass :: passes => some (pass, { r with passes })

/-- The pass that is taken off the queue is the oldest, and the others stay queued. -/
theorem nextPass?_eq_some_iff {r rest : Registry} {pass : DeferredPass} :
    r.nextPass? = some (pass, rest) ↔
      ∃ passes, r.passes = pass :: passes ∧ rest = { r with passes } := by
  constructor
  · intro h
    unfold nextPass? at h
    split at h
    · cases h
    · next passes hpasses =>
      cases h
      exact ⟨passes, hpasses, rfl⟩
  · rintro ⟨passes, hpasses, rfl⟩
    simp only [nextPass?, hpasses]

/-- No pass is taken off an empty queue only. -/
theorem nextPass?_eq_none_iff {r : Registry} : r.nextPass? = none ↔ r.passes = [] := by
  cases hpasses : r.passes <;> simp [nextPass?, hpasses]

/-- Queues a document that waits for superclasses. -/
def enqueue (r : Registry) (pending : PendingDocument) : Registry :=
  { r with waiting := r.waiting ++ [pending] }

/-- Whether every superclass that a document waits for is registered. -/
def isReady (r : Registry) (pending : PendingDocument) : Bool :=
  pending.missing.all r.hasEntity

/-- Takes the documents off the queue whose superclasses are all registered. -/
def takeReady (r : Registry) : List PendingDocument × Registry :=
  (r.waiting.filter r.isReady, { r with waiting := r.waiting.filter (!r.isReady ·) })

end Registry

/-- A sorted list without repetitions. -/
def sortedNames (names : List String) : List String :=
  (SortedMap.ofList (names.map fun name => (name, ()))).keys

/-- The superclasses that documents still wait for, each once and in order. -/
def Registry.awaitedNames (r : Registry) : List String :=
  sortedNames ((r.waiting.flatMap PendingDocument.missing).filter (!r.hasEntity ·))

end ObjectMapping
