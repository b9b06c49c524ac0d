import ObjectMapping.Binding.Contents
import ObjectMapping.Binding.Document
import ObjectMapping.Proofs.Acceptance
import ObjectMapping.Proofs.Extension
import ObjectMapping.Proofs.Run

/-!
# Steady computations

A steady write is a single write to tables, imports, queries or defaults that makes no foreign key
and records no reference to a property; a table that is written to is extended.  Columns, simple
values, associations, headers and queries are bound by computations that make steady writes only:
what an association refers to is recorded, and constrained by a foreign key, after its value is
bound.  Type aliases and filter definitions are apart, since they alone are ever replaced; they are
written where a document defines them and nowhere else.
-/

namespace ObjectMapping

/-! ## Foreign keys of a table -/

/-- The indexes and unique keys that an element names for a column are no foreign keys. -/
theorem Table.foreignKeys_constrain (t : Table) (column : String) (source : Element) :
    (t.constrain column source).foreignKeys = t.foreignKeys := by
  have hindexes : ∀ (names : List String) (t : Table),
      (names.foldl (fun t name => t.addToIndex name column) t).foreignKeys = t.foreignKeys := by
    intro names
    induction names with
    | nil => exact fun _ => rfl
    | cons name names ih => exact fun t => ih _
  have hkeys : ∀ (names : List String) (t : Table),
      (names.foldl (fun t name => t.addToUniqueKey name [column]) t).foreignKeys
        = t.foreignKeys := by
    intro names
    induction names with
    | nil => exact fun _ => rfl
    | cons name names ih => exact fun t => ih _
  unfold constrain
  rw [hkeys, hindexes]

/-- A column that is registered on a table makes no foreign key. -/
theorem Table.foreignKeys_addColumn (t : Table) (c : Column) (sources : List Element) :
    (sources.foldl (fun t source => t.constrain c.name source) (t.addColumn c)).foreignKeys
      = t.foreignKeys := by
  generalize ht' : t.addColumn c = t'
  have hadded : t'.foreignKeys = t.foreignKeys := by
    rw [← ht']
    rfl
  clear ht'
  induction sources generalizing t' with
  | nil => exact hadded
  | cons source sources ih => exact ih _ ((t'.foreignKeys_constrain _ _).trans hadded)

namespace Registry

/-! ## Steady writes -/

/-- One write that leaves the entities, the collections, the deferred work, the waiting documents,
the definitions, the references and the foreign keys alone. -/
inductive SteadyWrite : Registry → Registry → Prop
  | table (r : Registry) (id : TableId) {f : Table → Table}
      (h : ∀ t, (f t).foreignKeys = t.foreignKeys) (hgrows : ∀ t : Table, t.Grows (f t)) :
      SteadyWrite r (r.modifyTable id f)
  | addTable (r : Registry) (q : TableRequest) : SteadyWrite r (r.addTable q).1
  | tableBinding (r : Registry) (logical : TableKey) (physical : String) :
      SteadyWrite r (r.addTableBinding logical physical)
  /-- An import is registered, which may replace another one only where conflicts are accepted. -/
  | addImport {r r' : Registry} {refuse : Bool} {target shortName : String}
      (h : r.addImportUnless refuse target shortName = .ok r')
      (hrefuse : r.options.rejectConflictingImports = true → refuse = true) : SteadyWrite r r'
  | auxiliaryObject (r : Registry) (o : AuxiliaryObject) : SteadyWrite r (r.addAuxiliaryObject o)
  | addQuery {r r' : Registry} {q : NamedQuery} (h : r.addQuery q = .ok r') : SteadyWrite r r'
  | addSqlQuery {r r' : Registry} {q : NamedSqlQuery} (h : r.addSqlQuery q = .ok r') :
      SteadyWrite r r'
  | addResultSet {r r' : Registry} {s : ResultSet} (h : r.addResultSet s = .ok r') :
      SteadyWrite r r'
  | defaults (r : Registry) (d : DocumentDefaults) : SteadyWrite r { r with defaults := d }

/-- A steady write changes neither the options nor the references to properties. -/
theorem SteadyWrite.frame {r r' : Registry} (h : SteadyWrite r r') :
    r'.options = r.options ∧ r'.propertyReferences = r.propertyReferences := by
  cases h with
  | table | tableBinding | auxiliaryObject | defaults => exact ⟨rfl, rfl⟩
  | addTable q =>
    rcases r.addTable_cases q with h | ⟨id, h⟩ | h <;> rw [h] <;> exact ⟨rfl, rfl⟩
  | addImport h =>
    obtain ⟨-, rfl⟩ | ⟨-, rfl⟩ := addImportUnless_eq_ok.mp h <;> exact ⟨rfl, rfl⟩
  | addQuery h =>
    obtain ⟨-, rfl⟩ := addQuery_eq_ok.mp h
    exact ⟨rfl, rfl⟩
  | addSqlQuery h =>
    obtain ⟨-, rfl⟩ := addSqlQuery_eq_ok.mp h
    exact ⟨rfl, rfl⟩
  | addResultSet h =>
    obtain ⟨-, rfl⟩ := addResultSet_eq_ok.mp h
    exact ⟨rfl, rfl⟩

end Registry

namespace Binding

open Registry

variable {α : Type}

/-- Every run makes steady writes only, whether it ends well or in an error. -/
def Steady (m : Binding α) : Prop := Makes SteadyWrite m

end Binding

open Binding Registry

/-! ## Columns and simple values -/

/-- Extending a table by anything but foreign keys is a steady write. -/
theorem steady_changeTable (id : Option TableId) {f : Table → Table}
    (h : ∀ t, (f t).foreignKeys = t.foreignKeys) (hgrows : ∀ t : Table, t.Grows (f t)) :
    Steady (changeTable id f) := by
  cases id with
  | none => exact .pure _
  | some id => exact .modify fun r => .single (.table r id h hgrows)

/-- A column is registered in its table and nowhere else. -/
theorem steady_registerColumn (table : Option TableId) (c : Column) (sources : List Element) :
    Steady (registerColumn table c sources) := by
  unfold registerColumn
  exact .bind (steady_changeTable _ (fun t => t.foreignKeys_addColumn c sources)
    fun t => .registerColumn t c sources) fun _ => .pure _

/-- By induction on the children; each column is registered before those after it. -/
theorem steady_bindNestedColumns (site : ColumnSite) (owner : Element) (position : Nat)
    (children : List Element) : Steady (bindNestedColumns site owner position children) := by
  induction children generalizing position with
  | nil => exact .pure _
  | cons child rest ih =>
    rw [bindNestedColumns]
    refine .ite ?_ (.ite ?_ (ih _))
    · exact .bind (.require _ _) fun _ => .bind .get fun _ => .bind (.ofExcept _) fun _ =>
        .bind (steady_registerColumn _ _ _) fun _ => .bind (ih _) fun _ => .pure _
    · exact .bind (ih _) fun _ => .pure _

/-- Binding the column that an element names itself. -/
theorem steady_bindOwnColumn (site : ColumnSite) (node : Element) (name : String) :
    Steady (bindOwnColumn site node name) := by
  unfold bindOwnColumn
  exact .bind (.ofExcept _) fun _ => .bind (steady_registerColumn _ _ _) fun _ => .pure _

/-- Binding the columns of an element, which are its own or nested in it. -/
theorem steady_bindNamedColumns (site : ColumnSite) (node : Element) :
    Steady (bindNamedColumns site node) := by
  unfold bindNamedColumns
  split
  · exact .ite (.throw_bind _ _) (.ite (.throw_bind _ _)
      (.bind .get fun _ => steady_bindOwnColumn _ _ _))
  · exact steady_bindNestedColumns _ _ _ _

/-- Binding the columns of an element, one of them implied if it has none. -/
theorem steady_bindColumns (site : ColumnSite) (node : Element) :
    Steady (bindColumns site node) := by
  unfold bindColumns
  exact .bind (steady_bindNamedColumns _ _) fun _ =>
    .ite (.bind .get fun _ => steady_bindOwnColumn _ _ _) (.pure _)

/-- Columns are written to tables, and formulas nowhere. -/
theorem steady_bindColumnsOrFormula (site : ColumnSite) (node : Element) :
    Steady (bindColumnsOrFormula site node) := by
  unfold bindColumnsOrFormula
  split
  · exact .pure _
  · exact steady_bindColumns _ _

/-- Binding a simple value is steady. -/
theorem steady_bindSimpleValue (site : ColumnSite) (node : Element) :
    Steady (bindSimpleValue site node) := by
  unfold bindSimpleValue
  exact .bind .get fun _ => .bind (steady_bindColumnsOrFormula _ _) fun _ => .pure _

/-! ## Associations -/

/-- A check writes nothing. -/
theorem steady_checkCascade (node : Element) (path : String) :
    Steady (checkCascade node path) := by
  unfold checkCascade
  exact .ite (.throw _) (.pure _)

/-- Binding a many-to-one association is steady: its target is not recorded yet. -/
theorem steady_bindManyToOne (scope : Scope) (site : ColumnSite) (node : Element) :
    Steady (bindManyToOne scope site node) := by
  unfold bindManyToOne
  exact .bind (steady_bindColumnsOrFormula _ _) fun _ =>
    .bind (steady_checkCascade _ _) fun _ => .pure _

/-- Binding a one-to-one association is steady. -/
theorem steady_bindOneToOne (scope : Scope) (site : ColumnSite) (owner : String)
    (node : Element) : Steady (bindOneToOne scope site owner node) := by
  unfold bindOneToOne
  exact .bind (steady_bindNamedColumns _ _) fun _ =>
    .bind (steady_checkCascade _ _) fun _ => .pure _

/-- Binding a value of any class is steady. -/
theorem steady_bindAny (scope : Scope) (site : ColumnSite) (node : Element) :
    Steady (bindAny scope site node) := by
  unfold bindAny
  exact .bind .get fun _ => .bind (steady_bindNamedColumns _ _) fun _ => .pure _

/-- Binding a member that every kind of body has in common is steady. -/
theorem steady_bindSimpleMember (scope : Scope) (site : ColumnSite) (node : Element) (tag : Tag) :
    Steady (bindSimpleMember scope site node tag) := by
  unfold bindSimpleMember
  split
  · exact .bind (steady_bindManyToOne _ _ _) fun _ => .pure _
  · exact .bind (steady_bindAny _ _ _) fun _ => .pure _
  · exact .bind (steady_bindSimpleValue _ _) fun _ => .pure _
  · exact .pure _

/-! ## Tables and filters -/

/-- The use of a filter is read. -/
theorem steady_bindFilterUse (node : Element) : Steady (bindFilterUse node) := by
  unfold bindFilterUse
  exact .bind .get fun _ => .ofExcept _

/-- A comment is written to its table. -/
theorem steady_commentTable (id : TableId) (node : Element) : Steady (commentTable id node) := by
  unfold commentTable
  split
  · exact .modify fun r =>
      .single (.table r _ (fun _ => rfl) fun t => .setComment t _)
  · exact .pure _

/-- A table that is opened is there already or is appended. -/
theorem steady_openTable (q : TableRequest) : Steady (openTable q) :=
  fun r => .single (.addTable r q)

/-- So it is with that of a collection. -/
theorem steady_openCollectionTable (scope : Scope) (node : Element) (role : String)
    (owner : Owner) : Steady (openCollectionTable scope node role owner) := by
  unfold openCollectionTable
  exact .bind .get fun _ => .bind (steady_openTable _) fun _ =>
    .bind (steady_commentTable _ _) fun _ => .pure _

/-- The element of a collection opens a table at most. -/
theorem steady_openElement (scope : Scope) (node : Element) (role : String) (owner : Owner) :
    Steady (openElement scope node role owner) := by
  unfold openElement
  split
  · exact .pure _
  · exact .bind (steady_openCollectionTable _ _ _ _) fun _ => .pure _

/-! ## Identifiers, versions and discriminators -/

/-- Changing the data of a root that is not registered yet writes nothing. -/
theorem steady_changeRoot (e : Entity) (f : RootData → RootData) : Steady (changeRoot e f) := by
  unfold changeRoot
  exact .ite (.pure _) (.throw _)

/-- Binding a simple identifier is steady. -/
theorem steady_bindSimpleId (scope : Scope) (e : Entity) (node : Element) :
    Steady (bindSimpleId scope e node) := by
  unfold bindSimpleId
  refine .bind (steady_bindSimpleValue _ _) fun v => .bind .get fun r => ?_
  refine .ite (.throw_bind _ _) (.bind (.ofExcept _) fun v => ?_)
  split
  · exact .bind (.map (.ofExcept _)) fun _ => steady_changeRoot _ _
  · exact .bind (.pure _) fun _ => steady_changeRoot _ _

/-- Binding a version is steady. -/
theorem steady_bindVersion (scope : Scope) (e : Entity) (node : Element) :
    Steady (bindVersion scope e node) := by
  unfold bindVersion
  refine .bind (.ofExcept _) fun name => .bind (steady_bindSimpleValue _ _) fun v =>
    .bind (.ofExcept _) fun property => ?_
  exact .ite (.throw_bind _ _) (.bind (steady_changeRoot _ _) fun _ => .pure _)

/-- Binding a discriminator is steady. -/
theorem steady_bindDiscriminator (e : Entity) (node : Element) :
    Steady (bindDiscriminator e node) := by
  unfold bindDiscriminator
  exact .bind (steady_bindSimpleValue _ _) fun _ => steady_changeRoot _ _

/-- The cache is written to the entity in hand. -/
theorem steady_bindCache (e : Entity) (node : Element) : Steady (bindCache e node) := by
  unfold bindCache
  exact .bind (.ofExcept _) fun _ => .pure _

/-! ## Headers -/

/-- The logical name of a table is recorded. -/
theorem steady_requestTable (scope : Scope) (node : Element) (entity : String)
    (isAbstract : Bool) : Steady (requestTable scope node entity isAbstract) := by
  unfold requestTable
  refine .bind .get fun r => ?_
  dsimp only
  exact .bind (.modify fun r => .single (.tableBinding r _ _)) fun _ => .pure _

/-- An entity implies imports of its name. -/
theorem steady_importEntity (scope : Scope) (name : String) :
    Steady (importEntity scope name) := by
  unfold importEntity
  refine .bind (.register fun _ _ h => .addImport h fun _ => rfl) fun _ => ?_
  exact .ite (.register fun _ _ h => .addImport h id) (.pure _)

/-- Binding a header is steady: it does not register the entity. -/
theorem steady_bindHeader (scope : Scope) (node : Element) (name : String) (kind : EntityKind)
    (table : TableId) : Steady (bindHeader scope node name kind table) := by
  unfold bindHeader
  exact .bind (steady_importEntity _ _) fun _ => .bind (.ofExcept _) fun _ =>
    .bind (.ofExcept _) fun _ => .pure _

/-- A check constraint is written to its table. -/
theorem steady_checkTable (table : TableId) (node : Element) : Steady (checkTable table node) := by
  unfold checkTable
  split
  · exact steady_changeTable _ (fun _ => rfl) fun t => .addCheck t _
  · exact .pure _

/-- The table of a superclass is looked up. -/
theorem steady_superclassTable (superclass : String) : Steady (superclassTable superclass) := by
  unfold superclassTable
  exact .bind .get fun _ => .require _ _

/-- So is an owner. -/
theorem steady_find (name : String) : Steady (Owner.find name) := by
  unfold Owner.find
  exact .bind .get fun _ => .require _ _

/-! ## The rest of a document -/

/-- Binding a named query is steady. -/
theorem steady_bindNamedQuery (owner : Option String) (node : Element) :
    Steady (bindNamedQuery owner node) := by
  unfold bindNamedQuery
  exact .bind (.ofExcept _) fun _ => .bind (.ofExcept _) fun _ =>
    .register fun _ _ h => .addQuery h

/-- A native query is registered beside entities. -/
theorem steady_bindNamedSqlQuery (scope : Scope) (owner : Option String) (node : Element) :
    Steady (bindNamedSqlQuery scope owner node) := by
  unfold bindNamedSqlQuery
  exact .bind (.ofExcept _) fun _ => .bind (.ofExcept _) fun _ => .bind (.ofExcept _) fun _ =>
    .register fun _ _ h => .addSqlQuery h

/-- So is the description of a result. -/
theorem steady_bindResultSet (scope : Scope) (owner : Option String) (node : Element) :
    Steady (bindResultSet scope owner node) := by
  unfold bindResultSet
  exact .bind (.ofExcept _) fun _ => .bind (.ofExcept _) fun _ =>
    .register fun _ _ h => .addResultSet h

/-- Binding an import is steady. -/
theorem steady_bindImport (scope : Scope) (node : Element) : Steady (bindImport scope node) := by
  unfold bindImport
  exact .bind (.require _ _) fun _ => .register fun _ _ h => .addImport h fun _ => rfl

/-- Looking up the superclass of an element writes nothing. -/
theorem steady_superclassOf (scope : Scope) (node : Element) :
    Steady (superclassOf scope node) := by
  unfold superclassOf
  exact .bind (.require _ _) fun _ => .bind .get fun _ => .ite (.pure _) (.throw _)

/-! ## Deferred passes -/

/-- The check constraint of a collection is written to its table. -/
theorem steady_bindCollectionCheck (c : Collection) (node : Element) :
    Steady (bindCollectionCheck c node) := by
  unfold bindCollectionCheck
  split
  · exact .bind (steady_changeTable _ (fun _ => rfl) fun t => .addCheck t _) fun _ => .pure _
  · exact .pure _

/-- Binding the key of a collection is steady: its foreign key is made later. -/
theorem steady_bindCollectionKey (c : Collection) (owner : Owner) (node : Element) :
    Steady (bindCollectionKey c owner node) := by
  unfold bindCollectionKey
  refine .bind .get fun _ => .bind (.ofExcept _) fun _ =>
    .bind (steady_bindSimpleValue _ _) fun _ => ?_
  exact .ite (.pure _)
    (.bind (steady_changeTable _ (fun _ => rfl) fun t => .requireColumns t _) fun _ => .pure _)

/-- The identifier of the rows of a bag is written to its table, and to the collection in hand. -/
theorem steady_bindBagIdentifier (pass : CollectionPass) (c : Collection) :
    Steady (bindBagIdentifier pass c) := by
  unfold bindBagIdentifier
  exact .bind (.require _ _) fun _ => .bind (steady_bindSimpleValue _ _) fun _ =>
    .bind (.ofExcept _) fun _ => .pure _

/-! ## Definitions -/

/-- One type alias or filter definition that is written. -/
inductive Registry.DefinitionWrite : Registry → Registry → Prop
  | typeDefinition (r : Registry) (d : TypeDefinition) : DefinitionWrite r (r.addTypeDefinition d)
  | filterDefinition (r : Registry) (d : FilterDefinition) :
      DefinitionWrite r (r.addFilterDefinition d)

/-- Every run writes definitions only, whether it ends well or in an error. -/
def Binding.Defines {α : Type} (m : Binding α) : Prop := Makes DefinitionWrite m

/-- A definition of a filter is the one thing that its element writes. -/
theorem defines_bindFilterDefinition (node : Element) : Defines (bindFilterDefinition node) := by
  unfold bindFilterDefinition
  exact .bind (.require _ _) fun _ => .modify fun r => .single (.filterDefinition r _)

/-- So is a definition of a type. -/
theorem defines_bindTypeDefinition (node : Element) : Defines (bindTypeDefinition node) := by
  unfold bindTypeDefinition
  exact .bind (.require _ _) fun _ => .bind (.require _ _) fun _ =>
    .modify fun r => .single (.typeDefinition r _)

end ObjectMapping
