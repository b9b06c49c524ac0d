import ObjectMapping.Document.Defaults
import ObjectMapping.Document.Meta
import ObjectMapping.Error
import ObjectMapping.Mapping.Entity
import ObjectMapping.Text.Integer

/-!
# Scopes and attributes

What an element means depends on the elements around it: the document's defaults, and the
meta attributes handed down.  Both are its `Scope`.  The rest of this module reads single
attributes and the small children that several kinds of element share.
-/

namespace ObjectMapping

/-- What an element inherits from those around it. -/
structure Scope where
  defaults : DocumentDefaults
  metas : MetaMap
deriving Inhabited

namespace Scope

/-- The scope of the children of an element: its inheritable metas are merged in. -/
def descend (s : Scope) (node : Element) : Scope :=
  { s with metas := mergeMetas node s.metas true }

/-- A class name, below the document's package. -/
def qualifyClass (s : Scope) (name : String) : String := s.defaults.qualifyClass name

/-- The schema of an element, or else the document's. -/
def schemaOf (s : Scope) (node : Element) : Option String :=
  (node.attribute? "schema").or s.defaults.schema

/-- The catalog of an element, or else the document's. -/
def catalogOf (s : Scope) (node : Element) : Option String :=
  (node.attribute? "catalog").or s.defaults.catalog

/-- The class that an attribute names. -/
def classAttribute? (s : Scope) (node : Element) (name : String) : Option String :=
  (node.attribute? name).map s.qualifyClass

/-- The entity that an association names: by `entity-name`, or else by `class`. -/
def targetOf? (s : Scope) (node : Element) : Option String :=
  (node.attribute? "entity-name").or (s.classAttribute? node "class")

end Scope

namespace Element

/-- Whether an attribute is present with a given value. -/
def attributeIs (e : Element) (name value : String) : Bool := e.attribute? name = some value

/-- Whether an attribute is absent or true. -/
def isNotDenied (e : Element) (name : String) : Bool := (e.attribute? name).all (· = "true")

/-- Reads a number; `invalidNumber` if the attribute is present and is none. -/
def number (read : String → Option α) (e : Element) (name : String) :
    Except MappingError (Option α) :=
  match e.attribute? name with
  | none => .ok none
  | some raw =>
    match read raw with
    | some n => .ok (some n)
    | none => .error (.invalidNumber e.name name raw)

/-- Reads an unsigned number. -/
def unsigned (e : Element) (name : String) : Except MappingError (Option Nat) :=
  e.number readUnsigned32 name

/-- Reads a signed number. -/
def signed (e : Element) (name : String) : Except MappingError (Option Int) :=
  e.number readSigned32 name

/-- The name that every property-like element must have. -/
def propertyName (e : Element) : Except MappingError String :=
  match e.attribute? "name" with
  | some name => .ok name
  | none => .error (.propertyWithoutName e.name)

/-- The parameters of an element: the trimmed text of each named `<param>`. -/
def parameters (e : Element) : List (String × String) :=
  (e.childrenNamed "param").filterMap fun param =>
    (param.attribute? "name").map fun name => (name, param.trimmedText)

/-- The query that stands for a table, as an attribute or a child. -/
def subselect? (e : Element) : Option String :=
  (e.attribute? "subselect").or ((e.child? "subselect").map Element.text)

/-- The statement held by a child. -/
def customSql? (e : Element) (child : String) : Option CustomSql :=
  (e.child? child).map fun c => ⟨c.trimmedText, c.attributeIs "callable" "true"⟩

/-- The statements that an element replaces, other than the deletion of all rows. -/
def customSqlSet (e : Element) : CustomSqlSet where
  insert := e.customSql? "sql-insert"
  update := e.customSql? "sql-update"
  delete := e.customSql? "sql-delete"

/-- The settings of a `<cache>` element. -/
def cacheSettings (e : Element) : Except MappingError CacheSettings :=
  match e.attribute? "usage" with
  | none => .error .cacheWithoutUsage
  | some usage => .ok ⟨usage, e.attribute? "region", !e.attributeIs "include" "non-lazy"⟩

/-- The tables that an element is synchronised with. -/
def synchronizedTables (e : Element) : List String :=
  (e.childrenNamed "synchronize").filterMap (·.attribute? "table")

/-- The query that loads an element. -/
def loaderQuery? (e : Element) : Option String :=
  (e.child? "loader").bind (·.attribute? "query-ref")

/-- The tuplizer of each entity mode; the first of a mode counts. -/
def tuplizers (e : Element) : SortedMap String :=
  (e.childrenNamed "tuplizer").foldl (fun m t =>
    match t.attribute? "entity-mode", t.attribute? "class" with
    | some mode, some className => m.insertIfNew mode className
    | _, _ => m) .empty

end Element

end ObjectMapping
