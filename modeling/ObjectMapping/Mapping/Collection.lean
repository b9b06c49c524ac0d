import ObjectMapping.Mapping.Entity
import ObjectMapping.Text.Path

/-!
# Collections

A collection is registered by its role while its owner is bound; its key, element and index
are bound once every entity is known.
-/

namespace ObjectMapping

/-- The shape of a collection. -/
inductive CollectionKind where
  | array | bag | identifierBag | list | map | primitiveArray | set
deriving DecidableEq, Inhabited, Repr

namespace CollectionKind

/-- The tag of a shape. -/
def label : CollectionKind → String
  | array => "array"
  | bag => "bag"
  | identifierBag => "idbag"
  | list => "list"
  | map => "map"
  | primitiveArray => "primitive-array"
  | set => "set"

/-- All shapes. -/
def all : List CollectionKind := [array, bag, identifierBag, list, map, primitiveArray, set]

/-- The shape of a tag. -/
def ofLabel? (tag : String) : Option CollectionKind := all.find? fun k => k.label = tag

/-- Whether elements are found by a position. -/
def isListLike : CollectionKind → Bool
  | array | list | primitiveArray => true
  | _ => false

/-- Whether elements are found by a position or a key. -/
def isIndexed (k : CollectionKind) : Bool := k = map || k.isListLike

end CollectionKind

/-- How a collection is sorted in memory. -/
inductive SortStrategy where
  | comparator (className : String)
  | natural
  | unsorted
deriving DecidableEq, Inhabited

namespace SortStrategy

/-- Reads a sort attribute; what is not a known literal names a comparator. -/
def ofAttribute : Option String → SortStrategy
  | none => unsorted
  | some raw =>
    if raw = "unsorted" then unsorted
    else if raw = "natural" then natural
    else comparator raw

/-- Whether the collection is sorted. -/
def isSorted (s : SortStrategy) : Bool := s ≠ unsorted

end SortStrategy

/-- A collection of an entity, by role. -/
structure Collection where
  role : String
  ownerEntity : String
  kind : CollectionKind
  /-- The table of the elements. -/
  table : Option TableId := none
  key : Option Value := none
  element : Option Value := none
  index : Option Value := none
  /-- The first position of a list or array. -/
  baseIndex : Int := 0
  indexNodeName : Option String := none
  /-- The identifier of each row of an identifier bag. -/
  identifier : Option Value := none
  inverse : Bool := false
  isMutable : Bool := true
  optimisticLocked : Bool := true
  isLazy : Bool := true
  extraLazy : Bool := false
  fetch : FetchMode := .unspecified
  subselectLoadable : Bool := false
  embedded : Bool := true
  orphanDelete : Bool := false
  sort : SortStrategy := .unsorted
  orderBy : Option String := none
  whereClause : Option String := none
  manyToManyWhere : Option String := none
  manyToManyOrderBy : Option String := none
  batchSize : Option Nat := none
  nodeName : Option String := none
  elementNodeName : Option String := none
  persister : Option String := none
  typeName : Option String := none
  elementClass : Option String := none
  /-- The owner's property that the key refers to in place of the identifier. -/
  referencedProperty : Option String := none
  loaderQuery : Option String := none
  cache : Option CacheSettings := none
  check : Option String := none
  customSql : CustomSqlSet := {}
  filters : List FilterUse := []
  manyToManyFilters : List FilterUse := []
  synchronizedTables : List String := []
  metas : MetaMap := .empty
deriving Inhabited

namespace Collection

/-- Whether the elements are entities that hold the key themselves. -/
def isOneToMany (c : Collection) : Bool :=
  match c.element with
  | some (.oneToMany _) => true
  | _ => false

/-- The unqualified name of the role. -/
def propertyName (c : Collection) : String := unqualify c.role

end Collection

end ObjectMapping
