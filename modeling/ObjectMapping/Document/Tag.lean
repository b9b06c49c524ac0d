import ObjectMapping.Mapping.Collection

/-!
# Tags

The kinds of element inside a class, component or collection.  Some names are spellings of
the same kind.
-/

namespace ObjectMapping

/-- The kind of an element. -/
inductive Tag where
  | any | cache | collection (kind : CollectionKind) | component | compositeElement | compositeId
  | compositeIndex | discriminator | dynamicComponent | element | filter | identifier | index
  | indexManyToAny | indexManyToMany | join | joinedSubclass | key | keyManyToOne | keyProperty
  | manyToAny | manyToMany | manyToOne | naturalId | nestedCompositeElement | oneToOne | parent
  | properties | property | query | resultSet | sqlQuery | subclass | timestamp | unionSubclass
  | version
deriving DecidableEq, Inhabited, Repr

namespace Tag

/-- The names of elements, and the kinds they stand for. -/
def names : List (String × Tag) :=
  [("any", any), ("cache", cache), ("component", component),
    ("composite-element", compositeElement), ("composite-id", compositeId),
    ("composite-index", compositeIndex), ("composite-map-key", compositeIndex),
    ("discriminator", discriminator), ("dynamic-component", dynamicComponent),
    ("element", element), ("filter", filter), ("id", identifier), ("index", index),
    ("index-many-to-any", indexManyToAny), ("index-many-to-many", indexManyToMany),
    ("join", join), ("joined-subclass", joinedSubclass), ("key", key),
    ("key-many-to-one", keyManyToOne), ("key-property", keyProperty),
    ("many-to-any", manyToAny), ("many-to-many", manyToMany), ("many-to-one", manyToOne),
    ("map-key", index), ("map-key-many-to-many", indexManyToMany), ("natural-id", naturalId),
    ("nested-composite-element", nestedCompositeElement), ("one-to-one", oneToOne),
    ("parent", parent), ("properties", properties), ("property", property), ("query", query),
    ("resultset", resultSet), ("sql-query", sqlQuery), ("subclass", subclass),
    ("timestamp", timestamp), ("union-subclass", unionSubclass), ("version", version)]

/-- The kind of an element of a given name. -/
def ofName? (name : String) : Option Tag :=
  match CollectionKind.ofLabel? name with
  | some kind => some (collection kind)
  | none => names.lookup name

end Tag

/-- The kind of an element. -/
def Element.tag? (e : Element) : Option Tag := Tag.ofName? e.name

end ObjectMapping
