import ObjectMapping.Binding.Contents

/-!
# What contents take from definitions

An element may name a type alias, and may apply a filter without saying under which condition.
What it means by that is looked up in a registry.  The key, the element and the index of a
collection are bound long after the collection is declared, and so are the filters of a
many-to-many.  `Collection.reading` is the outcome of all these lookups, as the collection shows
it, and `Registry.readContents` is what the element of the collection says if it is read in a
registry.
-/

namespace ObjectMapping

/-- The type of a simple value. -/
def SimpleValue.type (v : SimpleValue) : DeclaredType := ⟨v.typeName, v.typeParameters⟩

/-- The type of a value that is simple, or a key that is made of a simple value. -/
def Value.type? : Value → Option DeclaredType
  | .simple v => some v.type
  | .dependant base _ _ _ => some base.type
  | _ => none

/-- The types of the simple values among the contents of a collection, and the filters of its
elements. -/
structure ContentReading where
  key : Option DeclaredType := none
  element : Option DeclaredType := none
  index : Option DeclaredType := none
  filters : List FilterUse := []
deriving DecidableEq

/-- What the contents of a collection took from definitions. -/
def Collection.reading (c : Collection) : ContentReading where
  key := c.key.bind Value.type?
  element := c.element.bind Value.type?
  index := c.index.bind Value.type?
  filters := c.manyToManyFilters

namespace Registry

/-- What a child of a collection's element says about its key and its elements. -/
def readContent (r : Registry) (t : ContentReading) (child : Element) :
    Except MappingError ContentReading :=
  match child.tag? with
  | some .key => return { t with key := some (r.declaredType child) }
  | some .element => return { t with element := some (r.declaredType child) }
  | some .manyToMany => do
    let filters ← (child.childrenNamed "filter").mapM r.filterUse
    return { t with element := none, filters }
  | some .compositeElement | some .manyToAny => return { t with element := none }
  | _ => return t

/-- What a child of a map's element says about its keys. -/
def readMapKey (r : Registry) (t : ContentReading) (child : Element) : ContentReading :=
  match child.tag? with
  | some .index => { t with index := some (r.declaredType child) }
  | some .indexManyToMany | some .compositeIndex | some .indexManyToAny => { t with index := none }
  | _ => t

/-- What the element of a collection says about its index; positions are integers. -/
def readIndex (r : Registry) (t : ContentReading) (node : Element) : PassKind → ContentReading
  | .plain | .identifierBag => t
  | .list =>
    { t with index := ((node.child? "list-index").or (node.child? "index")).map fun child =>
        { r.declaredType child with name := some "integer" } }
  | .map => node.children.foldl r.readMapKey t

/-- What the element of a collection says about its contents. -/
def readContents (r : Registry) (kind : PassKind) (node : Element) :
    Except MappingError ContentReading := do
  let t ← node.children.foldlM r.readContent {}
  return r.readIndex t node kind

end Registry

end ObjectMapping
