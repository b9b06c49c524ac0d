import ObjectMapping.Data.SortedMap
import ObjectMapping.Document.Element

/-!
# Meta attributes

Free-form `<meta attribute="…">text</meta>` tags flow from a document down to its classes,
properties and collections.  `mergeMetas` overlays the tags of one element on the inherited
map: the first tag of a name replaces the inherited entry, later tags of that name add to it.
-/

namespace ObjectMapping

/-- A named list of values that may be handed down. -/
structure MetaAttribute where
  name : String
  values : List String := []
  inheritable : Bool := false
deriving DecidableEq, Inhabited

namespace MetaAttribute

/-- The first value. -/
def value? (m : MetaAttribute) : Option String := m.values.head?

/-- Whether there are several values. -/
def isMultiValued (m : MetaAttribute) : Bool := 1 < m.values.length

end MetaAttribute

/-- Meta attributes by name. -/
abbrev MetaMap := SortedMap MetaAttribute

namespace MetaMap

/-- Stores an attribute under its own name. -/
def add (m : MetaMap) (a : MetaAttribute) : MetaMap := m.insert a.name a

/-- The map of a list of attributes, in which a later one of a name overrides. -/
def ofAttributes (as : List MetaAttribute) : MetaMap := as.foldl add .empty

/-- The entries that are handed down to inner elements. -/
def inheritablePart (m : MetaMap) : MetaMap := m.filter MetaAttribute.inheritable

end MetaMap

/-- A meta tag as read off its element. -/
structure MetaTag where
  name : String
  inheritable : Bool
  value : String

/-- Whether a meta element is handed down: unless `inherit` says something other than true,
in any letter case. -/
def isInheritableMeta (node : Element) : Bool :=
  match node.attribute? "inherit" with
  | none => true
  | some v => v.toList.map Char.toLower = "true".toList

/-- The meta tags among the children of an element; nameless ones are none. -/
def metaTags (node : Element) : List MetaTag :=
  (node.childrenNamed "meta").filterMap fun tag =>
    (tag.attribute? "attribute").map fun name => ⟨name, isInheritableMeta tag, tag.text⟩

/-- A map with the tags of one element written so far, and the names they wrote. -/
structure MetaOverlay where
  metas : MetaMap
  written : List String := []

/-- Writes one tag: over the inherited entry at first, onto the local one after that. -/
def MetaOverlay.write (o : MetaOverlay) (tag : MetaTag) : MetaOverlay :=
  let earlier :=
    if tag.name ∈ o.written then ((o.metas.get? tag.name).map MetaAttribute.values).getD []
    else []
  { metas := o.metas.insert tag.name ⟨tag.name, earlier ++ [tag.value], tag.inheritable⟩
    written := tag.name :: o.written }

/-- Merges the meta tags of an element over an inherited map.  With `onlyInheritable`, tags
that are not handed down are passed over. -/
def mergeMetas (node : Element) (inherited : MetaMap) (onlyInheritable : Bool) : MetaMap :=
  let tags := (metaTags node).filter fun tag => tag.inheritable || !onlyInheritable
  (tags.foldl MetaOverlay.write { metas := inherited }).metas

end ObjectMapping
