import ObjectMapping.Proofs.MetaDescent

/-!
# Merging meta attributes

Merging goes through the meta tags of an element once, in the order of the document.  Tags of many
names are mixed there, with nameless ones and with such as are passed over, and which name was
written already is kept beside the map.  Still each name is on its own: if some tag of the name is
merged, then the texts of these tags replace whatever was inherited under the name, and the last of
them says whether the attribute is handed down; if there is none, what was inherited stands.  As the
inherited map is seen only where the element says nothing, a second merge has nothing to add.
-/

namespace ObjectMapping

namespace Element

/-- The meta children of an element that are merged under a name, in the order of the document. -/
def mergedUnder (node : Element) (onlyInheritable : Bool) (name : String) : List Element :=
  (node.childrenNamed "meta").filter fun tag =>
    tag.attribute? "attribute" = some name ∧ (isInheritableMeta tag || !onlyInheritable)

variable (node : Element) (inherited : MetaMap) (onlyInheritable : Bool) (name : String)

/-- What merging reads under a name are the tags of these children. -/
theorem named_metaTags :
    MetaOverlay.named ((metaTags node).filter fun tag => tag.inheritable || !onlyInheritable) name
      = (node.mergedUnder onlyInheritable name).map fun tag =>
          ⟨name, isInheritableMeta tag, tag.text⟩ := by
  unfold MetaOverlay.named metaTags mergedUnder
  induction node.childrenNamed "meta" with
  | nil => rfl
  | cons tag tags ih =>
    rw [List.filterMap_cons, List.filter_cons (x := tag)]
    cases hname : tag.attribute? "attribute" with
    | none => simpa using ih
    | some name' =>
      by_cases hmerged : (isInheritableMeta tag || !onlyInheritable) = true
      · by_cases hsame : name' = name <;> simp [hmerged, hsame, ih]
      · simp [hmerged, ih]

/-- After merging, a name is what the merged children make of it, or as it was. -/
theorem get?_mergeMetas : (mergeMetas node inherited onlyInheritable).get? name
    = ((node.mergedUnder onlyInheritable name).getLast?.map fun last =>
        ⟨name, (node.mergedUnder onlyInheritable name).map Element.text,
          isInheritableMeta last⟩).or (inherited.get? name) := by
  rw [mergeMetas, MetaOverlay.get?_metas, named_metaTags, MetaAttribute.ofTags?,
    List.getLast?_map, List.map_map, Option.map_map]
  rfl

/-- Merging overrides, then accumulates.  A name without merged children keeps its inherited entry,
if there is one.  Any other name has the texts of its merged children in the order of the document,
and is inheritable if the last of them is.  Merging the same element once more changes nothing. -/
theorem mergeMetas_overrides_then_accumulates :
    (∀ name,
      (node.mergedUnder onlyInheritable name = [] →
        (mergeMetas node inherited onlyInheritable).get? name = inherited.get? name) ∧
      ∀ last, (node.mergedUnder onlyInheritable name).getLast? = some last →
        (mergeMetas node inherited onlyInheritable).get? name
          = some ⟨name, (node.mergedUnder onlyInheritable name).map Element.text,
              isInheritableMeta last⟩) ∧
    mergeMetas node (mergeMetas node inherited onlyInheritable) onlyInheritable
      = mergeMetas node inherited onlyInheritable := by
  refine ⟨fun name => ⟨fun hnone => ?_, fun last hlast => ?_⟩, SortedMap.ext_get? fun name => ?_⟩
  · rw [get?_mergeMetas, hnone]
    rfl
  · rw [get?_mergeMetas, hlast]
    rfl
  · rw [get?_mergeMetas, get?_mergeMetas, ← Option.or_assoc, Option.or_self]

end Element

end ObjectMapping
