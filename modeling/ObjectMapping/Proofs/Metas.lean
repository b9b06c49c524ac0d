import Mathlib.Data.List.Induction
import ObjectMapping.Document.Meta
import ObjectMapping.Proofs.Source

/-!
# Meta attributes that are handed down

The meta attributes of an object are those that the elements around its own element hand down, under
the tags of its own element.  A name that is tagged there has the texts of all tags of that name,
and is inheritable if the last of them is; any other name has what is handed down.

On the way from the root of a document to an element, meta attributes pass elements of three sorts.
Some let them through as they are; a class or a subclass writes its public tags over them; and an
element that is bound as a component writes all of its tags over them, and hands down the names that
are inheritable then.  Hence whatever is handed down is inheritable.  It comes from the public tags
of an element further up, or else from a component: there the texts of private tags are handed down
as well, if the last tag of the name is public.
-/

namespace ObjectMapping

/-! ## Tags of a name -/

/-- The attribute that the tags of a name make: the last one says whether it is inheritable. -/
def MetaAttribute.ofTags? (name : String) (tags : List MetaTag) : Option MetaAttribute :=
  tags.getLast?.map fun last => ⟨name, tags.map MetaTag.value, last.inheritable⟩

namespace MetaOverlay

variable (tags : List MetaTag) (inherited : MetaMap) (name : String)

/-- The tags of a name, among others. -/
abbrev named : List MetaTag := tags.filter fun tag => tag.name = name

theorem named_append (tag : MetaTag) :
    named (tags ++ [tag]) name = named tags name ++ if tag.name = name then [tag] else [] := by
  by_cases htag : tag.name = name <;> simp [named, htag]

/-- The names that are written are those of the tags. -/
theorem mem_written : name ∈ (tags.foldl write { metas := inherited }).written ↔
    named tags name ≠ [] := by
  induction tags using List.reverseRecOn with
  | nil => simp
  | append_singleton tags tag ih =>
    rw [List.foldl_append, List.foldl_cons, List.foldl_nil, write, List.mem_cons, ih, named_append]
    by_cases htag : tag.name = name
    · simp [htag]
    · simp [htag, Ne.symm htag]

/-- After some tags are written, a name has the texts of its tags, or what it had before. -/
theorem get?_metas : (tags.foldl write { metas := inherited }).metas.get? name
    = (MetaAttribute.ofTags? name (named tags name)).or (inherited.get? name) := by
  induction tags using List.reverseRecOn with
  | nil => simp [MetaAttribute.ofTags?]
  | append_singleton tags tag ih =>
    rw [List.foldl_append, List.foldl_cons, List.foldl_nil, write, SortedMap.get?_insert]
    by_cases htag : tag.name = name
    · -- The texts that a further tag is added to are those of the earlier tags of its name.
      have hearlier : (if name ∈ (tags.foldl write { metas := inherited }).written then
          (((tags.foldl write { metas := inherited }).metas.get? name).map
            MetaAttribute.values).getD [] else []) = (named tags name).map MetaTag.value := by
        split
        · next hwritten =>
          obtain ⟨last, hlast⟩ := Option.isSome_iff_exists.mp
            (List.getLast?_isSome.mpr ((mem_written ..).mp hwritten))
          rw [ih, MetaAttribute.ofTags?, hlast]
          rfl
        · next hunwritten =>
          rw [mem_written, not_not] at hunwritten
          rw [hunwritten]
          rfl
      rw [named_append, if_pos htag, if_pos htag.symm, htag, hearlier, MetaAttribute.ofTags?,
        List.getLast?_concat, List.map_append]
      rfl
    · rw [named_append, if_neg htag, List.append_nil, if_neg (Ne.symm htag), ih]

end MetaOverlay

namespace Element

variable (e : Element) (inherited : MetaMap) (name : String)

/-- The meta tags of a name on an element. -/
def tagsNamed : List MetaTag := MetaOverlay.named (metaTags e) name

/-- The attribute that the tags of an element make of a name. -/
def ownMeta? : Option MetaAttribute := MetaAttribute.ofTags? name (e.tagsNamed name)

/-- The attribute that the public tags of an element make of a name. -/
def publicMeta? : Option MetaAttribute :=
  MetaAttribute.ofTags? name ((e.tagsNamed name).filter MetaTag.inheritable)

/-- With all tags of an element merged in, a name is what they make of it, or as it was. -/
theorem get?_mergeMetas_all : (mergeMetas e inherited false).get? name
    = (e.ownMeta? name).or (inherited.get? name) := by
  have hall : ((metaTags e).filter fun tag => tag.inheritable || !false) = metaTags e :=
    List.filter_eq_self.mpr fun tag _ => Bool.or_true _
  rw [mergeMetas, hall]
  exact MetaOverlay.get?_metas (metaTags e) inherited name

/-- With the public tags merged in, it is what these make of it, or as it was. -/
theorem get?_mergeMetas_public : (mergeMetas e inherited true).get? name
    = (e.publicMeta? name).or (inherited.get? name) := by
  have hpublic : ((metaTags e).filter fun tag => tag.inheritable || !true)
      = (metaTags e).filter MetaTag.inheritable :=
    List.filter_congr fun tag _ => Bool.or_false _
  have hnamed : MetaOverlay.named ((metaTags e).filter MetaTag.inheritable) name
      = (e.tagsNamed name).filter MetaTag.inheritable := by
    simp only [tagsNamed, MetaOverlay.named, List.filter_filter, Bool.and_comm]
  rw [mergeMetas, hpublic, MetaOverlay.get?_metas, hnamed, publicMeta?]

variable {e name}

/-- Without private tags there is no difference. -/
theorem ownMeta?_eq_publicMeta? (h : ∀ tag ∈ e.tagsNamed name, tag.inheritable = true) :
    e.ownMeta? name = e.publicMeta? name := by
  rw [publicMeta?, List.filter_eq_self.mpr h, ownMeta?]

/-- What the public tags of an element make of a name is inheritable. -/
theorem inheritable_of_publicMeta? {a : MetaAttribute} (h : e.publicMeta? name = some a) :
    a.inheritable = true := by
  obtain ⟨last, hlast, rfl⟩ := Option.map_eq_some_iff.mp h
  exact (List.mem_filter.mp (List.mem_of_getLast? hlast)).2

end Element

/-! ## Handing down -/

/-- Whether elements of a kind are bound as components, wherever they are found. -/
def Tag.isComposite (tag : Tag) : Bool :=
  tag = .compositeId || tag = .properties || tag.isComponent

namespace Element

/-- An element is of a kind that is bound as a component, wherever it is found. -/
def IsComposite (e : Element) : Prop := e.tag?.any Tag.isComposite

instance (e : Element) : Decidable e.IsComposite := inferInstanceAs (Decidable (_ = true))

theorem isComposite_of_tag {e : Element} {tag : Tag} (h : e.tag? = some tag)
    (htag : tag.isComposite) : e.IsComposite := by
  rw [IsComposite, h]
  exact htag

/-- What is handed down to the elements below the root of a document. -/
inductive Hands (root : Element) : MetaMap → Element → Prop
  | top {c : Element} (hc : c ∈ root.children) : Hands root (mergeMetas root .empty true) c
  /-- An element lets it through. -/
  | past {metas : MetaMap} {node c : Element} (h : Hands root metas node)
      (hc : c ∈ node.children) : Hands root metas c
  /-- A class or a subclass writes its public tags over it. -/
  | merged {metas : MetaMap} {node c : Element} (h : Hands root metas node)
      (hc : c ∈ node.children) : Hands root (mergeMetas node metas true) c
  /-- A component writes all of its tags over it, and keeps what is private then. -/
  | filtered {metas : MetaMap} {node c : Element} (h : Hands root metas node)
      (hnode : node.IsComposite) (hc : c ∈ node.children) :
      Hands root (mergeMetas node metas false).inheritablePart c

/-- An element hands an attribute down: as its public tags make it, or, if it is bound as a
component and has private tags of the name as well, as all of its tags make it. -/
def Releases (outer : Element) (name : String) (a : MetaAttribute) : Prop :=
  outer.publicMeta? name = some a ∨ outer.IsComposite ∧
    (∃ tag ∈ outer.tagsNamed name, tag.inheritable = false) ∧ outer.ownMeta? name = some a

theorem IsComposite.releases {outer : Element} (h : outer.IsComposite) {name : String}
    {a : MetaAttribute} (ha : outer.ownMeta? name = some a) : outer.Releases name a := by
  by_cases hpublic : ∀ tag ∈ outer.tagsNamed name, tag.inheritable = true
  · exact .inl (ownMeta?_eq_publicMeta? hpublic ▸ ha)
  · push Not at hpublic
    obtain ⟨tag, htag, hprivate⟩ := hpublic
    exact .inr ⟨h, ⟨tag, htag, Bool.eq_false_iff.mpr hprivate⟩, ha⟩

/-- Some element between the root and an element hands an attribute down. -/
def Inherits (root node : Element) (name : String) (a : MetaAttribute) : Prop :=
  ∃ outer : Element, outer.Within root ∧ outer.Below node ∧ outer.Releases name a

/-- An element accounts for meta attributes: a name that is tagged there is what its tags make of
it, and any other is inheritable and handed down. -/
structure AccountsFor (root node : Element) (metas : MetaMap) : Prop where
  own : ∀ name a, node.ownMeta? name = some a → metas.get? name = some a
  entries : ∀ name a, metas.get? name = some a → node.ownMeta? name = some a ∨
    node.ownMeta? name = none ∧ a.inheritable = true ∧ root.Inherits node name a

theorem Inherits.child {root node c : Element} {name : String} {a : MetaAttribute}
    (h : root.Inherits node name a) (hc : c ∈ node.children) : root.Inherits c name a := by
  obtain ⟨outer, hwithin, hbelow, hreleases⟩ := h
  exact ⟨outer, hwithin, hbelow.child hc, hreleases⟩

namespace Hands

variable {root node : Element} {metas : MetaMap}

theorem isBelow (h : root.Hands metas node) : root.Below node := by
  induction h with
  | top hc => exact .of_child hc
  | past _ hc ih | merged _ hc ih | filtered _ _ hc ih => exact ih.child hc

/-- Whatever is handed down to an element is inheritable, and an element further up releases it. -/
theorem inherits (h : root.Hands metas node) {name : String} {a : MetaAttribute}
    (ha : metas.get? name = some a) : a.inheritable = true ∧ root.Inherits node name a := by
  induction h with
  | top hc =>
    rw [get?_mergeMetas_public, SortedMap.get?_empty, Option.or_none] at ha
    exact ⟨inheritable_of_publicMeta? ha, root, .self root, .of_child hc, .inl ha⟩
  | past _ hc ih => exact (ih ha).imp_right (·.child hc)
  | @merged _ node _ h hc ih =>
    rw [get?_mergeMetas_public] at ha
    rcases Option.or_eq_some_iff.mp ha with hown | ⟨-, hold⟩
    · exact ⟨inheritable_of_publicMeta? hown, node, h.isBelow.within, .of_child hc, .inl hown⟩
    · exact (ih hold).imp_right (·.child hc)
  | @filtered _ node _ h hnode hc ih =>
    rw [MetaMap.inheritablePart, SortedMap.get?_filter, Option.filter_eq_some_iff,
      get?_mergeMetas_all] at ha
    obtain ⟨ha, hinheritable⟩ := ha
    rcases Option.or_eq_some_iff.mp ha with hown | ⟨-, hold⟩
    · exact ⟨hinheritable, node, h.isBelow.within, .of_child hc, hnode.releases hown⟩
    · exact (ih hold).imp_right (·.child hc)

/-- With all of its tags merged in, an element accounts for what is handed down to it. -/
theorem accountsFor (h : root.Hands metas node) :
    root.AccountsFor node (mergeMetas node metas false) := by
  refine ⟨fun name a ha => ?_, fun name a ha => ?_⟩
  · rw [get?_mergeMetas_all, ha, Option.some_or]
  · rw [get?_mergeMetas_all] at ha
    exact (Option.or_eq_some_iff.mp ha).imp_right fun ⟨hnone, hold⟩ => ⟨hnone, h.inherits hold⟩

end Hands

end Element

end ObjectMapping
