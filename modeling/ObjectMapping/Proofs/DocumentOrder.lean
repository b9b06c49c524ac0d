import ObjectMapping.Proofs.Custody
import ObjectMapping.Proofs.Deferral

/-!
# The order of a document

The elements at the top of a document may stand in any order, as long as those of one name keep
their order among each other: a subclass may stand before the class that it extends, and queries
between classes.  Most of a document is read kind by kind, so that nothing but the elements of one
name is seen at a time.  The exception is the scan for superclasses that the document has to wait
for, which looks at subclasses of all kinds at once, and at all depths for what is declared; there
it matters which names are found, and not in which order.
-/

namespace ObjectMapping

open Binding Registry

namespace Element

/-- Two elements have the same name and attributes, and the same children of each name, in the same
order among each other.  Children of different names may be mixed in different ways. -/
structure Rearranged (a b : Element) : Prop where
  name : a.name = b.name
  attribute? : ∀ name, a.attribute? name = b.attribute? name
  childrenNamed : ∀ name, a.childrenNamed name = b.childrenNamed name

namespace Rearranged

variable {a b : Element}

/-- Neighbours of different names may change places. -/
theorem swap {name : String} {attributes : KeyedList String String} {text text' : String}
    (before : List Element) {c c' : Element} (after : List Element) (h : c.name ≠ c'.name) :
    Rearranged ⟨name, attributes, before ++ c :: c' :: after, text⟩
      ⟨name, attributes, before ++ c' :: c :: after, text'⟩ := by
  refine ⟨rfl, fun _ => rfl, fun n => ?_⟩
  unfold Element.childrenNamed
  by_cases hc : c.name = n
  · have hc' : c'.name ≠ n := fun hc' => h (hc.trans hc'.symm)
    simp [hc, hc']
  · simp [List.filter_cons, hc]

/-- The children are the same, apart from their order. -/
theorem mem_children (h : a.Rearranged b) {c : Element} : c ∈ a.children ↔ c ∈ b.children := by
  have hnamed : ∀ {e : Element}, c ∈ e.childrenNamed c.name ↔ c ∈ e.children := fun {e} => by
    rw [Element.childrenNamed, List.mem_filter, and_iff_left (decide_eq_true rfl)]
  rw [← hnamed, h.childrenNamed, hnamed]

/-- The same elements are in both documents. -/
theorem below (h : a.Rearranged b) {e : Element} : a.Below e ↔ b.Below e :=
  ⟨fun ⟨c, hc, he⟩ => ⟨c, h.mem_children.mp hc, he⟩,
    fun ⟨c, hc, he⟩ => ⟨c, h.mem_children.mpr hc, he⟩⟩

/-- Both have the same defaults. -/
theorem ofRoot (h : a.Rearranged b) : DocumentDefaults.ofRoot a = .ofRoot b := by
  unfold DocumentDefaults.ofRoot
  simp only [h.attribute?]

/-- Both hand down the same meta attributes. -/
theorem mergeMetas (h : a.Rearranged b) (inherited : MetaMap) (onlyInheritable : Bool) :
    mergeMetas a inherited onlyInheritable = mergeMetas b inherited onlyInheritable := by
  unfold ObjectMapping.mergeMetas metaTags
  rw [h.childrenNamed]

/-! ### What is awaited -/

/-- Both declare the same entities. -/
theorem declares (h : a.Rearranged b) {name : String} : a.Declares name ↔ b.Declares name := by
  unfold Declares
  simp only [h.below, h.ofRoot]

/-- Both need the same superclasses. -/
theorem extendsAtTop (h : a.Rearranged b) {name : String} :
    a.ExtendsAtTop name ↔ b.ExtendsAtTop name := by
  unfold ExtendsAtTop
  simp only [h.mem_children, h.ofRoot]

/-- The same superclasses are needed: they are listed in the order of their names. -/
theorem extendsNeeded (h : a.Rearranged b) (r : Registry) :
    r.extendsNeeded a = r.extendsNeeded b := by
  refine sortedNames_congr fun name => ?_
  have hawaits : name ∈ r.extendsNeeded a ↔ name ∈ r.extendsNeeded b := by
    rw [mem_extendsNeeded_iff, mem_extendsNeeded_iff, Awaits, Awaits, h.extendsAtTop, h.declares]
  rwa [Registry.extendsNeeded, mem_sortedNames, Registry.extendsNeeded, mem_sortedNames] at hawaits

/-! ### What is bound -/

/-- The contents are bound by the same steps. -/
theorem bindRoot (h : a.Rearranged b) (metas : MetaMap) : bindRoot a metas = bindRoot b metas := by
  unfold ObjectMapping.bindRoot
  simp only [h.ofRoot, h.mergeMetas, h.childrenNamed]

end Rearranged

end Element

/-- Only the order of elements of one name matters at the top of a document.  If two documents are
the same up to the mixing of elements of different names, then either both have to wait, for the
same superclasses, and are queued as they are; or none has to, and binding them has the same result
and leaves the same registry, also if it fails. -/
theorem bindDocument_rearranged (r : Registry) (metas : MetaMap) {document document' : Document}
    (h : document.root.Rearranged document'.root) :
    (∃ missing,
      (bindDocument document metas).run r
        = .ok (.deferred missing) (r.enqueue { document, metas, missing }) ∧
      (bindDocument document' metas).run r
        = .ok (.deferred missing) (r.enqueue { document := document', metas, missing })) ∨
    (bindDocument document metas).run r = (bindDocument document' metas).run r ∧
      ∀ missing r', (bindDocument document metas).run r ≠ .ok (.deferred missing) r' := by
  by_cases hneeded : r.extendsNeeded document.root = []
  · have hneeded' : r.extendsNeeded document'.root = [] := h.extendsNeeded r ▸ hneeded
    have hrun := Session.run_bindDocument_of_settled metas hneeded
    refine .inr ⟨?_, fun missing r' hdeferred => ?_⟩
    · rw [hrun, Session.run_bindDocument_of_settled metas hneeded', h.bindRoot]
    · rw [hrun] at hdeferred
      obtain ⟨_, _, -, hpure⟩ := run_bind_eq_ok.mp hdeferred
      cases hpure
  · have hneeded' : r.extendsNeeded document'.root ≠ [] := h.extendsNeeded r ▸ hneeded
    refine .inl ⟨r.extendsNeeded document.root,
      Session.run_bindDocument_of_needed metas hneeded, ?_⟩
    rw [Session.run_bindDocument_of_needed metas hneeded', h.extendsNeeded]

/-- A subclass that stands before its superclass is bound as if it stood behind it.  Without the
superclass, it waits, whether a query stands before it or behind it. -/
theorem bindDocument_rearranged_kennel :
    ((bindDocument (documentOf [subclassElement "Dog" "Pet", classElement "Pet"]) .empty).run {}
        = (bindDocument (documentOf [classElement "Pet", subclassElement "Dog" "Pet"]) .empty).run
          {} ∧
      (bindDocument (documentOf [subclassElement "Dog" "Pet", classElement "Pet"]) .empty).failure?
        {} = none) ∧
    ∃ r', (bindDocument (documentOf [{ name := "query" }, subclassElement "Dog" "Pet"]) .empty).run
      {} = .ok (.deferred ["Pet"]) r' := by
  have hpet : (documentOf [subclassElement "Dog" "Pet", classElement "Pet"]).root.Rearranged
      (documentOf [classElement "Pet", subclassElement "Dog" "Pet"]).root :=
    .swap [] [] (by decide)
  have hquery : (documentOf [subclassElement "Dog" "Pet", { name := "query" }]).root.Rearranged
      (documentOf [{ name := "query" }, subclassElement "Dog" "Pet"]).root :=
    .swap [] [] (by decide)
  refine ⟨⟨?_, by decide +kernel⟩, ?_⟩
  · rcases bindDocument_rearranged {} .empty hpet with ⟨missing, hdeferred, -⟩ | ⟨hsame, -⟩
    · have hsettled : ({} : Registry).extendsNeeded
          (documentOf [subclassElement "Dog" "Pet", classElement "Pet"]).root = [] := by
        decide +kernel
      rw [Session.run_bindDocument_of_settled _ hsettled] at hdeferred
      obtain ⟨_, _, -, hpure⟩ := run_bind_eq_ok.mp hdeferred
      cases hpure
    · exact hsame
  · have hneeded : ({} : Registry).extendsNeeded
        (documentOf [subclassElement "Dog" "Pet", { name := "query" }]).root = ["Pet"] := by
      decide +kernel
    have hawaits : ({} : Registry).extendsNeeded
        (documentOf [subclassElement "Dog" "Pet", { name := "query" }]).root ≠ [] := by
      rw [hneeded]
      exact List.cons_ne_nil _ _
    have hrun := Session.run_bindDocument_of_needed .empty hawaits
    rcases bindDocument_rearranged {} .empty hquery with
      ⟨missing, hdeferred, hdeferred'⟩ | ⟨-, hnot⟩
    · rw [hrun, hneeded] at hdeferred
      cases hdeferred
      exact ⟨_, hdeferred'⟩
    · exact absurd hrun (hnot _ _)

/-- Classes that change places are registered in another order. -/
example :
    ((bindDocument (documentOf [classElement "Cat", classElement "Dog"]) .empty).after
        {}).entityNames
      ≠ ((bindDocument (documentOf [classElement "Dog", classElement "Cat"]) .empty).after
        {}).entityNames := by
  decide +kernel

end ObjectMapping
