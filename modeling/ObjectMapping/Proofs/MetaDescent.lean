import Mathlib.Data.List.Sort
import ObjectMapping.Proofs.Metas

/-!
# Two ways of handing meta attributes down

A class or a subclass hands down what it was handed itself, with its public tags written over it.
A component writes all of its tags over it, and hands down the entries that are inheritable then.

The two come to the same for a name without private tags.  A private tag sets them apart in two
ways: it hides an entry of its name from the members of a component, which those of a class still
see; and beside a public tag of its name it either takes the public texts back or is handed down
with them, as the one or the other stands last.
-/

namespace ObjectMapping

namespace SortedMap

variable {α : Type} {m n : SortedMap α}

/-- The entries are those that are found under their keys. -/
theorem mem_entries_iff {e : String × α} : e ∈ m.entries ↔ m.get? e.1 = some e.2 := by
  constructor
  · intro he
    cases hfound : m.entries.find? fun e' => e'.1 = e.1 with
    | none => simpa using List.find?_eq_none.mp hfound e he
    | some e' =>
      have hkey : e'.1 = e.1 := by simpa using List.find?_some hfound
      have hsame : e' = e :=
        List.inj_on_of_nodup_map m.sorted_keys.nodup (List.mem_of_find?_eq_some hfound) he hkey
      rw [get?, hfound, hsame]
      rfl
  · intro h
    obtain ⟨e', hfound, hvalue⟩ := Option.map_eq_some_iff.mp h
    have hkey : e'.1 = e.1 := by simpa using List.find?_some hfound
    rw [← Prod.ext hkey hvalue]
    exact List.mem_of_find?_eq_some hfound

/-- A map is known by what is found under each key. -/
theorem ext_get? (h : ∀ k, m.get? k = n.get? k) : m = n := by
  have hirrefl : Std.Irrefl fun a b : String × α => a.1 < b.1 := ⟨fun a => String.lt_irrefl a.1⟩
  have hsorted : ∀ m : SortedMap α, m.entries.Pairwise fun a b => a.1 < b.1 :=
    fun m => List.pairwise_map.mp m.sorted_keys
  refine SortedMap.ext ((hsorted m).eq_of_mem_iff (hsorted n) fun e => ?_)
  rw [mem_entries_iff, mem_entries_iff, h]

end SortedMap

namespace Element

variable {e : Element} {inherited : MetaMap} {name : String}

/-- Some of the tags of a name are private. -/
def Withholds (e : Element) (name : String) : Prop :=
  ∃ tag ∈ e.tagsNamed name, tag.inheritable = false

/-- All tags of a name are private, if there are any. -/
def KeepsPrivate (e : Element) (name : String) : Prop :=
  ∀ tag ∈ e.tagsNamed name, tag.inheritable = false

/-- What private tags make of a name without public ones is private. -/
theorem KeepsPrivate.ownMeta? (h : e.KeepsPrivate name) {a : MetaAttribute}
    (ha : e.ownMeta? name = some a) : a.inheritable = false := by
  obtain ⟨last, hlast, rfl⟩ := Option.map_eq_some_iff.mp ha
  exact h last (List.mem_of_getLast? hlast)

/-- The public tags make nothing of a name if there are none. -/
theorem publicMeta?_eq_none_iff : e.publicMeta? name = none ↔ e.KeepsPrivate name := by
  rw [publicMeta?, MetaAttribute.ofTags?, Option.map_eq_none_iff, List.getLast?_eq_none_iff,
    List.filter_eq_nil_iff]
  simp only [KeepsPrivate, Bool.not_eq_true]

/-- If some tags of a name are private, then all of its tags do not make what the public ones make:
there are fewer texts on these. -/
theorem Withholds.ownMeta?_ne (h : e.Withholds name) {a : MetaAttribute}
    (ha : e.publicMeta? name = some a) : e.ownMeta? name ≠ some a := by
  intro hown
  obtain ⟨tag, htag, hprivate⟩ := h
  obtain ⟨last, -, rfl⟩ := Option.map_eq_some_iff.mp ha
  obtain ⟨last', -, hsame⟩ := Option.map_eq_some_iff.mp hown
  have hvalues := congrArg (List.length ∘ MetaAttribute.values) hsame
  simp only [Function.comp_apply, List.length_map] at hvalues
  have hpublic := List.length_filter_eq_length_iff.mp hvalues.symm tag htag
  exact Bool.noConfusion (hprivate.symm.trans hpublic)

/-- For one name, both ways hand down the same unless a private tag of the name stands beside a
public one or over something to inherit. -/
theorem get?_handedDown_iff
    (hinherited : ∀ a, inherited.get? name = some a → a.inheritable = true) :
    (mergeMetas e inherited true).get? name
        = (mergeMetas e inherited false).inheritablePart.get? name ↔
      (e.Withholds name → inherited.get? name = none ∧ e.KeepsPrivate name) := by
  rw [MetaMap.inheritablePart, SortedMap.get?_filter, get?_mergeMetas_public, get?_mergeMetas_all]
  by_cases hwithholds : e.Withholds name
  · rw [imp_iff_right hwithholds]
    -- A private tag is a tag, so that what is inherited does not show through it.
    obtain ⟨own, hown⟩ : ∃ own, e.ownMeta? name = some own := by
      obtain ⟨tag, htag, -⟩ := hwithholds
      obtain ⟨last, hlast⟩ := Option.isSome_iff_exists.mp
        (List.getLast?_isSome.mpr (List.ne_nil_of_mem htag))
      exact ⟨_, congrArg (Option.map _) hlast⟩
    rw [hown, Option.some_or]
    cases hpublic : e.publicMeta? name with
    | none =>
      have hall := publicMeta?_eq_none_iff.mp hpublic
      rw [Option.none_or, Option.filter_some_neg (hall.ownMeta? hown)]
      exact (and_iff_left hall).symm
    | some a =>
      refine iff_of_false (fun hsame => ?_) fun h => ?_
      · rw [Option.some_or] at hsame
        exact hwithholds.ownMeta?_ne hpublic
          (hown.trans (Option.filter_eq_some_iff.mp hsame.symm).1)
      · cases (publicMeta?_eq_none_iff.mpr h.2).symm.trans hpublic
  · have hpublic : ∀ tag ∈ e.tagsNamed name, tag.inheritable = true := fun tag htag =>
      Bool.eq_true_of_not_eq_false fun hprivate => hwithholds ⟨tag, htag, hprivate⟩
    refine iff_of_true ?_ fun h => absurd h hwithholds
    rw [ownMeta?_eq_publicMeta? hpublic]
    cases hmeta : (e.publicMeta? name).or (inherited.get? name) with
    | none => rfl
    | some a =>
      refine (Option.filter_some_pos ?_).symm
      rcases Option.or_eq_some_iff.mp hmeta with hown | ⟨-, hold⟩
      · exact inheritable_of_publicMeta? hown
      · exact hinherited a hold

/-- Let everything that is handed to an element be inheritable.  Then the way of classes and that of
components hand the same down under a name if and only if, should the element have private tags of
the name, nothing is to be inherited under it and all of its tags are private.  They hand the same
down altogether if that holds of every name. -/
theorem handed_down_alike_iff (e : Element) (inherited : MetaMap)
    (hinherited : ∀ name a, inherited.get? name = some a → a.inheritable = true) :
    (∀ name, (mergeMetas e inherited true).get? name
        = (mergeMetas e inherited false).inheritablePart.get? name ↔
      (e.Withholds name → inherited.get? name = none ∧ e.KeepsPrivate name)) ∧
      (mergeMetas e inherited true = (mergeMetas e inherited false).inheritablePart ↔
        ∀ name, e.Withholds name → inherited.get? name = none ∧ e.KeepsPrivate name) := by
  have hname : ∀ name, (mergeMetas e inherited true).get? name
        = (mergeMetas e inherited false).inheritablePart.get? name ↔
      (e.Withholds name → inherited.get? name = none ∧ e.KeepsPrivate name) :=
    fun name => get?_handedDown_iff (hinherited name)
  refine ⟨hname, fun hsame name => (hname name).mp (by rw [hsame]), fun h => ?_⟩
  exact SortedMap.ext_get? fun name => (hname name).mpr (h name)

/-- A note to be inherited. -/
def sharedNote : MetaMap := .ofAttributes [⟨"note", ["shared"], true⟩]

/-- A meta tag, public or private. -/
def metaElement (name text : String) (isPublic : Bool) : Element where
  name := "meta"
  attributes := .ofList (("attribute", name) :: if isPublic then [] else [("inherit", "false")])
  text

/-- An address with a private note and with an audit that has a private and a public text. -/
def auditedAddress : Element where
  name := "component"
  attributes := .ofList [("name", "address")]
  children := [metaElement "note" "draft" false, metaElement "audit" "internal" false,
    metaElement "audit" "external" true]

theorem inheritable_sharedNote (name : String) (a : MetaAttribute)
    (h : sharedNote.get? name = some a) : a.inheritable = true := by
  rw [sharedNote, MetaMap.ofAttributes, List.foldl_cons, List.foldl_nil, MetaMap.add,
    SortedMap.get?_insert] at h
  split at h
  · cases h
    rfl
  · cases h

/-- Both ways disagree about the audit of the address.  They agree about its note if nothing is to
be inherited, and disagree if another note is. -/
theorem handed_down_alike_iff_auditedAddress :
    (∀ name a, sharedNote.get? name = some a → a.inheritable = true) ∧
      (mergeMetas auditedAddress .empty true).get? "note"
        = (mergeMetas auditedAddress .empty false).inheritablePart.get? "note" ∧
      (mergeMetas auditedAddress sharedNote true).get? "note"
        ≠ (mergeMetas auditedAddress sharedNote false).inheritablePart.get? "note" ∧
      mergeMetas auditedAddress .empty true
        ≠ (mergeMetas auditedAddress .empty false).inheritablePart := by
  have hnote : auditedAddress.tagsNamed "note" = [⟨"note", false, "draft"⟩] := rfl
  have haudit : auditedAddress.tagsNamed "audit"
      = [⟨"audit", false, "internal"⟩, ⟨"audit", true, "external"⟩] := rfl
  obtain ⟨hempty, hempty'⟩ := handed_down_alike_iff auditedAddress .empty nofun
  obtain ⟨hshared, -⟩ := handed_down_alike_iff auditedAddress sharedNote inheritable_sharedNote
  refine ⟨inheritable_sharedNote, (hempty "note").mpr fun _ => ⟨rfl, ?_⟩, fun h => ?_, fun h => ?_⟩
  · rw [KeepsPrivate, hnote]
    simp
  · have hwithholds : auditedAddress.Withholds "note" := by
      rw [Withholds, hnote]
      simp
    cases ((hshared "note").mp h hwithholds).1
  · have hwithholds : auditedAddress.Withholds "audit" := by
      rw [Withholds, haudit]
      simp
    have hprivate := (hempty'.mp h "audit" hwithholds).2
    rw [KeepsPrivate, haudit] at hprivate
    simp at hprivate

/-- The way of classes hands the shared note and the public text of the audit down, that of
components both texts of the audit and no note. -/
theorem handed_down_differently :
    (∀ name a, sharedNote.get? name = some a → a.inheritable = true) ∧
      (mergeMetas auditedAddress sharedNote true).entries
        = [("audit", ⟨"audit", ["external"], true⟩), ("note", ⟨"note", ["shared"], true⟩)] ∧
      (mergeMetas auditedAddress sharedNote false).inheritablePart.entries
        = [("audit", ⟨"audit", ["internal", "external"], true⟩)] ∧
      mergeMetas auditedAddress sharedNote true
        ≠ (mergeMetas auditedAddress sharedNote false).inheritablePart :=
  ⟨inheritable_sharedNote, by decide +kernel, by decide +kernel, by decide +kernel⟩

end Element

end ObjectMapping
