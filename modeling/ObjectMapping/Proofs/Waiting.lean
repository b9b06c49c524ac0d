import Mathlib.Data.List.Sort
import Mathlib.Data.String.Basic
import ObjectMapping.Proofs.Moves

/-!
# Waiting documents

A document waits for the superclasses that it needs from elsewhere and that are not registered
yet.  What it records of them is computed once, when it starts to wait, while the registry goes
on growing.  What is recorded stays accurate: it never names a class that the document does not
need, and what it leaves out is registered.  Hence a document that is taken off the queue needs
nothing any more.
-/

namespace ObjectMapping

open Binding Registry

/-! ## Sorted names -/

/-- The keys of a sorted map after a write. -/
theorem SortedMap.mem_keys_insert {α : Type} {m : SortedMap α} {k j : String} {v : α} :
    j ∈ (m.insert k v).keys ↔ j = k ∨ j ∈ m.keys :=
  SortedMap.mem_keys_place

/-- The names of a sorted list are those it was made from. -/
theorem mem_sortedNames {names : List String} {name : String} :
    name ∈ sortedNames names ↔ name ∈ names := by
  have hfold : ∀ (names : List String) (m : SortedMap Unit),
      name ∈ ((names.map fun n => (n, ())).foldl (fun m e => m.insert e.1 e.2) m).keys ↔
        name ∈ names ∨ name ∈ m.keys := by
    intro names
    induction names with
    | nil => simp
    | cons first rest ih =>
      intro m
      rw [List.map_cons, List.foldl_cons, ih, SortedMap.mem_keys_insert, List.mem_cons]
      tauto
  have hall := hfold names .empty
  rwa [show (SortedMap.empty : SortedMap Unit).keys = [] from rfl, or_iff_left List.not_mem_nil]
    at hall

/-- Lists with the same members become the same sorted list. -/
theorem sortedNames_congr {names names' : List String}
    (h : ∀ name, name ∈ names ↔ name ∈ names') : sortedNames names = sortedNames names' := by
  refine List.Pairwise.eq_of_mem_iff (r := (· < ·)) (SortedMap.sorted_keys _)
    (SortedMap.sorted_keys _) fun name => ?_
  exact mem_sortedNames.trans ((h name).trans mem_sortedNames.symm)

/-! ## What a document needs -/

/-- The superclasses that a document needs from elsewhere. -/
def foreignNames (root : Element) : List String :=
  (extendedNames root).filter fun name =>
    !(declaredNamesOfAll (.ofRoot root) root.children).contains name

/-- A document needs the superclasses from elsewhere that are not registered. -/
theorem mem_extendsNeeded {r : Registry} {root : Element} {name : String} :
    name ∈ r.extendsNeeded root ↔ name ∈ foreignNames root ∧ r.hasEntity name = false := by
  unfold Registry.extendsNeeded foreignNames
  simp only [mem_sortedNames, List.mem_filter, Bool.and_eq_true, Bool.not_eq_true']
  tauto

/-- All superclasses that a document needs from elsewhere are registered. -/
def Settled (r : Registry) (document : Document) : Prop :=
  ∀ name ∈ foreignNames document.root, r.hasEntity name = true

instance (r : Registry) (document : Document) : Decidable (Settled r document) :=
  inferInstanceAs (Decidable (∀ name ∈ foreignNames document.root, r.hasEntity name = true))

/-- A document is settled exactly if it needs nothing. -/
theorem settled_iff {r : Registry} {document : Document} :
    Settled r document ↔ r.extendsNeeded document.root = [] := by
  rw [List.eq_nil_iff_forall_not_mem]
  simp only [mem_extendsNeeded, not_and, Bool.not_eq_false, Settled]

/-- A settled document stays settled as the registry grows. -/
theorem Settled.grow {r r' : Registry} {document : Document} (h : Settled r document)
    (hgrows : Grows r r') : Settled r' document :=
  fun name hname => hgrows.hasEntity (h name hname)

/-! ## What a waiting document records -/

/-- What a waiting document records of the superclasses that it waits for is accurate. -/
structure PendingDocument.Accurate (r : Registry) (pending : PendingDocument) : Prop where
  /-- It waits for nothing that it does not need from elsewhere. -/
  needed : ∀ name ∈ pending.missing, name ∈ foreignNames pending.document.root
  /-- It waits for all that it needs from elsewhere, except for what is registered. -/
  complete : ∀ name ∈ foreignNames pending.document.root,
    name ∈ pending.missing ∨ r.hasEntity name = true

/-- Every waiting document is accurate. -/
def QueueAccurate (r : Registry) : Prop := ∀ pending ∈ r.waiting, pending.Accurate r

namespace PendingDocument.Accurate

variable {r r' : Registry} {pending : PendingDocument}

/-- Registering more entities keeps a document accurate. -/
theorem mono (h : pending.Accurate r)
    (hmono : ∀ name, r.hasEntity name = true → r'.hasEntity name = true) :
    pending.Accurate r' := by
  refine ⟨h.needed, fun name hname => ?_⟩
  rcases h.complete name hname with hmissing | hregistered
  · exact .inl hmissing
  · exact .inr (hmono name hregistered)

/-- A document that starts to wait is accurate. -/
theorem of_extendsNeeded (r : Registry) (document : Document) (metas : MetaMap) :
    Accurate r { document, metas, missing := r.extendsNeeded document.root } := by
  refine ⟨fun name hname => (mem_extendsNeeded.mp hname).1, fun name hname => ?_⟩
  cases hregistered : r.hasEntity name with
  | true => exact .inr rfl
  | false => exact .inl (mem_extendsNeeded.mpr ⟨hname, hregistered⟩)

/-- An accurate document is ready exactly if it is settled. -/
theorem isReady_iff (h : pending.Accurate r) :
    r.isReady pending = true ↔ Settled r pending.document := by
  unfold Registry.isReady Settled
  rw [List.all_eq_true]
  constructor
  · intro hready name hname
    rcases h.complete name hname with hmissing | hregistered
    · exact hready name hmissing
    · exact hregistered
  · exact fun hsettled name hname => hsettled name (h.needed name hname)

end PendingDocument.Accurate

namespace Session

/-- No move makes a waiting document inaccurate. -/
theorem Move.queueAccurate {r r' : Registry} (h : Move r r') (hr : QueueAccurate r) :
    QueueAccurate r' := by
  cases h with
  | grow h =>
    intro pending hpending
    rw [h.waiting] at hpending
    exact (hr pending hpending).mono fun name => h.hasEntity
  | defer document metas h =>
    intro pending hpending
    rcases List.mem_append.mp hpending with hold | hnew
    · exact (hr pending hold).mono fun _ => id
    · rw [List.mem_singleton.mp hnew]
      exact (PendingDocument.Accurate.of_extendsNeeded r document metas).mono fun _ => id
  | take =>
    intro pending hpending
    exact (hr pending (List.mem_filter.mp hpending).1).mono fun _ => id

/-- The documents that are taken off an accurate queue are settled. -/
theorem settled_of_takeReady {r : Registry} (hr : QueueAccurate r) :
    ∀ pending ∈ r.takeReady.1, Settled r.takeReady.2 pending.document := by
  intro pending hpending
  obtain ⟨hwaiting, hready⟩ := List.mem_filter.mp hpending
  exact (hr pending hwaiting).isReady_iff.mp hready

end Session

end ObjectMapping
