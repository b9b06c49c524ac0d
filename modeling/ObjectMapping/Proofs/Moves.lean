import ObjectMapping.Proofs.Deferred

/-!
# Moves of a session

During a session the registry goes through three kinds of move: it grows, a document starts to
wait, or the documents that are ready are taken off the queue.  What each of the three keeps is
kept by the binding of any number of documents, whether or not they are bound in the end.
-/

namespace ObjectMapping

open Binding Registry

namespace Session

/-- One move of a registry during a session. -/
inductive Move : Registry → Registry → Prop
  /-- The registry grows. -/
  | grow {r r' : Registry} (h : Grows r r') : Move r r'
  /-- A document starts to wait for the superclasses that it needs. -/
  | defer (r : Registry) (document : Document) (metas : MetaMap)
      (h : r.extendsNeeded document.root ≠ []) :
      Move r (r.enqueue { document, metas, missing := r.extendsNeeded document.root })
  /-- The documents that are ready are taken off the queue. -/
  | take (r : Registry) : Move r r.takeReady.2

/-- Any number of moves. -/
def Moves : Registry → Registry → Prop := Relation.ReflTransGen Move

namespace Moves

variable {r r' r'' : Registry}

/-- No move at all. -/
theorem refl (r : Registry) : Moves r r := Relation.ReflTransGen.refl

/-- Some moves after others. -/
theorem trans (h : Moves r r') (h' : Moves r' r'') : Moves r r'' :=
  Relation.ReflTransGen.trans h h'

/-- A single move. -/
theorem of (h : Move r r') : Moves r r' := Relation.ReflTransGen.single h

/-- An invariant of single moves is an invariant of any number of them. -/
theorem invariant {P : Registry → Prop} (hstep : ∀ {r r'}, Move r r' → P r → P r')
    (h : Moves r r') (hr : P r) : P r' := by
  induction h with
  | refl => exact hr
  | tail _ hlast ih => exact hstep hlast ih

/-- Moves keep every skeleton under its own name. -/
theorem keyed (h : Moves r r') (hr : Keyed r.skeletons) : Keyed r'.skeletons := by
  refine h.invariant (P := fun r => Keyed r.skeletons) (fun hmove hkeyed => ?_) hr
  cases hmove with
  | grow h => exact h.keyed hkeyed
  | defer | take => exact hkeyed

end Moves

/-! ## Calls as moves -/

/-- A document that needs nothing is bound at once. -/
theorem run_bindDocument_of_settled {r : Registry} {document : Document} (metas : MetaMap)
    (h : r.extendsNeeded document.root = []) : (bindDocument document metas).run r
      = (do
          bindRoot document.root metas
          return BindOutcome.bound : Binding BindOutcome).run r := by
  unfold bindDocument
  rw [run_get_bind]
  simp only [h, List.isEmpty_nil, if_true]

/-- A document that needs nothing leaves behind what its contents do. -/
theorem after_bindDocument_of_settled {r : Registry} {document : Document} (metas : MetaMap)
    (h : r.extendsNeeded document.root = []) :
    (bindDocument document metas).after r = (bindRoot document.root metas).after r := by
  rw [← after_bind_pure (bindRoot document.root metas) fun _ => BindOutcome.bound]
  unfold Binding.after
  rw [run_bindDocument_of_settled metas h]

/-- A document that needs superclasses starts to wait for them. -/
theorem run_bindDocument_of_needed {r : Registry} {document : Document} (metas : MetaMap)
    (h : r.extendsNeeded document.root ≠ []) : (bindDocument document metas).run r
      = .ok (.deferred (r.extendsNeeded document.root))
        (r.enqueue { document, metas, missing := r.extendsNeeded document.root }) := by
  unfold bindDocument
  rw [run_get_bind]
  dsimp only
  rw [if_neg (by rwa [List.isEmpty_iff])]
  rfl

/-- Binding a document is a move, whether it is bound, fails or has to wait. -/
theorem moves_bindDocument (document : Document) (metas : MetaMap) {r : Registry}
    (hkeyed : Keyed r.skeletons) : Moves r ((bindDocument document metas).after r) := by
  by_cases hneeded : r.extendsNeeded document.root = []
  · rw [after_bindDocument_of_settled metas hneeded]
    exact .of (.grow ((growing_bindRoot _ _).grows hkeyed))
  · rw [after_eq_of_ok (run_bindDocument_of_needed metas hneeded)]
    exact .of (.defer r document metas hneeded)

end Session

end ObjectMapping
