import ObjectMapping.Proofs.Queue

/-!
# Reachable registries

A caller binds documents, adds them to a session, works off its queue and ends it, in any
order and whether or not earlier calls ended well.  Every call takes a number of moves, so
every registry that a caller can reach is sound, and an invariant of moves that holds at the
start holds of every reachable registry.
-/

namespace ObjectMapping

open Binding Registry

namespace Session

/-- A call that a caller can make. -/
inductive Call where
  /-- Binds a document, without working off the queue. -/
  | bind (document : Document) (metas : MetaMap)
  /-- Adds a document to the session. -/
  | add (document : Document) (metas : MetaMap)
  /-- Works off the queue. -/
  | process
  /-- Ends the session. -/
  | finish

/-- What a call does, whatever it returns. -/
def Call.run : Call → Binding Unit
  | bind document metas => discard (bindDocument document metas)
  | add document metas => discard (addDocument document metas)
  | process => discard processQueue
  | finish => Session.finish

/-- The registries that calls can reach from an empty one, whether they end well or not. -/
inductive Reachable (options : RegistryOptions) : Registry → Prop
  | start : Reachable options { options }
  | call {r : Registry} (h : Reachable options r) (c : Call) :
      Reachable options (c.run.after r)

/-! ## Calls as moves -/

/-- Working off the queue takes a number of moves. -/
theorem moves_processQueue {r : Registry} (hr : Sound r) : Moves r (processQueue.after r) := by
  obtain ⟨log, dropped, hdrains⟩ := drains_workOff 0 hr
  exact hdrains.moves hr

/-- Adding a document takes a number of moves. -/
theorem moves_addDocument (document : Document) (metas : MetaMap) {r : Registry} (hr : Sound r) :
    Moves r ((addDocument document metas).after r) := by
  have hfirst := moves_bindDocument document metas hr.keyed
  unfold addDocument
  refine rel_after_bind (R := Moves) .trans hfirst fun outcome r₁ hrun => ?_
  rw [after_eq_of_ok hrun] at hfirst
  split
  · refine rel_after_bind (R := Moves) .trans ?_ fun _ r₂ _ => .refl r₂
    rw [after_discard]
    exact moves_processQueue (hfirst.sound hr)
  · exact .refl r₁

/-- Ending a session takes a number of moves. -/
theorem moves_finish {r : Registry} (hr : Sound r) : Moves r (finish.after r) := by
  have hqueue := moves_processQueue hr
  unfold finish
  rw [← after_discard] at hqueue
  refine rel_after_bind (R := Moves) .trans hqueue fun _ r₁ hrun => ?_
  rw [after_eq_of_ok hrun] at hqueue
  refine rel_after_bind (R := Moves) .trans (.refl r₁) fun _ r₂ hget => ?_
  cases hget
  have hpasses := grows_runPasses r₁ (hqueue.keyed hr.keyed)
  have hrest : Moves r₁ (Binding.after (do
      Session.runPasses; Binding.register Registry.applyPropertyReferences) r₁) := by
    refine rel_after_bind (R := Moves) .trans (.of (.grow hpasses)) fun _ r₂ _ => ?_
    exact .of (.grow (.of_sideWrites (aside_applyPropertyReferences r₂)))
  split
  · exact hrest
  · exact .refl r₁

/-- Every call takes a number of moves. -/
theorem Call.moves (c : Call) {r : Registry} (hr : Sound r) : Moves r (c.run.after r) := by
  cases c with
  | bind document metas =>
    rw [Call.run, after_discard]
    exact moves_bindDocument document metas hr.keyed
  | add document metas =>
    rw [Call.run, after_discard]
    exact moves_addDocument document metas hr
  | process =>
    rw [Call.run, after_discard]
    exact moves_processQueue hr
  | finish => exact moves_finish hr

/-- Every reachable registry is sound. -/
theorem Reachable.sound {options : RegistryOptions} {r : Registry} (h : Reachable options r) :
    Sound r := by
  induction h with
  | start => exact ⟨fun _ h => absurd h List.not_mem_nil, fun _ h => absurd h List.not_mem_nil⟩
  | call _ c ih => exact (c.moves ih).sound ih

/-- An invariant of moves that holds of an empty registry holds of every reachable one. -/
theorem Reachable.invariant {options : RegistryOptions} {P : Registry → Prop}
    (hstart : P { options }) (hmove : ∀ {r r'}, Move r r' → P r → P r') {r : Registry}
    (h : Reachable options r) : P r := by
  induction h with
  | start => exact hstart
  | call h c ih => exact (c.moves h.sound).invariant hmove ih

end Session

end ObjectMapping
