import ObjectMapping.Proofs.Waiting

/-!
# Working off the queue

`Drains` is the loop over the queue as it stands, without the guard that makes `workOff` a
total function: a round takes the documents that are ready and binds them, and the loop goes on
until a round finds none or a document fails.  A derivation of `Drains` is a finite run of the
loop, with a log of every document that was bound on the way, and with the documents that a
failed round never came to.

On an accurate queue the two agree, because a document that is taken off the queue needs
nothing any more: it is not deferred a second time, so every round shortens the queue.
-/

namespace ObjectMapping

open Binding Registry

namespace Session

/-! ## Attempts -/

/-- What became of one document that was taken off the queue. -/
structure Attempt where
  pending : PendingDocument
  result : EStateM.Result MappingError Registry BindOutcome

/-- The document had to wait once more. -/
def Attempt.Deferred (attempt : Attempt) : Prop :=
  ∃ missing r, attempt.result = .ok (.deferred missing) r

/-- What becomes of the documents of a batch that is bound in order; the first document that
fails is the last that is attempted. -/
def attempts : List PendingDocument → Registry → List Attempt
  | [], _ => []
  | pending :: rest, r =>
    let result := (bindDocument pending.document pending.metas).run r
    ⟨pending, result⟩ :: match result with
      | .ok _ r' => attempts rest r'
      | .error _ _ => []

/-- The attempted documents come first in the batch. -/
theorem attempts_initial (batch : List PendingDocument) (r : Registry) :
    (attempts batch r).map Attempt.pending <+: batch := by
  induction batch generalizing r with
  | nil => exact List.prefix_refl _
  | cons pending rest ih =>
    rw [attempts, List.map_cons]
    split
    · exact (List.prefix_cons_inj _).mpr (ih _)
    · exact (List.prefix_cons_inj _).mpr List.nil_prefix

/-- The attempted documents and those that the batch never came to are the whole batch. -/
theorem attempts_append_drop (batch : List PendingDocument) (r : Registry) :
    (attempts batch r).map Attempt.pending ++ batch.drop (attempts batch r).length = batch := by
  have htake := List.prefix_iff_eq_take.mp (attempts_initial batch r)
  rw [List.length_map] at htake
  rw [htake, List.take_append_drop]

/-- A batch that is bound to its end comes to all of its documents. -/
theorem attempts_of_ok {batch : List PendingDocument} {r r' : Registry} {n : Nat}
    (h : (bindAll batch).run r = .ok n r') :
    (attempts batch r).map Attempt.pending = batch := by
  induction batch generalizing r r' n with
  | nil => rfl
  | cons pending rest ih =>
    obtain ⟨outcome, r₁, hfirst, h⟩ := run_bind_eq_ok.mp h
    obtain ⟨others, r₂, hrest, -⟩ := run_bind_eq_ok.mp h
    rw [attempts, List.map_cons, hfirst]
    exact congrArg _ (ih hrest)

/-- A batch whose first document does not fail goes on with the rest. -/
theorem after_bindAll_cons {pending : PendingDocument} {rest : List PendingDocument}
    {r r' : Registry} {outcome : BindOutcome}
    (h : (bindDocument pending.document pending.metas).run r = .ok outcome r') :
    (bindAll (pending :: rest)).after r = (bindAll rest).after r' :=
  (after_bind_of_ok h).trans (after_bind_pure _ _ _)

/-! ## Settled documents -/

/-- A settled document makes the registry grow, and is not deferred. -/
theorem bindDocument_of_settled {r : Registry} {document : Document} (metas : MetaMap)
    (hkeyed : Keyed r.skeletons) (h : Settled r document) :
    Grows r ((bindDocument document metas).after r) ∧
      ∀ outcome r', (bindDocument document metas).run r = .ok outcome r' →
        outcome = .bound := by
  constructor
  · rw [after_bindDocument_of_settled metas (settled_iff.mp h)]
    exact (growing_bindRoot _ _).grows hkeyed
  · intro outcome r' hok
    rw [run_bindDocument_of_settled metas (settled_iff.mp h)] at hok
    obtain ⟨_, _, -, hok⟩ := run_bind_eq_ok.mp hok
    cases hok
    rfl

/-- A batch of settled documents makes the registry grow, defers none of them, and counts them
all if it is bound to its end. -/
theorem bindAll_of_settled {batch : List PendingDocument} {r : Registry}
    (hkeyed : Keyed r.skeletons) (h : ∀ pending ∈ batch, Settled r pending.document) :
    Grows r ((bindAll batch).after r) ∧ (∀ attempt ∈ attempts batch r, ¬attempt.Deferred) ∧
      ∀ n r', (bindAll batch).run r = .ok n r' → n = batch.length := by
  induction batch generalizing r with
  | nil =>
    refine ⟨.refl r, by simp [attempts], ?_⟩
    intro n r' hok
    cases hok
    rfl
  | cons pending rest ih =>
    obtain ⟨hgrows, hbound⟩ :=
      bindDocument_of_settled pending.metas hkeyed (h pending List.mem_cons_self)
    cases hfirst : (bindDocument pending.document pending.metas).run r with
    | error e r₁ =>
      have hrun : (bindAll (pending :: rest)).run r = .error e r₁ := run_bind_of_error hfirst
      rw [after_eq_of_error hfirst] at hgrows
      refine ⟨?_, ?_, ?_⟩
      · rwa [after_eq_of_error hrun]
      · rintro attempt hattempt ⟨missing, s, hdeferred⟩
        rw [attempts, hfirst, List.mem_singleton] at hattempt
        rw [hattempt] at hdeferred
        cases hdeferred
      · intro n r' hok
        rw [hrun] at hok
        cases hok
    | ok outcome r₁ =>
      obtain rfl := hbound outcome r₁ hfirst
      rw [after_eq_of_ok hfirst] at hgrows
      obtain ⟨hgrows', hnone, hcount⟩ := ih (hgrows.keyed hkeyed) fun other hother =>
        (h other (List.mem_cons_of_mem _ hother)).grow hgrows
      refine ⟨?_, ?_, ?_⟩
      · rw [after_bindAll_cons hfirst]
        exact hgrows.trans hgrows'
      · intro attempt hattempt
        rw [attempts, hfirst, List.mem_cons] at hattempt
        rcases hattempt with rfl | hattempt
        · rintro ⟨missing, s, hdeferred⟩
          cases hdeferred
        · exact hnone attempt hattempt
      · intro n r' hok
        obtain ⟨_, _, hfirst', hok⟩ := run_bind_eq_ok.mp hok
        rw [hfirst] at hfirst'
        cases hfirst'
        obtain ⟨others, _, hrest, hok⟩ := run_bind_eq_ok.mp hok
        cases hok
        rw [hcount others _ hrest, List.length_cons]
        rfl

/-! ## The loop -/

/-- A finite run of the loop over the queue: how many documents were bound before it, where it
starts, what it attempts, which documents it drops, and how it ends. -/
inductive Drains : Nat → Registry → List Attempt → List PendingDocument →
    EStateM.Result MappingError Registry Nat → Prop
  /-- Nothing is ready. -/
  | idle {bound : Nat} {r : Registry} (hidle : r.takeReady.1 = []) :
      Drains bound r [] [] (.ok bound r.takeReady.2)
  /-- A document of the round fails; those after it are off the queue and are dropped. -/
  | failure {bound : Nat} {r r' : Registry} {e : MappingError} (hready : r.takeReady.1 ≠ [])
      (hrun : (bindAll r.takeReady.1).run r.takeReady.2 = .error e r') :
      Drains bound r (attempts r.takeReady.1 r.takeReady.2)
        (r.takeReady.1.drop (attempts r.takeReady.1 r.takeReady.2).length) (.error e r')
  /-- All documents of the round are bound or deferred, and the loop goes on. -/
  | round {bound n : Nat} {r r' : Registry} {log : List Attempt} {dropped : List PendingDocument}
      {result : EStateM.Result MappingError Registry Nat} (hready : r.takeReady.1 ≠ [])
      (hrun : (bindAll r.takeReady.1).run r.takeReady.2 = .ok n r')
      (hrest : Drains (bound + n) r' log dropped result) :
      Drains bound r (attempts r.takeReady.1 r.takeReady.2 ++ log) dropped result

/-- What keeps the loop over the queue going: skeletons are under their own names, and the
waiting documents are accurate. -/
structure Sound (r : Registry) : Prop where
  keyed : Keyed r.skeletons
  accurate : QueueAccurate r

/-- Moves keep a registry sound. -/
theorem Moves.sound {r r' : Registry} (h : Moves r r') (hr : Sound r) : Sound r' :=
  ⟨h.keyed hr.keyed, h.invariant Move.queueAccurate hr.accurate⟩

/-- The registry that is left behind when a result was reached. -/
def registryOf {α : Type} : EStateM.Result MappingError Registry α → Registry
  | .ok _ r => r
  | .error _ r => r

/-- A round on a sound registry: it defers no document, leaves the rest of the queue alone, and
counts all of its documents if none of them fails. -/
theorem round_of_sound {r : Registry} (hr : Sound r) :
    Grows r.takeReady.2 ((bindAll r.takeReady.1).after r.takeReady.2) ∧
      (∀ attempt ∈ attempts r.takeReady.1 r.takeReady.2, ¬attempt.Deferred) ∧
      ∀ n r', (bindAll r.takeReady.1).run r.takeReady.2 = .ok n r' →
        n = r.takeReady.1.length :=
  bindAll_of_settled hr.keyed (settled_of_takeReady hr.accurate)

/-- The documents that are ready and those that are not are all that wait. -/
theorem takeReady_perm (r : Registry) :
    (r.takeReady.1 ++ r.takeReady.2.waiting).Perm r.waiting :=
  List.filter_append_perm r.isReady r.waiting

/-- A round that does not fail shortens the queue of a sound registry by its documents. -/
theorem backlog_of_round {r r' : Registry} {n : Nat} (hr : Sound r)
    (hrun : (bindAll r.takeReady.1).run r.takeReady.2 = .ok n r') :
    backlog r' + n = backlog r := by
  obtain ⟨hgrows, -, hcount⟩ := round_of_sound hr
  rw [after_eq_of_ok hrun] at hgrows
  have hperm := (takeReady_perm r).length_eq
  rw [List.length_append] at hperm
  rw [backlog, backlog, hgrows.waiting, hcount n r' hrun]
  omega

/-- Working off the queue of a sound registry is a finite run of the loop.  By induction on the
length of the queue, which every round shortens. -/
theorem drains_workOff (bound : Nat) {r : Registry} (hr : Sound r) :
    ∃ log dropped, Drains bound r log dropped (workOff bound r) := by
  induction hlength : backlog r using Nat.strongRecOn generalizing bound r with
  | ind length ih =>
    rw [workOff]
    dsimp only
    by_cases hready : r.takeReady.1 = []
    · rw [hready]
      exact ⟨[], [], .idle hready⟩
    · rw [if_neg (by rwa [List.isEmpty_iff])]
      cases hrun : (bindAll r.takeReady.1).run r.takeReady.2 with
      | error e r' => exact ⟨_, _, .failure hready hrun⟩
      | ok n r' =>
        obtain ⟨hgrows, -, hcount⟩ := round_of_sound hr
        have hbacklog := backlog_of_round hr hrun
        have hpositive : 0 < n := by
          rw [hcount n r' hrun]
          exact List.length_pos_iff.mpr hready
        have hr' : Sound r' := by
          rw [← after_eq_of_ok hrun]
          exact ((Moves.of (.take r)).trans (.of (.grow hgrows))).sound hr
        have hless : backlog r' < backlog r := by omega
        obtain ⟨log, dropped, hdrains⟩ := ih (backlog r') (hlength ▸ hless) (bound + n) hr' rfl
        dsimp only
        rw [if_pos hless]
        exact ⟨_, dropped, .round hready hrun hdrains⟩

namespace Drains

variable {bound : Nat} {r : Registry} {log : List Attempt} {dropped : List PendingDocument}
  {result : EStateM.Result MappingError Registry Nat}

/-- A round leaves a sound registry sound. -/
theorem sound_round (hr : Sound r) :
    Moves r ((bindAll r.takeReady.1).after r.takeReady.2) ∧
      Sound ((bindAll r.takeReady.1).after r.takeReady.2) := by
  obtain ⟨hgrows, -⟩ := round_of_sound hr
  have hmoves := (Moves.of (.take r)).trans (.of (.grow hgrows))
  exact ⟨hmoves, hmoves.sound hr⟩

/-- The loop takes a number of moves. -/
theorem moves (h : Drains bound r log dropped result) (hr : Sound r) :
    Moves r (registryOf result) := by
  induction h with
  | @idle _ r _ => exact .of (.take r)
  | failure _ hrun =>
    have hround := (sound_round hr).1
    rwa [after_eq_of_error hrun] at hround
  | round _ hrun _ ih =>
    obtain ⟨hround, hsound⟩ := sound_round hr
    rw [after_eq_of_ok hrun] at hround hsound
    exact hround.trans (ih hsound)

/-- No document that is taken off the queue is deferred a second time. -/
theorem not_deferred (h : Drains bound r log dropped result) (hr : Sound r) :
    ∀ attempt ∈ log, ¬attempt.Deferred := by
  induction h with
  | idle => simp
  | failure => exact (round_of_sound hr).2.1
  | round _ hrun _ ih =>
    obtain ⟨-, hsound⟩ := sound_round hr
    rw [after_eq_of_ok hrun] at hsound
    intro attempt hattempt
    rcases List.mem_append.mp hattempt with hfirst | hlater
    · exact (round_of_sound hr).2.1 attempt hfirst
    · exact ih hsound attempt hlater

/-- Every waiting document is attempted, or dropped, or still waits. -/
theorem perm (h : Drains bound r log dropped result) (hr : Sound r) :
    (log.map Attempt.pending ++ dropped ++ (registryOf result).waiting).Perm r.waiting := by
  induction h with
  | @idle _ r hidle =>
    have hperm := takeReady_perm r
    rwa [hidle] at hperm
  | @failure _ r _ _ _ hrun =>
    have hwaiting := (round_of_sound hr).1.waiting
    rw [after_eq_of_error hrun] at hwaiting
    rw [attempts_append_drop, registryOf, hwaiting]
    exact takeReady_perm r
  | @round _ _ r _ log dropped result _ hrun _ ih =>
    obtain ⟨-, hsound⟩ := sound_round hr
    have hwaiting := (round_of_sound hr).1.waiting
    rw [after_eq_of_ok hrun] at hsound hwaiting
    have hlater := ih hsound
    rw [hwaiting] at hlater
    rw [List.map_append, attempts_of_ok hrun, List.append_assoc, List.append_assoc,
      ← List.append_assoc (log.map _)]
    exact (hlater.append_left _).trans (takeReady_perm r)

/-- A loop that does not fail drops nothing, leaves nothing behind that is ready, and counts the
documents by which the queue became shorter. -/
theorem of_ok {k : Nat} {r' : Registry} (h : Drains bound r log dropped (.ok k r'))
    (hr : Sound r) : dropped = [] ∧ r'.takeReady.1 = [] ∧
      backlog r' + k = backlog r + bound := by
  generalize hresult : (EStateM.Result.ok k r' : EStateM.Result MappingError Registry Nat)
    = result at h
  induction h with
  | @idle bound r hidle =>
    cases hresult
    have hperm := takeReady_perm r
    rw [hidle, List.nil_append] at hperm
    refine ⟨rfl, ?_, by rw [backlog, backlog, hperm.length_eq]⟩
    rw [List.eq_nil_iff_forall_not_mem] at hidle ⊢
    intro pending hpending
    obtain ⟨hwaiting, hready⟩ := List.mem_filter.mp hpending
    exact hidle pending (List.mem_filter.mpr ⟨(List.mem_filter.mp hwaiting).1, hready⟩)
  | failure => cases hresult
  | round _ hrun _ ih =>
    obtain ⟨-, hsound⟩ := sound_round hr
    rw [after_eq_of_ok hrun] at hsound
    obtain ⟨hdropped, hidle, hcount⟩ := ih hsound hresult
    have hbacklog := backlog_of_round hr hrun
    exact ⟨hdropped, hidle, by omega⟩

/-- What a loop does is determined by where it starts. -/
theorem unique {log' : List Attempt} {dropped' : List PendingDocument}
    {result' : EStateM.Result MappingError Registry Nat} (h : Drains bound r log dropped result)
    (h' : Drains bound r log' dropped' result') :
    log' = log ∧ dropped' = dropped ∧ result' = result := by
  induction h generalizing log' dropped' result' with
  | idle hidle =>
    cases h' with
    | idle => exact ⟨rfl, rfl, rfl⟩
    | failure hready => exact absurd hidle hready
    | round hready => exact absurd hidle hready
  | failure hready hrun =>
    cases h' with
    | idle hidle => exact absurd hidle hready
    | failure _ hrun' =>
      rw [hrun] at hrun'
      cases hrun'
      exact ⟨rfl, rfl, rfl⟩
    | round _ hrun' =>
      rw [hrun] at hrun'
      cases hrun'
  | round hready hrun _ ih =>
    cases h' with
    | idle hidle => exact absurd hidle hready
    | failure _ hrun' =>
      rw [hrun] at hrun'
      cases hrun'
    | round _ hrun' hrest' =>
      rw [hrun] at hrun'
      cases hrun'
      obtain ⟨rfl, rfl, rfl⟩ := ih hrest'
      exact ⟨rfl, rfl, rfl⟩

end Drains

end Session

end ObjectMapping
