import ObjectMapping.Proofs.Reachable

/-!
# Custody of waiting documents

The queue of a reachable registry is worked off by a finite run of the loop over it, which
defers no document a second time.  `Call.Trace` says what a call did to the documents that were
waiting.  A document that fails ends its round, and with it the call; the documents of the
round that come after it are no longer on the queue and are not bound either.  `exists_trace`
accounts for every document: it was attempted, or dropped in this way, or still waits.
-/

namespace ObjectMapping

open Binding Registry

/-! ## Small documents -/

/-- A document that holds some elements. -/
def documentOf (children : List Element) : Document where
  root := { name := "hibernate-mapping", children }

/-- A root class without properties. -/
def classElement (name : String) : Element where
  name := "class"
  attributes := .ofList [("name", name)]

/-- A plain subclass without properties. -/
def subclassElement (name superclass : String) : Element where
  name := "subclass"
  attributes := .ofList [("name", name), ("extends", superclass)]

namespace Session

/-! ## Termination -/

/-- On a reachable registry a document that is taken off the queue is not deferred when it is
bound, neither at once nor in its turn; the loop over the queue ends; and if it ends well, it
counts the documents by which the queue became shorter. -/
theorem processQueue_terminates {options : RegistryOptions} {r : Registry}
    (h : Reachable options r) :
    (∀ pending ∈ r.takeReady.1, ∀ missing r',
      (bindDocument pending.document pending.metas).run r.takeReady.2
        ≠ .ok (.deferred missing) r') ∧
    ∃ log dropped, Drains 0 r log dropped (processQueue.run r) ∧
      (∀ attempt ∈ log, ¬attempt.Deferred) ∧
      ∀ k r', processQueue.run r = .ok k r' → r'.waiting.length + k = r.waiting.length := by
  have hsound := h.sound
  constructor
  · intro pending hpending missing r' hdeferred
    have hsettled := settled_of_takeReady hsound.accurate pending hpending
    have hkeyed : Keyed r.takeReady.2.skeletons := hsound.keyed
    cases (bindDocument_of_settled pending.metas hkeyed hsettled).2 _ _ hdeferred
  · obtain ⟨log, dropped, hdrains⟩ := drains_workOff 0 hsound
    refine ⟨log, dropped, hdrains, hdrains.not_deferred hsound, fun k r' hok => ?_⟩
    have hrun : workOff 0 r = .ok k r' := hok
    rw [hrun] at hdrains
    exact (hdrains.of_ok hsound).2.2

/-- A registry in which a class was bound after a document that waits for it. -/
def readyRegistry : Registry :=
  (Call.bind (documentOf [classElement "Animal"]) .empty).run.after
    ((Call.add (documentOf [subclassElement "Cat" "Animal"]) .empty).run.after { options := {} })

/-- The loop ends where a document that waited is ready. -/
theorem processQueue_terminates_readyRegistry :
    Reachable {} readyRegistry ∧ readyRegistry.takeReady.1.length = 1 ∧
    (∀ pending ∈ readyRegistry.takeReady.1, ∀ missing r',
      (bindDocument pending.document pending.metas).run readyRegistry.takeReady.2
        ≠ .ok (.deferred missing) r') ∧
    ∃ log dropped, Drains 0 readyRegistry log dropped (processQueue.run readyRegistry) ∧
      (∀ attempt ∈ log, ¬attempt.Deferred) ∧
      ∀ k r', processQueue.run readyRegistry = .ok k r' →
        r'.waiting.length + k = readyRegistry.waiting.length :=
  have hreachable : Reachable {} readyRegistry := .call (.call .start _) _
  ⟨hreachable, by decide +kernel, processQueue_terminates hreachable⟩

/-! ## Accounting -/

/-- The document of a call that has to wait, if it does. -/
def Call.joining (r : Registry) : Call → List PendingDocument
  | bind document metas | add document metas =>
    let missing := r.extendsNeeded document.root
    if missing = [] then [] else [{ document, metas, missing }]
  | process | finish => []

/-- What a call does to the documents that wait: which of them it attempts, and which of them
it drops. -/
inductive Call.Trace : Call → Registry → List Attempt → List PendingDocument → Prop
  /-- Binding a document does not touch the queue. -/
  | bind (document : Document) (metas : MetaMap) (r : Registry) :
      Trace (.bind document metas) r [] []
  /-- A document that is bound has the queue worked off. -/
  | added {document : Document} {metas : MetaMap} {r r' : Registry} {log : List Attempt}
      {dropped : List PendingDocument}
      (hbound : (bindDocument document metas).run r = .ok .bound r')
      (h : Drains 0 r' log dropped (processQueue.run r')) :
      Trace (.add document metas) r log dropped
  /-- A document that fails or has to wait does not. -/
  | notAdded {document : Document} {metas : MetaMap} {r : Registry}
      (h : ∀ r', (bindDocument document metas).run r ≠ .ok .bound r') :
      Trace (.add document metas) r [] []
  /-- The queue is worked off. -/
  | process {r : Registry} {log : List Attempt} {dropped : List PendingDocument}
      (h : Drains 0 r log dropped (processQueue.run r)) : Trace .process r log dropped
  /-- The queue is worked off before a session ends. -/
  | finish {r : Registry} {log : List Attempt} {dropped : List PendingDocument}
      (h : Drains 0 r log dropped (processQueue.run r)) : Trace .finish r log dropped

/-- Binding a document leaves the queue alone, up to the document itself. -/
theorem waiting_bindDocument (document : Document) (metas : MetaMap) {r : Registry}
    (hkeyed : Keyed r.skeletons) : ((bindDocument document metas).after r).waiting
      = r.waiting ++ (Call.bind document metas).joining r := by
  by_cases hneeded : r.extendsNeeded document.root = []
  · rw [after_bindDocument_of_settled metas hneeded, Call.joining, if_pos hneeded,
      List.append_nil]
    exact ((growing_bindRoot _ _).grows hkeyed).waiting
  · rw [after_eq_of_ok (run_bindDocument_of_needed metas hneeded), Call.joining, if_neg hneeded]
    rfl

/-- A document that is bound does not have to wait. -/
theorem joining_of_bound {document : Document} {metas : MetaMap} {r r' : Registry}
    (h : (bindDocument document metas).run r = .ok .bound r') :
    (Call.bind document metas).joining r = [] := by
  by_cases hneeded : r.extendsNeeded document.root = []
  · rw [Call.joining, if_pos hneeded]
  · rw [run_bindDocument_of_needed metas hneeded] at h
    cases h

/-- Ending a session leaves the queue as working it off does. -/
theorem waiting_finish {r : Registry} (hr : Sound r) :
    (finish.after r).waiting = (processQueue.after r).waiting := by
  cases hrun : processQueue.run r with
  | error e r₁ =>
    have hdiscard : (discard processQueue).run r = .error e r₁ := run_bind_of_error hrun
    have hfinish : finish.run r = .error e r₁ := run_bind_of_error hdiscard
    rw [after_eq_of_error hfinish, after_eq_of_error hrun]
  | ok k r₁ =>
    have hkeyed : Keyed r₁.skeletons := by
      rw [← after_eq_of_ok hrun]
      exact (moves_processQueue hr).keyed hr.keyed
    have hdiscard : (discard processQueue).run r = .ok () r₁ :=
      run_discard_eq_ok.mpr ⟨k, hrun⟩
    unfold finish
    rw [after_eq_of_ok hrun, after_bind_of_ok hdiscard]
    refine rel_after_bind (R := fun r r' => r'.waiting = r.waiting) (fun h h' => h'.trans h) rfl
      fun _ r₂ hget => ?_
    cases hget
    have hpasses : Grows r₁ (Binding.after (do
        Session.runPasses; Binding.register Registry.applyPropertyReferences) r₁) := by
      refine rel_after_bind (R := Grows) .trans (grows_runPasses r₁ hkeyed) fun _ r₂ _ => ?_
      exact .of_sideWrites (aside_applyPropertyReferences r₂)
    split
    · exact hpasses.waiting
    · rfl

/-- Adding a document that is bound leaves behind what working off the queue does then. -/
theorem after_addDocument_of_bound {document : Document} {metas : MetaMap} {r r' : Registry}
    (h : (bindDocument document metas).run r = .ok .bound r') :
    (addDocument document metas).after r = processQueue.after r' := by
  unfold addDocument
  rw [after_bind_of_ok h, if_pos rfl, after_bind_pure, after_discard]

/-- Adding a document that is not bound leaves behind what binding it does. -/
theorem after_addDocument_of_not {document : Document} {metas : MetaMap} {r : Registry}
    (h : ∀ r', (bindDocument document metas).run r ≠ .ok .bound r') :
    (addDocument document metas).after r = (bindDocument document metas).after r := by
  unfold addDocument
  cases hrun : (bindDocument document metas).run r with
  | error e r₁ => rw [after_bind_of_error hrun, after_eq_of_error hrun]
  | ok outcome r₁ =>
    have hother : outcome ≠ .bound := by
      rintro rfl
      exact h r₁ hrun
    rw [after_bind_of_ok hrun, if_neg hother, after_pure, after_eq_of_ok hrun]

/-- Working off the queue accounts for every document that waits, and drops none if no document
fails. -/
theorem exists_drains {r : Registry} (hr : Sound r) :
    ∃ log dropped, Drains 0 r log dropped (processQueue.run r) ∧
      (log.map Attempt.pending ++ dropped ++ (processQueue.after r).waiting).Perm r.waiting ∧
      ∀ k r', processQueue.run r = .ok k r' → dropped = [] := by
  obtain ⟨log, dropped, hdrains⟩ := drains_workOff 0 hr
  refine ⟨log, dropped, hdrains, hdrains.perm hr, fun k r' hok => ?_⟩
  have hrun : workOff 0 r = .ok k r' := hok
  rw [hrun] at hdrains
  exact (hdrains.of_ok hr).1

/-- The trace of a call accounts for every document that waited or has to wait, and a document
is dropped only by a call that fails and whose own document does not have to wait. -/
theorem exists_trace {r : Registry} (hr : Sound r) (c : Call) :
    ∃ log dropped, c.Trace r log dropped ∧
      (log.map Attempt.pending ++ dropped ++ (c.run.after r).waiting).Perm
        (r.waiting ++ c.joining r) ∧
      (dropped ≠ [] → c.joining r = []) ∧
      ∀ u r', c.run.run r = .ok u r' → dropped = [] := by
  cases c with
  | bind document metas =>
    refine ⟨[], [], .bind document metas r, ?_, absurd rfl, fun _ _ _ => rfl⟩
    rw [Call.run, after_discard, waiting_bindDocument document metas hr.keyed]
    exact .refl _
  | add document metas =>
    have hwaiting := waiting_bindDocument document metas hr.keyed
    rw [Call.run, after_discard]
    by_cases hbound : ∃ r₁, (bindDocument document metas).run r = .ok .bound r₁
    · obtain ⟨r₁, hbound⟩ := hbound
      have hjoining : (Call.add document metas).joining r = [] := joining_of_bound hbound
      have hmoves := moves_bindDocument document metas hr.keyed
      rw [after_eq_of_ok hbound] at hmoves hwaiting
      rw [joining_of_bound hbound, List.append_nil] at hwaiting
      have hr₁ := hmoves.sound hr
      obtain ⟨log, dropped, hdrains, hperm, hnone⟩ := exists_drains hr₁
      refine ⟨log, dropped, .added hbound hdrains, ?_, fun _ => hjoining, fun u r' hok => ?_⟩
      · rw [after_addDocument_of_bound hbound, hjoining, List.append_nil, ← hwaiting]
        exact hperm
      · obtain ⟨outcome, hok⟩ := run_discard_eq_ok.mp hok
        unfold addDocument at hok
        rw [run_bind_of_ok hbound, if_pos rfl] at hok
        obtain ⟨_, _, hdiscard, -⟩ := run_bind_eq_ok.mp hok
        obtain ⟨k, hqueue⟩ := run_discard_eq_ok.mp hdiscard
        exact hnone k _ hqueue
    · have hnot := not_exists.mp hbound
      refine ⟨[], [], .notAdded hnot, ?_, absurd rfl, fun _ _ _ => rfl⟩
      rw [after_addDocument_of_not hnot, hwaiting]
      exact .refl _
  | process =>
    obtain ⟨log, dropped, hdrains, hperm, hnone⟩ := exists_drains hr
    refine ⟨log, dropped, .process hdrains, ?_, fun _ => rfl, fun u r' hok => ?_⟩
    · rw [Call.run, after_discard, Call.joining, List.append_nil]
      exact hperm
    · obtain ⟨k, hqueue⟩ := run_discard_eq_ok.mp hok
      exact hnone k r' hqueue
  | finish =>
    obtain ⟨log, dropped, hdrains, hperm, hnone⟩ := exists_drains hr
    refine ⟨log, dropped, .finish hdrains, ?_, fun _ => rfl, fun u r' hok => ?_⟩
    · rw [Call.run, waiting_finish hr, Call.joining, List.append_nil]
      exact hperm
    · obtain ⟨_, r₁, hdiscard, -⟩ := run_bind_eq_ok.mp hok
      obtain ⟨k, hqueue⟩ := run_discard_eq_ok.mp hdiscard
      exact hnone k r₁ hqueue

/-- A call keeps every waiting document, on the queue or among those that it attempts, exactly
if it drops none.  It drops those documents of a round that come after one that fails, so only a
call that fails drops any. -/
theorem waiting_kept_iff {options : RegistryOptions} {r : Registry} (h : Reachable options r)
    (c : Call) : ∃ log dropped, c.Trace r log dropped ∧
      (log.map Attempt.pending ++ dropped ++ (c.run.after r).waiting).Perm
        (r.waiting ++ c.joining r) ∧
      (r.waiting.Subperm ((c.run.after r).waiting ++ log.map Attempt.pending) ↔ dropped = []) ∧
      ∀ u r', c.run.run r = .ok u r' → dropped = [] := by
  obtain ⟨log, dropped, htrace, hperm, hjoining, hok⟩ := exists_trace h.sound c
  refine ⟨log, dropped, htrace, hperm, ?_, hok⟩
  constructor
  · intro hkept
    by_contra hdropped
    have hlength := hperm.length_eq
    have hle := hkept.length_le
    have hpositive := List.length_pos_iff.mpr hdropped
    rw [hjoining hdropped, List.append_nil] at hlength
    simp only [List.length_append] at hlength hle
    omega
  · rintro rfl
    rw [List.append_nil] at hperm
    have hall := (List.perm_append_comm.trans hperm).symm.subperm
    exact (List.sublist_append_left _ _).subperm.trans hall

/-- The classes that a waiting document declares. -/
def declaredBy (pending : PendingDocument) : List String :=
  declaredNamesOfAll (.ofRoot pending.document.root) pending.document.root.children

/-- A call that adds a root class. -/
def addAnimal : Call := .add (documentOf [classElement "Animal"]) .empty

/-- A registry in which two documents wait for the same class; the first of them also holds a
type alias without a name, so it will fail. -/
def brokenQueue : Registry :=
  (Call.add (documentOf [subclassElement "Dog" "Animal"]) .empty).run.after
    ((Call.add (documentOf [subclassElement "Cat" "Animal", { name := "typedef" }])
      .empty).run.after { options := {} })

/-- The broken queue as the class is bound, before the documents that wait for it are. -/
def brokenRound : Registry :=
  (bindDocument (documentOf [classElement "Animal"]) .empty).after brokenQueue

/-- The broken queue can be reached. -/
theorem reachable_brokenQueue : Reachable {} brokenQueue := .call (.call .start _) _

/-- The class itself is bound. -/
theorem run_bindDocument_brokenQueue :
    (bindDocument (documentOf [classElement "Animal"]) .empty).run brokenQueue
      = .ok .bound brokenRound := by
  have hneeded : brokenQueue.extendsNeeded (documentOf [classElement "Animal"]).root = [] := by
    decide +kernel
  obtain ⟨outcome, hrun⟩ := exists_run_of_succeeds (r := brokenQueue)
    (m := bindDocument (documentOf [classElement "Animal"]) .empty) (by decide +kernel)
  have hkeyed := (reachable_brokenQueue.sound).keyed
  obtain rfl := (bindDocument_of_settled .empty hkeyed (settled_iff.mpr hneeded)).2 _ _ hrun
  exact hrun

/-- Every trace of adding the class attempts the first document only. -/
theorem attempted_of_brokenQueue {log : List Attempt} {dropped : List PendingDocument}
    (h : addAnimal.Trace brokenQueue log dropped) :
    log.map (fun attempt => declaredBy attempt.pending) = [["Cat"]] := by
  cases h with
  | notAdded hnot => exact absurd run_bindDocument_brokenQueue (hnot brokenRound)
  | added hbound hdrains =>
    rw [run_bindDocument_brokenQueue] at hbound
    cases hbound
    have hready : brokenRound.takeReady.1 ≠ [] := by decide +kernel
    cases hround : (bindAll brokenRound.takeReady.1).run brokenRound.takeReady.2 with
    | ok n r =>
      have hfails : (bindAll brokenRound.takeReady.1).succeeds brokenRound.takeReady.2 = false := by
        decide +kernel
      simp [Binding.succeeds, hround] at hfails
    | error e r =>
      obtain ⟨rfl, -, -⟩ := (Drains.failure hready hround).unique hdrains
      decide +kernel

/-- A document that waited is lost: the class that it waits for is added, another document that
waited for it fails, and the document is neither on the queue nor was it attempted. -/
theorem waiting_document_lost : Reachable {} brokenQueue ∧
    ∃ pending ∈ brokenQueue.waiting, pending ∉ (addAnimal.run.after brokenQueue).waiting ∧
      ∀ log dropped, addAnimal.Trace brokenQueue log dropped →
        pending ∉ log.map Attempt.pending := by
  have hdog : ∃ pending ∈ brokenQueue.waiting, declaredBy pending = ["Dog"] := by
    decide +kernel
  have hempty : (addAnimal.run.after brokenQueue).waiting.length = 0 := by decide +kernel
  obtain ⟨pending, hpending, hname⟩ := hdog
  refine ⟨reachable_brokenQueue, pending, hpending, ?_, fun log dropped htrace hmem => ?_⟩
  · rw [List.eq_nil_of_length_eq_zero hempty]
    exact List.not_mem_nil
  · obtain ⟨attempt, hattempt, rfl⟩ := List.mem_map.mp hmem
    have hdeclared : ["Dog"] ∈ log.map fun attempt => declaredBy attempt.pending :=
      List.mem_map.mpr ⟨attempt, hattempt, hname⟩
    rw [attempted_of_brokenQueue htrace] at hdeclared
    simp at hdeclared

/-- The documents that wait for a class are accounted for when it is added. -/
theorem waiting_kept_iff_brokenQueue :
    Reachable {} brokenQueue ∧ ∃ log dropped, addAnimal.Trace brokenQueue log dropped ∧
      (log.map Attempt.pending ++ dropped ++ (addAnimal.run.after brokenQueue).waiting).Perm
        (brokenQueue.waiting ++ addAnimal.joining brokenQueue) ∧
      (brokenQueue.waiting.Subperm
        ((addAnimal.run.after brokenQueue).waiting ++ log.map Attempt.pending) ↔ dropped = []) ∧
      ∀ u r', addAnimal.run.run brokenQueue = .ok u r' → dropped = [] :=
  ⟨reachable_brokenQueue, waiting_kept_iff reachable_brokenQueue addAnimal⟩

end Session

end ObjectMapping
