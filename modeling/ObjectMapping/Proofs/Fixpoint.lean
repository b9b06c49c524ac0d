import ObjectMapping.Proofs.Custody
import ObjectMapping.Proofs.Refusal

/-!
# The queue at its fixpoint

As long as every call ends well, the queue of a session is at its fixpoint between the calls:
no waiting document is ready.  A call that binds something works off the queue until nothing
is ready any more, and a document that starts to wait does so because a superclass is missing.
Hence working off the queue once more does nothing, and the session can only be ended if the
queue is empty; otherwise the error names what is missing.
-/

namespace ObjectMapping

open Binding Registry

namespace Session

/-- The registries that a session can reach while all its calls end well. -/
inductive Unfailing (options : RegistryOptions) : Registry → Prop
  | start : Unfailing options { options }
  | add {r r' : Registry} {document : Document} {metas : MetaMap} {outcome : BindOutcome}
      (h : Unfailing options r) (hrun : (addDocument document metas).run r = .ok outcome r') :
      Unfailing options r'
  | process {r r' : Registry} {k : Nat} (h : Unfailing options r)
      (hrun : processQueue.run r = .ok k r') : Unfailing options r'

/-- Calls that end well are calls. -/
theorem Unfailing.reachable {options : RegistryOptions} {r : Registry}
    (h : Unfailing options r) : Reachable options r := by
  induction h with
  | start => exact .start
  | @add _ _ document metas _ _ hrun ih =>
    have hcall := Reachable.call ih (.add document metas)
    rwa [Call.run, after_discard, after_eq_of_ok hrun] at hcall
  | process _ hrun ih =>
    have hcall := Reachable.call ih .process
    rwa [Call.run, after_discard, after_eq_of_ok hrun] at hcall

/-! ## Idle queues -/

/-- No waiting document is ready. -/
def Idle (r : Registry) : Prop := ∀ pending ∈ r.waiting, r.isReady pending = false

instance (r : Registry) : Decidable (Idle r) :=
  inferInstanceAs (Decidable (∀ pending ∈ r.waiting, r.isReady pending = false))

/-- A queue is idle if no document can be taken off it. -/
theorem idle_iff {r : Registry} : Idle r ↔ r.takeReady.1 = [] := by
  unfold Idle Registry.takeReady
  rw [List.filter_eq_nil_iff]
  simp only [Bool.not_eq_true]

/-- A document is not ready if a superclass that it waits for is not registered. -/
theorem not_isReady_iff {r : Registry} {pending : PendingDocument} :
    r.isReady pending = false ↔ ∃ name ∈ pending.missing, r.hasEntity name = false := by
  unfold Registry.isReady
  rw [List.all_eq_false]
  simp only [Bool.not_eq_true]

/-- Looking for documents that are ready changes nothing if there are none. -/
theorem takeReady_of_idle {r : Registry} (h : Idle r) : r.takeReady.2 = r := by
  have hkept : r.waiting.filter (!r.isReady ·) = r.waiting :=
    List.filter_eq_self.mpr fun pending hpending => by simp [h pending hpending]
  unfold Registry.takeReady
  rw [hkept]

/-- Working off an idle queue binds nothing and changes nothing. -/
theorem run_processQueue_of_idle {r : Registry} (h : Idle r) : processQueue.run r = .ok 0 r := by
  have hrun : processQueue.run r = workOff 0 r := rfl
  rw [hrun, workOff]
  dsimp only
  rw [idle_iff.mp h, takeReady_of_idle h]
  rfl

/-- Working off a queue leaves it idle, unless a document fails. -/
theorem idle_of_run_processQueue {r r' : Registry} {k : Nat} (hr : Sound r)
    (hrun : processQueue.run r = .ok k r') : Idle r' := by
  obtain ⟨log, dropped, hdrains⟩ := drains_workOff 0 hr
  have hresult : workOff 0 r = .ok k r' := hrun
  rw [hresult] at hdrains
  exact idle_iff.mpr (hdrains.of_ok hr).2.1

/-- A document that starts to wait leaves an idle queue idle. -/
theorem Idle.enqueue {r : Registry} (h : Idle r) (document : Document) (metas : MetaMap)
    (hneeded : r.extendsNeeded document.root ≠ []) :
    Idle (r.enqueue { document, metas, missing := r.extendsNeeded document.root }) := by
  intro pending hpending
  rcases List.mem_append.mp hpending with hold | hnew
  · exact h pending hold
  · obtain ⟨name, hname⟩ := List.exists_mem_of_ne_nil _ hneeded
    rw [List.mem_singleton.mp hnew]
    exact not_isReady_iff.mpr ⟨name, hname, (mem_extendsNeeded.mp hname).2⟩

/-- Adding a document leaves an idle queue idle, unless a document fails. -/
theorem Idle.addDocument {r r' : Registry} {document : Document} {metas : MetaMap}
    {outcome : BindOutcome} (h : Idle r) (hr : Sound r)
    (hrun : (addDocument document metas).run r = .ok outcome r') : Idle r' := by
  unfold Session.addDocument at hrun
  obtain ⟨outcome, r₁, hfirst, hrun⟩ := run_bind_eq_ok.mp hrun
  by_cases hneeded : r.extendsNeeded document.root = []
  · obtain rfl := (bindDocument_of_settled metas hr.keyed (settled_iff.mpr hneeded)).2 _ _ hfirst
    rw [if_pos rfl] at hrun
    obtain ⟨_, r₂, hworked, hrun⟩ := run_bind_eq_ok.mp hrun
    cases hrun
    obtain ⟨k, hworked⟩ := run_discard_eq_ok.mp hworked
    have hmoves := moves_bindDocument document metas hr.keyed
    rw [after_eq_of_ok hfirst] at hmoves
    exact idle_of_run_processQueue (hmoves.sound hr) hworked
  · rw [run_bindDocument_of_needed metas hneeded] at hfirst
    cases hfirst
    rw [if_neg (by simp)] at hrun
    cases hrun
    exact h.enqueue document metas hneeded

/-- The queue is idle between calls that end well. -/
theorem Unfailing.idle {options : RegistryOptions} {r : Registry} (h : Unfailing options r) :
    Idle r := by
  induction h with
  | start => exact fun _ hpending => absurd hpending List.not_mem_nil
  | add h hrun ih => exact ih.addDocument h.reachable.sound hrun
  | process h hrun => exact idle_of_run_processQueue h.reachable.sound hrun

/-! ## What is still awaited -/

/-- The awaited names are the recorded names of waiting documents that are not registered. -/
theorem mem_awaitedNames {r : Registry} {name : String} :
    name ∈ r.awaitedNames ↔
      ∃ pending ∈ r.waiting, name ∈ pending.missing ∧ r.hasEntity name = false := by
  unfold Registry.awaitedNames
  rw [mem_sortedNames, List.mem_filter, List.mem_flatMap]
  simp only [Bool.not_eq_true']
  constructor
  · rintro ⟨⟨pending, hpending, hname⟩, hnew⟩
    exact ⟨pending, hpending, hname, hnew⟩
  · rintro ⟨pending, hpending, hname, hnew⟩
    exact ⟨⟨pending, hpending, hname⟩, hnew⟩

/-- An idle queue is empty exactly if nothing is awaited. -/
theorem Idle.waiting_eq_nil_iff {r : Registry} (h : Idle r) :
    r.waiting = [] ↔ r.awaitedNames = [] := by
  constructor
  · intro hempty
    refine List.eq_nil_iff_forall_not_mem.mpr fun name hname => ?_
    obtain ⟨pending, hpending, -⟩ := mem_awaitedNames.mp hname
    rw [hempty] at hpending
    exact List.not_mem_nil hpending
  · intro hnone
    refine List.eq_nil_iff_forall_not_mem.mpr fun pending hpending => ?_
    obtain ⟨name, hname, hnew⟩ := not_isReady_iff.mp (h pending hpending)
    have hawaited := mem_awaitedNames.mpr ⟨pending, hpending, hname, hnew⟩
    rw [hnone] at hawaited
    exact List.not_mem_nil hawaited

/-! ## The end of a session -/

/-- Running the deferred passes never blames the superclasses, by induction along the loop. -/
theorem spares_runPasses : Spares runPasses := by
  intro r e r' hrun
  unfold EStateM.run at hrun
  fun_induction runPasses r with
  | case1 => cases hrun
  | case2 r pass rest hnext e₁ r₁ hfailed =>
    cases hrun
    exact spares_run pass rest e r' hfailed
  | case3 r pass rest hnext r₁ hdone hless ih => exact ih hrun
  | case4 => cases hrun

/-- Ending a session is refused while documents wait. -/
theorem run_finish_of_waiting {r : Registry} (h : Idle r) (hwaiting : r.waiting ≠ []) :
    finish.run r = .error (.superclassesNotFound r.awaitedNames) r := by
  unfold finish
  rw [run_bind_of_ok (run_discard_eq_ok (u := ⟨⟩).mpr ⟨0, run_processQueue_of_idle h⟩),
    run_get_bind, if_neg (by rwa [List.isEmpty_iff])]
  rfl

/-- Ending a session runs the deferred passes if no document waits. -/
theorem run_finish_of_empty {r : Registry} (h : r.waiting = []) :
    finish.run r = (do
      runPasses
      Binding.register Registry.applyPropertyReferences : Binding Unit).run r := by
  have hidle : Idle r := by
    intro pending hpending
    rw [h] at hpending
    exact absurd hpending List.not_mem_nil
  unfold finish
  rw [run_bind_of_ok (run_discard_eq_ok (u := ⟨⟩).mpr ⟨0, run_processQueue_of_idle hidle⟩),
    run_get_bind, if_pos (by rw [h]; rfl)]

/-- The end of a session blames the superclasses only if documents wait. -/
theorem waiting_of_finish {r r' : Registry} {names : List String}
    (hrun : finish.run r = .error (.superclassesNotFound names) r') : r.waiting ≠ [] := by
  intro hempty
  rw [run_finish_of_empty hempty] at hrun
  have hspares : Spares (do
      runPasses
      Binding.register Registry.applyPropertyReferences : Binding Unit) :=
    .bind spares_runPasses fun _ => spares_applyPropertyReferences
  exact Bool.noConfusion (hspares r _ r' hrun)

/-- Between calls that end well the queue of a session is at its fixpoint.  Every waiting
document has recorded a superclass that is not registered, so working off the queue once more
binds nothing and changes nothing, and the queue is empty exactly if nothing is awaited.  Ending
the session then fails because of missing superclasses exactly if the queue is not empty, and
the error lists the recorded names that are not registered, each once and in order. -/
theorem queue_at_fixpoint {options : RegistryOptions} {r : Registry} (h : Unfailing options r) :
    (∀ pending ∈ r.waiting, ∃ name ∈ pending.missing, r.hasEntity name = false) ∧
      processQueue.run r = .ok 0 r ∧
      (r.waiting = [] ↔ r.awaitedNames = []) ∧
      ((∃ names r', finish.run r = .error (.superclassesNotFound names) r') ↔
        r.waiting ≠ []) ∧
      ∀ names r', finish.run r = .error (.superclassesNotFound names) r' →
        r' = r ∧ names.Pairwise (· < ·) ∧
          (∀ name, name ∈ names ↔
            ∃ pending ∈ r.waiting, name ∈ pending.missing ∧ r.hasEntity name = false) ∧
          (MappingError.superclassesNotFound names).message =
            "superclasses referenced in extends not found: " ++ String.intercalate ", " names := by
  have hidle := h.idle
  refine ⟨fun pending hpending => not_isReady_iff.mp (hidle pending hpending),
    run_processQueue_of_idle hidle, hidle.waiting_eq_nil_iff, ?_, ?_⟩
  · constructor
    · rintro ⟨names, r', hrun⟩
      exact waiting_of_finish hrun
    · exact fun hwaiting => ⟨_, _, run_finish_of_waiting hidle hwaiting⟩
  · intro names r' hrun
    rw [run_finish_of_waiting hidle (waiting_of_finish hrun)] at hrun
    cases hrun
    exact ⟨rfl, SortedMap.sorted_keys _, fun name => mem_awaitedNames, rfl⟩

/-- A document whose subclass waits for a pet. -/
def dogDocument : Document := documentOf [subclassElement "Dog" "Pet"]

/-- A document whose subclass waits for an animal. -/
def catDocument : Document := documentOf [subclassElement "Cat" "Animal"]

/-- A session in which two documents wait for two classes. -/
def kennel : Registry :=
  (addDocument catDocument).after ((addDocument dogDocument).after { options := {} })

/-- Both documents of the session are added without an error. -/
theorem unfailing_kennel : Unfailing {} kennel := by
  obtain ⟨_, hdog⟩ := exists_run_of_succeeds (m := addDocument dogDocument)
    (r := { options := {} }) (by decide +kernel)
  obtain ⟨_, hcat⟩ := exists_run_of_succeeds (m := addDocument catDocument)
    (r := (addDocument dogDocument).after { options := {} }) (by decide +kernel)
  exact (Unfailing.start.add hdog).add hcat

/-- A session with two waiting documents is at its fixpoint and cannot be ended. -/
theorem queue_at_fixpoint_kennel : Unfailing {} kennel ∧ kennel.waiting.length = 2 ∧
    processQueue.run kennel = .ok 0 kennel ∧
      ∃ names r', finish.run kennel = .error (.superclassesNotFound names) r' ∧
        "Animal" ∈ names ∧ "Pet" ∈ names := by
  obtain ⟨-, hidle, -, hends, hnames⟩ := queue_at_fixpoint unfailing_kennel
  have hlength : kennel.waiting.length = 2 := by decide +kernel
  have hwaiting : kennel.waiting ≠ [] := by
    intro hempty
    rw [hempty] at hlength
    cases hlength
  obtain ⟨names, r', hrun⟩ := hends.mpr hwaiting
  obtain ⟨-, -, hlisted, -⟩ := hnames names r' hrun
  exact ⟨unfailing_kennel, hlength, hidle, names, r', hrun,
    (hlisted "Animal").mpr (by decide +kernel), (hlisted "Pet").mpr (by decide +kernel)⟩

end Session

end ObjectMapping
