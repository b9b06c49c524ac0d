import ObjectMapping.Proofs.ArrivalOrder
import ObjectMapping.Proofs.Declaration
import ObjectMapping.Proofs.Source
import ObjectMapping.Proofs.Upkeep

/-!
# Driven sessions

A caller drives a session by calls, and by running the deferred passes one at a time, in any
order and whether or not what went before ended well.  `Session.Driven` are the registries that it
can be driven to by calls with some documents.

Where it matters with which meta attributes a document arrives, `Session.Fed` takes the place of
`Session.Driven`.

Whatever is kept by binding one of these documents, by a single pass, and by applying the recorded
references is kept by every call: the two loops that work off the queues keep it because each of
their rounds does.  `Session.Upkept` lists what has to be shown of an upkeep, and then every driven
registry has its invariant.
-/

namespace ObjectMapping

open Binding Registry

namespace Session

variable {r : Registry}

/-! ## Driven registries -/

/-- The document that a call is about. -/
def Call.document? : Call → Option Document
  | bind document _ | add document _ => some document
  | process | finish => none

/-- The document that a call is about, with its meta attributes. -/
def Call.arrival? : Call → Option Arrival
  | bind document metas | add document metas => some ⟨document, metas⟩
  | process | finish => none

/-- A call is about the document that it brings. -/
theorem Call.document?_of_arrival? {c : Call} {arrival : Arrival} (h : c.arrival? = some arrival) :
    c.document? = some arrival.document := by
  cases c <;> cases h <;> rfl

/-- The registries that calls with some documents, and single deferred passes, can drive an
empty one to, whether they end well or not. -/
inductive Driven (options : RegistryOptions) (documents : Document → Prop) : Registry → Prop
  | start : Driven options documents { options }
  | call {r : Registry} (h : Driven options documents r) (c : Call)
      (hdocument : ∀ document, c.document? = some document → documents document) :
      Driven options documents (c.run.after r)
  | pass {r rest : Registry} {pass : DeferredPass} (h : Driven options documents r)
      (hnext : r.nextPass? = some (pass, rest)) : Driven options documents (pass.run.after rest)

/-- The registries that calls with some arrivals, and single deferred passes, can drive an empty
one to, whether they end well or not. -/
inductive Fed (options : RegistryOptions) (arrives : Arrival → Prop) : Registry → Prop
  | start : Fed options arrives { options }
  | call {r : Registry} (h : Fed options arrives r) (c : Call)
      (harrival : ∀ arrival, c.arrival? = some arrival → arrives arrival) :
      Fed options arrives (c.run.after r)
  | pass {r rest : Registry} {pass : DeferredPass} (h : Fed options arrives r)
      (hnext : r.nextPass? = some (pass, rest)) : Fed options arrives (pass.run.after rest)

/-- A session that is driven with some documents is driven with these and others. -/
theorem Driven.mono {options : RegistryOptions} {documents documents' : Document → Prop}
    (h : Driven options documents r) (hmono : ∀ d, documents d → documents' d) :
    Driven options documents' r := by
  induction h with
  | start => exact .start
  | call _ c hdocument ih => exact ih.call c fun d hd => hmono d (hdocument d hd)
  | pass _ hnext ih => exact ih.pass hnext

/-- A driven session is fed with its documents, whatever meta attributes they arrive with. -/
theorem Driven.fed {options : RegistryOptions} {documents : Document → Prop}
    (h : Driven options documents r) :
    Fed options (fun arrival => documents arrival.document) r := by
  induction h with
  | start => exact .start
  | call _ c hdocument ih =>
    exact ih.call c fun arrival h => hdocument arrival.document (Call.document?_of_arrival? h)
  | pass _ hnext ih => exact ih.pass hnext

/-- Documents may be added one after another. -/
theorem Driven.addAll {options : RegistryOptions} {documents : Document → Prop}
    {arrivals : List Arrival} (hdocuments : ∀ arrival ∈ arrivals, documents arrival.document)
    {r r' : Registry} (h : Driven options documents r)
    (hrun : (addAll arrivals).run r = .ok () r') : Driven options documents r' := by
  induction arrivals generalizing r with
  | nil =>
    cases hrun
    exact h
  | cons arrival rest ih =>
    rw [List.forall_mem_cons] at hdocuments
    obtain ⟨_, r₁, hfirst, hrest⟩ := run_bind_eq_ok.mp hrun
    have hadded := h.call (.add arrival.document arrival.metas) fun document hdocument =>
      Option.some.inj hdocument ▸ hdocuments.1
    rw [Call.run, after_eq_of_ok hfirst] at hadded
    exact ih hdocuments.2 hadded hrest

/-- A document is one of those that arrive. -/
def Arrives (arrivals : List Arrival) (document : Document) : Prop :=
  ∃ arrival ∈ arrivals, arrival.document = document

/-- A registry that is the result of a build: some documents are added to an empty session, the
session is ended, and all of it goes well. -/
def Built (options : RegistryOptions) (arrivals : List Arrival) (r : Registry) : Prop :=
  ∃ r₀, (addAll arrivals).run { options } = .ok () r₀ ∧ finish.run r₀ = .ok () r

/-- If neither adding the documents nor the end of the session fails, that is a build. -/
theorem built_of_succeeds {options : RegistryOptions} {arrivals : List Arrival}
    (hadded : (addAll arrivals).succeeds { options } = true)
    (hfinished : finish.succeeds ((addAll arrivals).after { options }) = true) :
    Built options arrivals (finish.after ((addAll arrivals).after { options })) := by
  obtain ⟨⟨⟩, hadded⟩ := exists_run_of_succeeds hadded
  obtain ⟨⟨⟩, hfinished⟩ := exists_run_of_succeeds hfinished
  exact ⟨_, hadded, hfinished⟩

/-- A build drives a session with its own documents. -/
theorem Built.driven {options : RegistryOptions} {arrivals : List Arrival}
    (h : Built options arrivals r) : Driven options (Arrives arrivals) r := by
  obtain ⟨r₀, hadded, hfinished⟩ := h
  have hstart : Driven options (Arrives arrivals) { options } := .start
  have hdriven := hstart.addAll (fun arrival harrival => ⟨arrival, harrival, rfl⟩) hadded
  have hended := hdriven.call .finish nofun
  rwa [Call.run, after_eq_of_ok hfinished] at hended

/-! ## Supplied registries -/

/-- The registries that calls with some documents can drive an empty one to before the session is
ended, whether they end well or not. -/
inductive Supplied (options : RegistryOptions) (documents : Document → Prop) : Registry → Prop
  | start : Supplied options documents { options }
  | call {r : Registry} (h : Supplied options documents r) (c : Call) (hopen : c ≠ .finish)
      (hdocument : ∀ document, c.document? = some document → documents document) :
      Supplied options documents (c.run.after r)

theorem Supplied.isOpen {options : RegistryOptions} {documents : Document → Prop}
    (h : Supplied options documents r) : Open options r := by
  induction h with
  | start => exact .start
  | call _ c hopen _ ih => exact ih.call c hopen

theorem Supplied.driven {options : RegistryOptions} {documents : Document → Prop}
    (h : Supplied options documents r) : Driven options documents r := by
  induction h with
  | start => exact .start
  | call _ c _ hdocument ih => exact ih.call c hdocument

/-- An open session is supplied with some documents or other. -/
theorem Open.supplied {options : RegistryOptions} (h : Open options r) :
    Supplied options (fun _ => True) r := by
  induction h with
  | start => exact .start
  | call _ c hopen ih => exact ih.call c hopen fun _ _ => trivial

/-- What some documents and the options of a registry say. -/
def sourceOf (options : RegistryOptions) (documents : Document → Prop) : Source where
  naming := ({ options } : Registry).naming
  documents := documents

/-! ## Upkeep of a session -/

/-- An upkeep that is kept by documents, passes and references, one at a time. -/
structure Upkept (U : Upkeep) (arrives : Arrival → Prop) : Prop where
  waiting : ∀ {r : Registry}, U.invariant r → ∀ pending ∈ r.waiting, arrives (arrivalOf pending)
  /-- The queue of waiting documents may be changed for another one. -/
  setWaiting : ∀ {r : Registry} {waiting : List PendingDocument}, U.invariant r →
    (∀ pending ∈ waiting, arrives (arrivalOf pending)) → U.Advances r { r with waiting }
  upholds_bindRoot : ∀ {r : Registry} {document : Document} (metas : MetaMap),
    arrives ⟨document, metas⟩ → Upholds U (bindRoot document.root metas) r fun _ _ => True
  /-- The pass at the head of the queue may be run. -/
  nextPass : ∀ {r rest : Registry} {pass : DeferredPass}, U.invariant r →
    r.nextPass? = some (pass, rest) → U.Advances r (pass.run.after rest)
  applyPropertyReferences : ∀ {r r' : Registry}, U.invariant r →
    r.applyPropertyReferences = .ok r' → U.Advances r r'

namespace Upkept

variable {U : Upkeep} {arrives : Arrival → Prop} (h : Upkept U arrives)
include h

/-- A document is bound, or waits. -/
theorem upholds_bindDocument {document : Document} {metas : MetaMap}
    (harrives : arrives ⟨document, metas⟩) :
    Upholds U (bindDocument document metas) r fun _ _ => True := by
  unfold bindDocument
  refine .get_bind (.ite (fun _ => ?_) fun _ => ?_)
  · exact .bind (h.upholds_bindRoot metas harrives) fun _ _ _ _ => .pure trivial
  · refine .bind (.write fun hr => h.setWaiting hr fun pending hpending => ?_)
      fun _ _ _ _ => .pure trivial
    rcases List.mem_append.mp hpending with hold | hnew
    · exact h.waiting hr pending hold
    · cases List.mem_singleton.mp hnew
      exact harrives

theorem upholds_bindAll {batch : List PendingDocument}
    (hbatch : ∀ pending ∈ batch, arrives (arrivalOf pending)) :
    Upholds U (bindAll batch) r fun _ _ => True := by
  induction batch generalizing r with
  | nil => exact .pure trivial
  | cons pending rest ih =>
    rw [List.forall_mem_cons] at hbatch
    refine .bind (h.upholds_bindDocument hbatch.1) fun _ r₁ _ _ => ?_
    exact .bind (ih hbatch.2) fun _ _ _ _ => .pure trivial

/-- Working off the queue of waiting documents, by induction on the number of documents that
wait. -/
theorem upholds_workOff (bound : Nat) : Upholds U (workOff bound) r fun _ _ => True := by
  intro hr
  refine ⟨?_, fun _ _ _ => trivial⟩
  show U.Advances r (registryOf (workOff bound r))
  induction hlength : backlog r using Nat.strongRecOn generalizing bound r with
  | ind length ih =>
    have htake : U.Advances r r.takeReady.2 :=
      h.setWaiting hr fun pending hpending => h.waiting hr pending (List.mem_filter.mp hpending).1
    have hround : Upholds U (bindAll r.takeReady.1) r.takeReady.2 fun _ _ => True :=
      h.upholds_bindAll fun pending hpending => h.waiting hr pending (List.mem_filter.mp hpending).1
    have hafter := htake.trans (hround.advances htake.invariant)
    rw [workOff]
    dsimp only
    split
    · exact htake
    · cases hrun : (bindAll r.takeReady.1).run r.takeReady.2 with
      | error e r' =>
        rw [after_eq_of_error hrun] at hafter
        exact hafter
      | ok n r' =>
        rw [after_eq_of_ok hrun] at hafter
        dsimp only
        split
        · next hless => exact hafter.trans (ih _ (hlength ▸ hless) _ hafter.invariant rfl)
        · exact hafter

theorem upholds_addDocument {document : Document} {metas : MetaMap}
    (harrives : arrives ⟨document, metas⟩) :
    Upholds U (addDocument document metas) r fun _ _ => True := by
  unfold addDocument
  refine .bind (h.upholds_bindDocument harrives) fun outcome r₁ _ _ => ?_
  exact .optional (fun _ => (h.upholds_workOff 0).discard) fun _ _ => .pure trivial

/-- Running all deferred passes, by induction along the loop. -/
theorem upholds_runPasses : Upholds U runPasses r fun _ _ => True := by
  intro hr
  refine ⟨?_, fun _ _ _ => trivial⟩
  unfold Binding.after EStateM.run
  fun_induction runPasses r with
  | case1 r hnone => exact .refl hr
  | case2 r pass rest hnext e r' hrun =>
    rw [← after_eq_of_error hrun]
    exact h.nextPass hr hnext
  | case3 r pass rest hnext r' hrun hless ih =>
    have hpass := h.nextPass hr hnext
    rw [after_eq_of_ok hrun] at hpass
    exact hpass.trans (ih hpass.invariant)
  | case4 r pass rest hnext r' hrun hless =>
    rw [← after_eq_of_ok hrun]
    exact h.nextPass hr hnext

theorem upholds_finish : Upholds U finish r fun _ _ => True := by
  unfold finish
  refine .bind (h.upholds_workOff 0).discard fun _ r₁ _ _ => .get_bind ?_
  have hrest : ∀ r', Upholds U (do
      Session.runPasses
      Binding.register Registry.applyPropertyReferences) r' fun _ _ => True :=
    fun r' => .bind h.upholds_runPasses fun _ r₂ _ _ =>
      .register fun r₃ hr hrefs => ⟨h.applyPropertyReferences hr hrefs, trivial⟩
  exact .ite (fun _ => hrest r₁) fun _ => .throw_bind _ _

/-- A call that brings one of the arrivals, or none. -/
theorem upholds_call {c : Call}
    (harrival : ∀ arrival, c.arrival? = some arrival → arrives arrival) :
    Upholds U c.run r fun _ _ => True := by
  cases c with
  | bind document metas => exact (h.upholds_bindDocument (harrival _ rfl)).discard
  | add document metas => exact (h.upholds_addDocument (harrival _ rfl)).discard
  | process => exact (h.upholds_workOff 0).discard
  | finish => exact h.upholds_finish

/-- Every registry that a session is fed to keeps what the empty one had, and has the invariant if
that had it. -/
theorem advances_of_fed {options : RegistryOptions} (hstart : U.invariant { options })
    (hr : Fed options arrives r) : U.Advances { options } r := by
  induction hr with
  | start => exact .refl hstart
  | call _ c harrival ih => exact ih.trans ((h.upholds_call harrival).advances ih.invariant)
  | pass _ hnext ih => exact ih.trans (h.nextPass ih.invariant hnext)

omit h in
/-- So does every registry that a session is driven to. -/
theorem advances_of_driven {documents : Document → Prop}
    (h : Upkept U fun arrival => documents arrival.document) {options : RegistryOptions}
    (hstart : U.invariant { options }) (hr : Driven options documents r) :
    U.Advances { options } r :=
  h.advances_of_fed hstart hr.fed

omit h in
/-- Which documents these are does not matter to an upkeep that is kept by all of them. -/
theorem advances_of_any {documents : Document → Prop} (h : Upkept U fun _ => True)
    {options : RegistryOptions} (hstart : U.invariant { options })
    (hr : Driven options documents r) : U.Advances { options } r := by
  have hany : Driven options (fun _ => True) r := hr.mono fun _ _ => trivial
  exact h.advances_of_fed hstart hany.fed

end Upkept

end Session

end ObjectMapping
