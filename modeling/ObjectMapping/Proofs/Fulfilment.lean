import ObjectMapping.Proofs.Redefinition

/-!
# Sessions in which nothing fails

If every call of a session ends well, each document that was brought to it has been bound without an
error, or waits.  So what binding a document brings about, and what nothing that happens later
undoes, holds of every document that does not wait.  `Session.Fulfils` lists what has to be shown of
such a property: that a document that is bound has it, and that passes and references keep it.

The document may be bound by the call that brings it or by a later one, when the classes that it
needs are there; `Session.Settles` is the account of this, which is kept along the queue.
-/

namespace ObjectMapping

open Binding Registry

namespace Session

/-- The registries that calls can drive an empty one to if each of them ends well, with the
documents that they bring. -/
inductive Flawless (options : RegistryOptions) : List Arrival → Registry → Prop
  | start : Flawless options [] { options }
  | call {arrivals : List Arrival} {r r' : Registry} (h : Flawless options arrivals r) (c : Call)
      (hrun : c.run.run r = .ok () r') : Flawless options (arrivals ++ c.arrival?.toList) r'

/-- A build is such a session. -/
theorem Built.flawless {options : RegistryOptions} {arrivals : List Arrival} {r : Registry}
    (h : Built options arrivals r) : Flawless options arrivals r := by
  obtain ⟨r₀, hadded, hfinished⟩ := h
  have hall : ∀ {before arrivals : List Arrival} {r r' : Registry}, Flawless options before r →
      (addAll arrivals).run r = .ok () r' → Flawless options (before ++ arrivals) r' := by
    intro before arrivals
    induction arrivals generalizing before with
    | nil =>
      intro r r' hbefore hrun
      cases hrun
      rwa [List.append_nil]
    | cons arrival rest ih =>
      intro r r' hbefore hrun
      obtain ⟨_, r₁, hfirst, hrest⟩ := run_bind_eq_ok.mp hrun
      have hone := hbefore.call (.add arrival.document arrival.metas) hfirst
      have hmore := ih hone hrest
      rwa [List.append_assoc] at hmore
  have hended := (hall .start hadded).call .finish hfinished
  rwa [show Call.finish.arrival?.toList = [] from rfl, List.append_nil, List.nil_append] at hended

/-- Such a session is driven with the documents of its arrivals. -/
theorem Flawless.driven {options : RegistryOptions} {arrivals : List Arrival} {r : Registry}
    (h : Flawless options arrivals r) : Driven options (Arrives arrivals) r := by
  induction h with
  | start => exact .start
  | @call before r r' _ c hrun ih =>
    have hbefore : Driven options (Arrives (before ++ c.arrival?.toList)) r := ih.mono
      fun _ ⟨arrival, harrival, hsame⟩ => ⟨arrival, List.mem_append_left _ harrival, hsame⟩
    rw [← after_eq_of_ok hrun]
    refine hbefore.call c fun document hdocument => ?_
    cases c with
    | bind _ metas | add _ metas =>
      cases hdocument
      exact ⟨⟨document, metas⟩, List.mem_append_right _ (List.mem_singleton_self _), rfl⟩
    | process | finish => cases hdocument

/-- Something that every document brings about when it is bound, and that is kept from then on. -/
structure Fulfils (U : Upkeep) (done : Element → Registry → Prop)
    (later : Registry → Registry → Prop) : Prop where
  upkept : Upkept U fun _ => True
  refl : ∀ r, later r r
  trans : ∀ {r r' r''}, later r r' → later r' r'' → later r r''
  kept : ∀ {root r r'}, done root r → later r r' → done root r'
  setWaiting : ∀ r waiting, later r { r with waiting }
  upholds_bindRoot : ∀ {r} root metas,
    Upholds U (bindRoot root metas) r fun _ r' => later r r' ∧ done root r'
  nextPass : ∀ {r rest r' : Registry} {pass : DeferredPass}, U.invariant r →
    r.nextPass? = some (pass, rest) → pass.run.run rest = .ok () r' → later r r'
  applyPropertyReferences : ∀ {r r' : Registry}, r.applyPropertyReferences = .ok r' → later r r'

/-- What was brought about is kept, and the documents that waited, and those that are brought, have
been bound or still wait. -/
structure Settles (done : Element → Registry → Prop) (later : Registry → Registry → Prop)
    (brought : List Arrival) (r r' : Registry) : Prop where
  later : later r r'
  settled : ∀ arrival ∈ r.waiting.map arrivalOf ++ brought,
    arrival ∈ r'.waiting.map arrivalOf ∨ done arrival.document.root r'

/-- Nothing is settled if what was brought about is kept and the queue is as before. -/
theorem Settles.of_later {done : Element → Registry → Prop} {later : Registry → Registry → Prop}
    {r r' : Registry} (hlater : later r r') (hwaiting : r'.waiting = r.waiting) :
    Settles done later [] r r' := by
  refine ⟨hlater, fun arrival harrival => .inl ?_⟩
  rwa [hwaiting, ← List.append_nil (r.waiting.map arrivalOf)]

namespace Fulfils

variable {U : Upkeep} {done : Element → Registry → Prop} {later : Registry → Registry → Prop}
  (h : Fulfils U done later) {brought brought' : List Arrival} {r r' r'' : Registry}
include h

/-- What two parts settle is settled by both together. -/
theorem settles_trans (hfirst : Settles done later brought r r')
    (hsecond : Settles done later brought' r' r'') :
    Settles done later (brought ++ brought') r r'' := by
  refine ⟨h.trans hfirst.later hsecond.later, fun arrival harrival => ?_⟩
  rw [← List.append_assoc] at harrival
  rcases List.mem_append.mp harrival with hold | hnew
  · rcases hfirst.settled arrival hold with hwaits | hdone
    · exact hsecond.settled arrival (List.mem_append_left _ hwaits)
    · exact .inr (h.kept hdone hsecond.later)
  · exact hsecond.settled arrival (List.mem_append_right _ hnew)

/-- A document is bound, or waits. -/
theorem upholds_bindDocument (document : Document) (metas : MetaMap) :
    Upholds U (bindDocument document metas) r
      fun _ r' => Settles done later [⟨document, metas⟩] r r' := by
  unfold bindDocument
  refine .get_bind (.ite (fun _ => ?_) fun _ => ?_)
  · refine .bind ((h.upholds_bindRoot document.root metas).of_run fun _ r₁ hrun hpost =>
      And.intro hpost (?_ : r₁.waiting = r.waiting)) fun _ r₁ _ hbound => .pure ?_
    · rw [← after_eq_of_ok hrun]
      exact waiting_bindRoot document.root metas r
    · obtain ⟨⟨hlater, hdone⟩, hwaiting⟩ := hbound
      refine ⟨hlater, fun arrival harrival => ?_⟩
      rw [hwaiting]
      refine (List.mem_append.mp harrival).imp id fun hnew => ?_
      rw [List.mem_singleton.mp hnew]
      exact hdone
  · refine .bind (.modify fun hr => ⟨h.upkept.setWaiting hr fun _ _ => trivial, ?_⟩)
      fun _ _ _ hsettles => .pure hsettles
    refine ⟨h.setWaiting r _, fun arrival harrival => .inl ?_⟩
    have hqueue : (r.enqueue ⟨document, metas, r.extendsNeeded document.root⟩).waiting.map arrivalOf
        = r.waiting.map arrivalOf ++ [⟨document, metas⟩] := List.map_append
    rwa [hqueue]

/-- So is each document of a batch, or waits again. -/
theorem upholds_bindAll (batch : List PendingDocument) : Upholds U (bindAll batch) r
    fun _ r' => Settles done later (batch.map arrivalOf) r r' := by
  induction batch generalizing r with
  | nil => exact .pure (.of_later (h.refl r) rfl)
  | cons pending rest ih =>
    refine .bind (h.upholds_bindDocument pending.document pending.metas) fun _ r₁ _ hfirst => ?_
    exact .bind ih fun _ r₂ _ hrest => .pure (h.settles_trans hfirst hrest)

/-- The documents that wait are those that are taken off the queue and those that stay on it. -/
theorem settles_takeReady
    (hbound : Settles done later (r.takeReady.1.map arrivalOf) r.takeReady.2 r') :
    Settles done later [] r r' := by
  refine ⟨h.trans (h.setWaiting r _) hbound.later, fun arrival harrival => ?_⟩
  rw [List.append_nil] at harrival
  obtain ⟨pending, hpending, rfl⟩ := List.mem_map.mp harrival
  refine hbound.settled _ ?_
  cases hready : r.isReady pending with
  | true =>
    exact List.mem_append_right _ (List.mem_map_of_mem (List.mem_filter.mpr ⟨hpending, hready⟩))
  | false =>
    refine List.mem_append_left _ (List.mem_map_of_mem (List.mem_filter.mpr ⟨hpending, ?_⟩))
    rw [hready]
    rfl

/-- Working off the queue of waiting documents, by induction on the number of documents that
wait. -/
theorem upholds_workOff (bound : Nat) :
    Upholds U (workOff bound) r fun _ r' => Settles done later [] r r' := by
  refine fun hr => ⟨(h.upkept.upholds_workOff bound).advances hr, fun n r'' hrun => ?_⟩
  replace hrun : workOff bound r = .ok n r'' := hrun
  induction hlength : backlog r using Nat.strongRecOn generalizing bound r with
  | ind length ih =>
    have htake : U.Advances r r.takeReady.2 := h.upkept.setWaiting hr fun _ _ => trivial
    rw [workOff] at hrun
    dsimp only at hrun
    split at hrun
    · next hnone =>
      cases hrun
      refine h.settles_takeReady ?_
      rw [List.isEmpty_iff.mp hnone]
      exact .of_later (h.refl _) rfl
    · split at hrun
      · cases hrun
      · next n₁ r₁ hround =>
        obtain ⟨hadvances, hsettles⟩ :=
          (h.upholds_bindAll r.takeReady.1).of_ok htake.invariant hround
        have hfirst := h.settles_takeReady hsettles
        split at hrun
        · next hless =>
          exact h.settles_trans hfirst (ih _ (hlength ▸ hless) _ hadvances.invariant hrun rfl)
        · cases hrun
          exact hfirst

/-- A document that is added is bound, or waits, and so are those it lets bind. -/
theorem upholds_addDocument (document : Document) (metas : MetaMap) :
    Upholds U (addDocument document metas) r
      fun _ r' => Settles done later [⟨document, metas⟩] r r' := by
  unfold addDocument
  refine .bind (h.upholds_bindDocument document metas) fun outcome r₁ _ hfirst => ?_
  refine .ite (fun _ => ?_) fun _ => .pure hfirst
  refine .bind (.bind (h.upholds_workOff 0) fun _ r₂ _ hworked => .pure ?_) fun _ r₃ _ hall =>
    .pure hall
  have hall := h.settles_trans hfirst hworked
  rwa [List.append_nil] at hall

/-- A pass brings no document. -/
theorem settles_pass {rest : Registry} {pass : DeferredPass} (hr : U.invariant r)
    (hnext : r.nextPass? = some (pass, rest)) (hrun : pass.run.run rest = .ok () r') :
    Settles done later [] r r' := by
  have hwaiting := (frame_pass hnext).2
  rw [after_eq_of_ok hrun] at hwaiting
  exact .of_later (h.nextPass hr hnext hrun) hwaiting

/-- Running all deferred passes, by induction along the loop. -/
theorem upholds_runPasses : Upholds U runPasses r fun _ r' => Settles done later [] r r' := by
  refine fun hr => ⟨h.upkept.upholds_runPasses.advances hr, fun u r'' hrun => ?_⟩
  replace hrun : runPasses r = .ok () r'' := hrun
  fun_induction runPasses r with
  | case1 r hnone =>
    cases hrun
    exact .of_later (h.refl _) rfl
  | case2 r pass rest hnext e r' hpass => cases hrun
  | case3 r pass rest hnext r' hpass hless ih =>
    have hadvances := h.upkept.nextPass hr hnext
    rw [after_eq_of_ok hpass] at hadvances
    have hfirst := h.settles_pass hr hnext hpass
    exact h.settles_trans hfirst (ih hadvances.invariant hrun)
  | case4 r pass rest hnext r' hpass hless =>
    cases hrun
    exact h.settles_pass hr hnext hpass

/-- Finishing brings no document. -/
theorem upholds_finish : Upholds U finish r fun _ r' => Settles done later [] r r' := by
  have hqueue : Upholds U (discard processQueue) r fun _ r' => Settles done later [] r r' :=
    .bind (h.upholds_workOff 0) fun _ _ _ hworked => .pure hworked
  unfold finish
  refine .bind hqueue fun _ r₁ _ hworked => .get_bind ?_
  have hrest : Upholds U (do
      Session.runPasses
      Binding.register Registry.applyPropertyReferences) r₁ fun _ r' =>
        Settles done later [] r r' := by
    refine .bind h.upholds_runPasses fun _ r₂ _ hpassed => .register fun r₃ hr happlied => ?_
    refine ⟨h.upkept.applyPropertyReferences hr happlied, ?_⟩
    obtain ⟨entities, hframe⟩ := (marks_of_applyPropertyReferences happlied).1.frame
    have hmarked : Settles done later [] r₂ r₃ :=
      .of_later (h.applyPropertyReferences happlied) (by rw [hframe])
    exact h.settles_trans (h.settles_trans hworked hpassed) hmarked
  exact .ite (fun _ => hrest) fun _ => .throw_bind _ _

/-- Every call settles the document that it brings, if any. -/
theorem upholds_call (c : Call) : Upholds U c.run r
    fun _ r' => Settles done later c.arrival?.toList r r' := by
  cases c with
  | bind document metas =>
    exact .bind (h.upholds_bindDocument document metas) fun _ _ _ hsettles => .pure hsettles
  | add document metas =>
    exact .bind (h.upholds_addDocument document metas) fun _ _ _ hsettles => .pure hsettles
  | process => exact .bind (h.upholds_workOff 0) fun _ _ _ hsettles => .pure hsettles
  | finish => exact h.upholds_finish

/-- In a session in which nothing fails, every document that does not wait has brought about what it
was to. -/
theorem of_flawless {options : RegistryOptions} (hstart : U.invariant { options })
    {arrivals : List Arrival} (hr : Flawless options arrivals r) :
    U.invariant r ∧ ∀ arrival ∈ arrivals,
      arrival ∈ r.waiting.map arrivalOf ∨ done arrival.document.root r := by
  induction hr with
  | start => exact ⟨hstart, List.forall_mem_nil _⟩
  | call _ c hrun ih =>
    obtain ⟨hadvances, hsettles⟩ := (h.upholds_call c).of_ok ih.1 hrun
    refine ⟨hadvances.invariant, fun arrival harrival => ?_⟩
    rcases List.mem_append.mp harrival with hold | hnew
    · rcases ih.2 arrival hold with hwaits | hdone
      · exact hsettles.settled arrival (List.mem_append_left _ hwaits)
      · exact .inr (h.kept hdone hsettles.later)
    · exact hsettles.settled arrival (List.mem_append_right _ hnew)

/-- What passes from the registry before a document, a pass or the references to the one after
passes through the whole session. -/
theorem later_of_flawless {options : RegistryOptions} (hstart : U.invariant { options })
    {arrivals : List Arrival} (hr : Flawless options arrivals r) : later { options } r := by
  induction hr with
  | start => exact h.refl _
  | call hbefore c hrun ih =>
    obtain ⟨hinvariant, -⟩ := h.of_flawless hstart hbefore
    exact h.trans ih ((h.upholds_call c).of_ok hinvariant hrun).2.later

end Fulfils

end Session

end ObjectMapping
