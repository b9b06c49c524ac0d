import ObjectMapping.Proofs.Driven
import ObjectMapping.Proofs.Marking

/-!
# What a session writes

Every call of a session, and every single deferred pass, is a number of small writes, whether it
ends well or in an error.  Documents declare; passes prepare, show collections from the side of
their elements, and write collections back; the end of a session marks properties.  What each of
these writes keeps is kept by every run.
-/

namespace ObjectMapping

open Binding Registry

/-! ## Deferred passes -/

/-- One step of a deferred pass that writes no collection back. -/
inductive Registry.Showing : Registry → Registry → Prop
  | prepare {r r' : Registry} (h : Preparation r r') : Showing r r'
  /-- A collection is shown to the entity of its elements, outside the natural identifier. -/
  | reveal (r : Registry) (name : String) {p : Property} (h : p.naturalIdentifier = false) :
      Showing r (r.modifyEntity name (·.addProperty p))

/-- One step of a deferred pass. -/
inductive Registry.Passing : Registry → Registry → Prop
  | prepare {r r' : Registry} (h : Preparation r r') : Passing r r'
  /-- A collection is shown to the entity of its elements, outside the natural identifier. -/
  | reveal (r : Registry) (name : String) {p : Property} (h : p.naturalIdentifier = false) :
      Passing r (r.modifyEntity name (·.addProperty p))
  /-- A collection is written back. -/
  | store (r : Registry) (c : Collection) : Passing r (r.modifyCollection c.role fun _ => c)

theorem Registry.Showing.passing {r r' : Registry} (h : Showing r r') : Passing r r' := by
  cases h with
  | prepare h => exact .prepare h
  | reveal name h => exact .reveal r name h

/-- Preparation is part of a pass. -/
theorem Binding.Prepares.showing {α : Type} {m : Binding α} (h : m.Prepares) :
    Makes Showing m :=
  Makes.mono h fun _ _ hstep => .single (.prepare hstep)

/-- A backref is no part of a natural identifier. -/
theorem naturalIdentifier_of_backref? {c : Collection} {node : Element} {kind : BackrefKind}
    {name : String} {p : Property} (h : c.backref? node kind = some (name, p)) :
    p.naturalIdentifier = false := by
  unfold Collection.backref? at h
  split at h
  · split at h
    · cases h
    · obtain ⟨⟨_, _, _⟩, -, hp⟩ := Option.map_eq_some_iff.mp h
      cases hp
      rfl
  · cases h

theorem showing_addBackref (node : Element) (c : Collection) (kind : BackrefKind) :
    Makes Showing (addBackref node c kind) := by
  unfold addBackref
  split
  · exact .pure _
  · next hshown =>
    have hordinary := naturalIdentifier_of_backref? hshown
    exact .bind .get fun _ => .ite (.modify fun r => .single (.reveal r _ hordinary)) (.throw _)

theorem showing_addIndexBackref (node : Element) (c : Collection) :
    Makes Showing (addIndexBackref node c) := by
  unfold addIndexBackref
  exact .ite (.pure _) (showing_addBackref _ _ _)

/-- Binding the key and element of a collection. -/
theorem showing_bindContents (pass : CollectionPass) : Makes Showing (bindContents pass) := by
  unfold bindContents
  refine .bind .get fun _ => .bind (.require _ _) fun c => ?_
  refine .bind (steady_find _).prepares.showing fun owner => .bind .get fun _ => ?_
  refine .bind (.ofExcept _) fun c => ?_
  refine .bind (steady_bindCollectionCheck _ _).prepares.showing fun c => ?_
  refine .bind (prepares_bindContentsOf _ _ _ _).showing fun c => ?_
  refine .bind (Prepares.showing (.modify fun r =>
    (quietWrites_constrainContents r _ _).preparations)) fun _ => ?_
  exact .bind (showing_addBackref _ _ _) fun _ => .pure _

/-- Binding what a collection has besides its key and element. -/
theorem showing_bindIndexing (kind : PassKind) (pass : CollectionPass) (c : Collection) :
    Makes Showing (bindIndexing kind pass c) := by
  cases kind with
  | plain => exact .pure _
  | identifierBag => exact (steady_bindBagIdentifier _ _).prepares.showing
  | list =>
    refine .bind (.require _ _) fun node => ?_
    refine .bind (steady_bindSimpleValue _ _).prepares.showing fun v => ?_
    exact .bind (.ofExcept _) fun base => .bind (showing_addIndexBackref _ _) fun _ => .pure _
  | map =>
    refine .bind (prepares_bindMapKeys _ _ _).showing fun c => ?_
    exact .ite (.throw_bind _ _) (.bind (showing_addIndexBackref _ _) fun _ => .pure _)

/-- A deferred pass takes its own steps only. -/
theorem passing_run (pass : DeferredPass) : Makes Passing pass.run := by
  have hpassing : ∀ {α : Type} {m : Binding α}, Makes Showing m → Makes Passing m :=
    fun h => Makes.mono h fun _ _ hstep => .single hstep.passing
  cases pass with
  | contents kind pass =>
    refine .bind (hpassing (showing_bindContents pass)) fun c => ?_
    refine .bind (hpassing (showing_bindIndexing _ _ _)) fun c => ?_
    unfold storeCollection
    exact .bind .get fun _ => .ite (.modify fun r => .single (.store r c)) (.throw _)
  | propertyRef pass => exact hpassing (quiet_bindPropertyRef pass).prepares.showing

/-- A pass for contents that fails writes no collection back. -/
theorem showing_of_failed {kind : PassKind} {pass : CollectionPass} {r r' : Registry}
    {e : MappingError} (h : (bindCollectionPass kind pass).run r = .error e r') :
    Relation.ReflTransGen Showing r r' := by
  unfold bindCollectionPass storeCollection at h
  cases hcontents : (bindContents pass).run r with
  | error e₁ r₁ =>
    rw [run_bind_of_error hcontents] at h
    cases h
    rw [← after_eq_of_error hcontents]
    exact showing_bindContents pass r
  | ok c r₁ =>
    rw [run_bind_of_ok hcontents] at h
    have hshown := (showing_bindContents pass).of_ok hcontents
    cases hindexing : (bindIndexing kind pass c).run r₁ with
    | error e₂ r₂ =>
      rw [run_bind_of_error hindexing] at h
      cases h
      rw [← after_eq_of_error hindexing]
      exact hshown.trans (showing_bindIndexing kind pass c r₁)
    | ok c' r₂ =>
      rw [run_bind_of_ok hindexing, run_get_bind] at h
      split at h <;> cases h
      exact hshown.trans ((showing_bindIndexing kind pass c).of_ok hindexing)

/-! ## Sessions -/

namespace Session

/-- One write of a session. -/
inductive Write : Registry → Registry → Prop
  | declare {r r' : Registry} (h : Declaration r r') : Write r r'
  /-- A deferred pass is taken off the queue. -/
  | take {r r' : Registry} {pass : DeferredPass} (h : r.nextPass? = some (pass, r')) : Write r r'
  | pass {r r' : Registry} (h : Passing r r') : Write r r'
  | mark {r r' : Registry} (h : Mark r r') : Write r r'

/-- One step of a run: a call, or a single deferred pass, whether it ends well or not. -/
inductive Step : Registry → Registry → Prop
  | call (r : Registry) (c : Call) : Step r (c.run.after r)
  | pass {r rest : Registry} {pass : DeferredPass} (h : r.nextPass? = some (pass, rest)) :
      Step r (pass.run.after rest)

/-- Running the pass at the head of the queue. -/
theorem writes_pass {r rest : Registry} {pass : DeferredPass}
    (h : r.nextPass? = some (pass, rest)) :
    Relation.ReflTransGen Write r (pass.run.after rest) :=
  .trans (.single (.take h)) (.mono (fun _ _ => .pass) _ _ (passing_run pass rest))

/-- Documents, passes and references make writes of a session only. -/
theorem upkept_writes : Upkept (.ofSteps Write) fun _ => True where
  waiting _ _ _ := trivial
  setWaiting _ _ := ⟨.single (.declare (.waiting _ _)), trivial⟩
  upholds_bindRoot metas _ := Makes.upholds
    ((declaring_bindRoot _ metas).mono fun _ _ hstep => .single (.declare hstep))
  nextPass _ hnext := ⟨writes_pass hnext, trivial⟩
  applyPropertyReferences _ happlied :=
    ⟨.mono (fun _ _ => .mark) _ _ (marks_of_applyPropertyReferences happlied).1, trivial⟩

/-- A step of a run is a number of writes. -/
theorem Step.writes {r r' : Registry} (h : Step r r') : Relation.ReflTransGen Write r r' := by
  cases h with
  | call c =>
    have hcall := upkept_writes.upholds_call (r := r) (c := c) fun _ _ => trivial
    exact (hcall.advances trivial).keeps
  | pass hnext => exact writes_pass hnext

/-- Any number of steps of a run advances a registry, if documents, passes and references do. -/
theorem Upkept.advances_of_steps {U : Upkeep} (h : Upkept U fun _ => True) {r r' : Registry}
    (hr : U.invariant r) (hsteps : Relation.ReflTransGen Step r r') : U.Advances r r' := by
  induction hsteps with
  | refl => exact .refl hr
  | @tail r₁ _ _ hstep ih =>
    cases hstep with
    | call c =>
      have hcall := h.upholds_call (r := r₁) (c := c) fun _ _ => trivial
      exact ih.trans (hcall.advances ih.invariant)
    | pass hnext => exact ih.trans (h.nextPass ih.invariant hnext)

end Session

end ObjectMapping
