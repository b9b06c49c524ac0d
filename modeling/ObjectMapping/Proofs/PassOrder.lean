import ObjectMapping.Proofs.Writes
import ObjectMapping.Proofs.Enlistment

/-!
# Passes of driven sessions

The passes of a session stay in order however it is driven, be it that passes fail in between: a
pass that fails is off the queue, and has written no collection back.  So a pass for contents is
queued once at most, and when it is run its collection is still as it was registered.
-/

namespace ObjectMapping

open Binding Registry

namespace Orderly

variable {done : List String} {r r' rest : Registry} {pass : DeferredPass}

/-- Steps of a pass that write no collection back keep the passes in order. -/
theorem showing (h : Orderly done r) (hsteps : Relation.ReflTransGen Showing r r') :
    Orderly done r' := by
  induction hsteps with
  | refl => exact h
  | tail _ hstep ih =>
    cases hstep with
    | prepare hstep => exact ih.preparations (.single hstep)
    | reveal => exact ih.congr rfl rfl

/-- A pass that is taken off the queue keeps the passes in order, whether it ends well or not. -/
theorem passed (h : Orderly done r) (hnext : r.nextPass? = some (pass, rest)) :
    Orderly (done ++ pass.role?.toList) (pass.run.after rest) := by
  cases hrun : pass.run.run rest with
  | ok u r' =>
    rw [after_eq_of_ok hrun]
    exact h.run hnext hrun
  | error e r' =>
    rw [after_eq_of_error hrun]
    have hrest := h.nextPass hnext
    cases pass with
    | contents kind pass => exact hrest.showing (showing_of_failed hrun)
    | propertyRef pass =>
      rw [← after_eq_of_error hrun]
      exact hrest.preparations ((quiet_bindPropertyRef pass).prepares rest)

/-- The pass at the head of the queue finds its collection as it was registered. -/
theorem head (h : Orderly done r) {kind : PassKind} {pass : CollectionPass}
    (hnext : r.nextPass? = some (.contents kind pass, rest)) :
    ∃ c, rest.collection? pass.role = some c ∧ c.EnlistedBy pass := by
  obtain ⟨passes, hpasses, rfl⟩ := nextPass?_eq_some_iff.mp hnext
  obtain ⟨c, hfound, -, henlisted⟩ := h.matched kind pass (hpasses ▸ List.mem_cons_self)
  exact ⟨c, hfound, henlisted⟩

end Orderly

namespace Session

/-- The passes of a session are in order. -/
def ordering : Upkeep where
  invariant r := ∃ done, Orderly done r
  keeps _ _ := True
  refl _ := trivial
  trans _ _ := trivial

theorem upkept_ordering : Upkept ordering fun _ => True where
  waiting _ _ _ := trivial
  setWaiting := by
    rintro r waiting ⟨done, hr⟩ -
    exact ⟨trivial, done, hr.congr rfl rfl⟩
  upholds_bindRoot metas _ := .of_steps (declaring_bindRoot _ metas) <| by
    rintro r r' hstep ⟨done, hr⟩
    exact ⟨trivial, done, hr.declaration hstep⟩
  nextPass := by
    rintro r rest pass ⟨done, hr⟩ hnext
    exact ⟨trivial, _, hr.passed hnext⟩
  applyPropertyReferences := by
    rintro r r' ⟨done, hr⟩ happlied
    obtain ⟨-, hcollections, hpasses⟩ := applyPropertyReferences_frame happlied
    exact ⟨trivial, done, hr.congr hcollections hpasses⟩

end Session

end ObjectMapping
