import ObjectMapping.Proofs.Body
import ObjectMapping.Proofs.Marking
import ObjectMapping.Session

/-!
# Growth in deferred passes

What the deferred passes write is seen in the skeletons only where an entity is shown the
collections that refer to it, by a synthetic property.  The passes are run in a loop that ends
when none is left; the loop is growth since each pass is, and taking a pass off the queue is a
side write.
-/

namespace ObjectMapping

open Binding Registry

/-- Showing a collection to the entity of its elements declares a property of it at most. -/
theorem growing_addBackref (known : List String) (node : Element) (c : Collection)
    (kind : BackrefKind) : Growing known (addBackref node c kind) := by
  unfold addBackref
  split
  · exact .pure _
  · refine .bind (.of_aside .get) fun _ => .ite (fun r _ _ => ?_) (.of_aside (.throw _))
    exact .declare r _ fun e => e.skeleton_addProperty _

/-- Showing the index of a collection declares a property at most. -/
theorem growing_addIndexBackref (known : List String) (node : Element) (c : Collection) :
    Growing known (addIndexBackref node c) := by
  unfold addIndexBackref
  exact .ite (.pure _) (growing_addBackref _ _ _ _)

/-- Binding the key and element of a collection is growth. -/
theorem growing_bindContents (known : List String) (pass : CollectionPass) :
    Growing known (bindContents pass) := by
  unfold bindContents
  refine .bind (.of_aside .get) fun _ => .bind (.of_aside (.require _ _)) fun c => ?_
  refine .bind (.of_aside (steady_find _).aside) fun owner => .bind (.of_aside .get) fun _ => ?_
  refine .bind (.of_aside (.ofExcept _)) fun c => ?_
  refine .bind (.of_aside (steady_bindCollectionCheck _ _).aside) fun c => ?_
  refine .bind (.of_aside (prepares_bindContentsOf _ _ _ _).aside) fun c => ?_
  refine .bind (.of_aside (.modify fun r =>
    (quietWrites_constrainContents r _ _).preparations.sideWrites)) fun _ => ?_
  exact .bind (growing_addBackref _ _ _ _) fun _ => .pure _

/-- Binding what a collection has besides its key and element is growth. -/
theorem growing_bindIndexing (known : List String) (kind : PassKind) (pass : CollectionPass)
    (c : Collection) : Growing known (bindIndexing kind pass c) := by
  cases kind with
  | plain => exact .pure _
  | identifierBag => exact .of_aside (steady_bindBagIdentifier _ _).aside
  | list =>
    refine .bind (.of_aside (.require _ _)) fun node => ?_
    refine .bind (.of_aside (steady_bindSimpleValue _ _).aside) fun v => ?_
    refine .bind (.of_aside (.ofExcept _)) fun base => ?_
    exact .bind (growing_addIndexBackref _ _ _) fun _ => .pure _
  | map =>
    refine .bind (.of_aside (prepares_bindMapKeys _ _ _).aside) fun c => ?_
    refine .ite (.of_aside (.throw_bind _ _)) ?_
    exact .bind (growing_addIndexBackref _ _ _) fun _ => .pure _

/-- Writing a collection back makes side writes only. -/
theorem aside_storeCollection (c : Collection) : Aside (storeCollection c) := by
  unfold storeCollection
  exact .bind .get fun _ => .ite (.modify fun r => .single (.modifyCollection r _ _)) (.throw _)

/-- Running a deferred pass is growth. -/
theorem growing_run (known : List String) (pass : DeferredPass) : Growing known pass.run := by
  cases pass with
  | contents kind pass =>
    refine .bind (growing_bindContents _ _) fun c => ?_
    exact .bind (growing_bindIndexing _ _ _ _) fun c => .of_aside (aside_storeCollection c)
  | propertyRef pass => exact .of_aside (quiet_bindPropertyRef pass).aside

/-- Taking a pass off the queue and running it is growth. -/
theorem grows_nextPass {r rest : Registry} {pass : DeferredPass}
    (hnext : r.nextPass? = some (pass, rest)) (hkeyed : Keyed r.skeletons) :
    Grows r (pass.run.after rest) := by
  have hrest : Grows r rest := .of_sideWrites (.of (.nextPass hnext))
  exact hrest.trans ((growing_run [] pass).grows (hrest.keyed hkeyed))

/-- Running all deferred passes is growth, by induction along the loop. -/
theorem grows_runPasses (r : Registry) (hkeyed : Keyed r.skeletons) :
    Grows r (Binding.after Session.runPasses r) := by
  unfold Binding.after EStateM.run
  fun_induction Session.runPasses r with
  | case1 r hnone => exact .refl r
  | case2 r pass rest hnext e r' hrun =>
    rw [← after_eq_of_error hrun]
    exact grows_nextPass hnext hkeyed
  | case3 r pass rest hnext r' hrun hless ih =>
    have hpass := grows_nextPass hnext hkeyed
    rw [after_eq_of_ok hrun] at hpass
    exact hpass.trans (ih (hpass.keyed hkeyed))
  | case4 r pass rest hnext r' hrun hless =>
    rw [← after_eq_of_ok hrun]
    exact grows_nextPass hnext hkeyed

/-! ## References to properties -/

/-- Marking the properties that others refer to makes side writes only. -/
theorem aside_applyPropertyReferences :
    Aside (Binding.register Registry.applyPropertyReferences) := by
  intro r
  rw [after_register]
  cases h : r.applyPropertyReferences with
  | error e => exact .refl
  | ok r' => exact (Registry.marks_of_applyPropertyReferences h).1.sideWrites

end ObjectMapping
