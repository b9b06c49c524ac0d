import ObjectMapping.Proofs.RegistryWrites
import ObjectMapping.Proofs.Upkeep

/-!
# Computations on grounded registries

`Binding.Leads` says of a computation that, run on a grounded registry, it keeps what the
registry has and leaves it grounded, whether it ends well or in an error, and that its value has
a property if it ends well.  The property may speak of the registry that is left behind, since
what is grounded stays so for the rest of the computation.

Grounded registries that grow are an upkeep, so the rules for putting computations together are
those of `Binding.Upholds`.  A computation that writes neither tables nor values leads by what it
writes alone (`Leads.of_same`).
-/

namespace ObjectMapping

open Registry

/-- Registries that are grounded in a source, and that grow. -/
def Source.grounding (S : Source) : Binding.Upkeep where
  invariant r := r.Grounded S
  keeps := Registry.IncludedIn
  refl := .refl
  trans := .trans

/-- A grounded registry advances as the upkeep has it. -/
theorem Registry.Advances.upkeep {S : Source} {r r' : Registry} (h : r.Advances S r') :
    S.grounding.Advances r r' := ⟨h.included, h.grounded⟩

namespace Binding

variable {α β : Type} {S : Source} {r : Registry}

/-- A run keeps what a grounded registry has and leaves it grounded, and its value has a property
if it ends well. -/
def Leads (S : Source) (m : Binding α) (r : Registry) (post : α → Registry → Prop) : Prop :=
  r.Grounded S → r.Advances S (m.after r) ∧ ∀ a r', m.run r = .ok a r' → post a r'

namespace Leads

variable {P : α → Registry → Prop} {Q : β → Registry → Prop}

/-- To lead is to uphold the upkeep of grounded registries. -/
theorem upholds {m : Binding α} (h : Leads S m r P) : Upholds S.grounding m r P :=
  fun hr => ⟨⟨(h hr).1.included, (h hr).1.grounded⟩, (h hr).2⟩

/-- What upholds this upkeep leads. -/
theorem of_upholds {m : Binding α} (h : Upholds S.grounding m r P) : Leads S m r P :=
  fun hr => ⟨⟨(h hr).1.keeps, (h hr).1.invariant⟩, (h hr).2⟩

/-- What is known of a grounded registry may be used. -/
theorem of_grounded {m : Binding α} (h : r.Grounded S → Leads S m r P) : Leads S m r P :=
  fun hr => h hr hr

/-- A grounded registry advances in a run, however that ends. -/
theorem advances {m : Binding α} (h : Leads S m r P) (hr : r.Grounded S) :
    r.Advances S (m.after r) := (h hr).1

/-- A value that has its property may be returned. -/
theorem pure {a : α} (h : P a r) : Leads S (Pure.pure a) r P := of_upholds (.pure h)

/-- An error has no value of which anything is to be known. -/
theorem throw (e : MappingError) : Leads S (MonadExcept.throw e) r P := of_upholds (.throw e)

/-- The second half of a sequence starts from a registry that has advanced, with a value that has
its property. -/
theorem bind {m : Binding α} {f : α → Binding β} (hm : Leads S m r P)
    (hf : ∀ a r', r.IncludedIn r' → P a r' → Leads S (f a) r' Q) : Leads S (m >>= f) r Q :=
  of_upholds (hm.upholds.bind fun a r' hincluded hpost => (hf a r' hincluded hpost).upholds)

/-- The property of the value may be weakened. -/
theorem mono {P' : α → Registry → Prop} {m : Binding α} (hm : Leads S m r P)
    (h : ∀ a r', r.IncludedIn r' → P a r' → P' a r') : Leads S m r P' :=
  of_upholds (hm.upholds.mono h)

/-- A value is made from that of a computation. -/
theorem map {f : α → β} {m : Binding α} (hm : Leads S m r P)
    (h : ∀ a r', r.IncludedIn r' → P a r' → Q (f a) r') : Leads S (f <$> m) r Q :=
  of_upholds (hm.upholds.map h)

/-- A sequence that starts by reading the registry. -/
theorem get_bind {f : Registry → Binding β} (h : Leads S (f r) r Q) :
    Leads S (MonadState.get >>= f) r Q := h

/-- An error ends the computation, so what follows does not matter. -/
theorem throw_bind (e : MappingError) (f : α → Binding β) :
    Leads S (MonadExcept.throw e >>= f) r Q := of_upholds (.throw_bind e f)

/-- A required value is there if the computation ends well. -/
theorem require {o : Option α} (e : MappingError) (h : ∀ a, o = some a → P a r) :
    Leads S (Binding.require e o) r P := of_upholds (.require e h)

/-- A checked value has passed its check if the computation ends well. -/
theorem ofExcept {x : Except MappingError α} (h : ∀ a, x = .ok a → P a r) :
    Leads S (Binding.ofExcept x) r P := of_upholds (.ofExcept h)

/-- What follows a required value may use that it is there. -/
theorem require_bind {o : Option α} {e : MappingError} {f : α → Binding β}
    (h : ∀ a, o = some a → Leads S (f a) r Q) : Leads S (Binding.require e o >>= f) r Q :=
  of_upholds (.require_bind fun a ha => (h a ha).upholds)

/-- What follows a checked value may use that it passed the check. -/
theorem ofExcept_bind {x : Except MappingError α} {f : α → Binding β}
    (h : ∀ a, x = .ok a → Leads S (f a) r Q) : Leads S (Binding.ofExcept x >>= f) r Q :=
  of_upholds (.ofExcept_bind fun a ha => (h a ha).upholds)

/-- A change of the registry, of which nothing else has to be known. -/
theorem write {f : Registry → Registry} (h : r.Grounded S → r.Advances S (f r)) :
    Leads S (modify f : Binding PUnit) r fun _ _ => True :=
  fun hr => ⟨h hr, fun _ _ _ => trivial⟩

/-- A change of the registry after which the value has a property. -/
theorem modify {f : Registry → Registry} {P : PUnit → Registry → Prop}
    (h : r.Grounded S → r.Advances S (f r) ∧ P ⟨⟩ (f r)) :
    Leads S (modify f : Binding PUnit) r P :=
  of_upholds (.modify fun hr => (h hr).imp_left Registry.Advances.upkeep)

/-- A registration, if it is accepted. -/
theorem register {f : Registry → Except MappingError Registry}
    (h : ∀ r', r.Grounded S → f r = .ok r' → r.Advances S r') :
    Leads S (Binding.register f) r fun _ _ => True :=
  of_upholds (.register fun r' hr hf => ⟨(h r' hr hf).upkeep, trivial⟩)

/-- Either branch may use how it was chosen. -/
theorem ite {c : Prop} [Decidable c] {m n : Binding α} (hm : c → Leads S m r P)
    (hn : ¬c → Leads S n r P) : Leads S (if c then m else n) r P :=
  of_upholds (.ite (fun hc => (hm hc).upholds) fun hc => (hn hc).upholds)

/-- A step that is taken or left out before the rest. -/
theorem optional {c : Prop} [Decidable c] {m : Binding Unit} {k : Unit → Binding β}
    (hm : c → Leads S m r fun _ _ => True)
    (hk : ∀ r', r.IncludedIn r' → Leads S (k ()) r' Q) :
    Leads S (if c then m >>= k else k ()) r Q :=
  of_upholds (.optional (fun hc => (hm hc).upholds) fun r' hincluded => (hk r' hincluded).upholds)

/-- The value of a computation may be dropped. -/
theorem discard {m : Binding α} (hm : Leads S m r P) :
    Leads S (discard m) r fun _ _ => True := of_upholds hm.upholds.discard

/-- A loop over a list, each round of which may start from any later registry. -/
theorem forM {f : α → Binding PUnit} {l : List α}
    (h : ∀ a ∈ l, ∀ r', r.IncludedIn r' → Leads S (f a) r' fun _ _ => True) :
    Leads S (l.forM f) r fun _ _ => True :=
  of_upholds (.forM fun a ha r' hincluded => (h a ha r' hincluded).upholds)

/-- A computation that writes neither tables nor values. -/
theorem of_same {m : Binding α} (h : Makes Same m) : Leads S m r fun _ _ => True :=
  of_upholds (.of_makes h (fun _ _ _ _ => trivial) fun _ _ hsame hr => (hsame.advances hr).upkeep)

/-- A table that is written to so that it advances. -/
theorem changeTable {id : TableId} {f : Table → Table}
    (h : ∀ t, r.table? id = some t → t.Grounded S r → t.Advances S r (f t)) :
    Leads S (Binding.changeTable (some id) f) r fun _ r' => r' = r.modifyTable id f :=
  modify fun hr => ⟨hr.modifyTable fun t ht => h t ht (hr.tables id t ht), rfl⟩

/-- A table that is written to so that it advances, of which nothing else has to be known. -/
theorem writeTable {id : TableId} {f : Table → Table}
    (h : ∀ t, r.table? id = some t → t.Grounded S r → t.Advances S r (f t)) :
    Leads S (Binding.changeTable (some id) f) r fun _ _ => True :=
  (changeTable h).mono fun _ _ _ _ => trivial

/-- An entity that is changed so that it advances. -/
theorem changeEntity {name : String} {f : Entity → Entity}
    (h : ∀ e : Entity, e.Grounded S r → e.Advances S r (f e)) :
    Leads S (Binding.changeEntity name f) r fun _ r' => r' = r.modifyEntity name f := by
  unfold Binding.changeEntity
  refine get_bind (ite (fun _ => ?_) fun _ => throw _)
  exact modify fun hr => ⟨hr.modifyEntity fun e he => h e (hr.entities name e he), rfl⟩

/-- An entity that is changed so that it advances, of which nothing else has to be known. -/
theorem writeEntity {name : String} {f : Entity → Entity}
    (h : ∀ e : Entity, e.Grounded S r → e.Advances S r (f e)) :
    Leads S (Binding.changeEntity name f) r fun _ _ => True :=
  (changeEntity h).mono fun _ _ _ _ => trivial

end Leads

end Binding

open Binding

/-! ## Computations that write neither tables nor values -/

/-- The use of a filter is read. -/
theorem same_bindFilterUse (node : Element) : Makes Same (bindFilterUse node) := by
  unfold bindFilterUse
  exact .bind .get fun _ => .ofExcept _

/-- The logical name of a table is recorded beside the tables. -/
theorem same_requestTable (scope : Scope) (node : Element) (entity : String) (isAbstract : Bool) :
    Makes Same (requestTable scope node entity isAbstract) := by
  unfold requestTable
  refine .bind .get fun r => ?_
  dsimp only
  exact .bind (.modify fun r => .single ⟨rfl, rfl, rfl, rfl, rfl, rfl⟩) fun _ => .pure _

/-- An accepted import is all that is written. -/
theorem Registry.same_of_addImport {r r' : Registry} {refuse : Bool} {target shortName : String}
    (h : r.addImportUnless refuse target shortName = .ok r') : Same r r' := by
  obtain ⟨-, rfl⟩ | ⟨-, rfl⟩ := addImportUnless_eq_ok.mp h <;> exact ⟨rfl, rfl, rfl, rfl, rfl, rfl⟩

/-- An entity implies imports of its name. -/
theorem same_importEntity (scope : Scope) (name : String) :
    Makes Same (importEntity scope name) := by
  unfold importEntity
  refine .bind (.register fun _ _ h => same_of_addImport h) fun _ => ?_
  exact .ite (.register fun _ _ h => same_of_addImport h) (.pure _)

/-- An import is all that its element writes. -/
theorem same_bindImport (scope : Scope) (node : Element) : Makes Same (bindImport scope node) := by
  unfold bindImport
  exact .bind (.require _ _) fun _ => .register fun _ _ h => same_of_addImport h

/-- A registered query is all that is written. -/
theorem same_bindNamedQuery (owner : Option String) (node : Element) :
    Makes Same (bindNamedQuery owner node) := by
  unfold bindNamedQuery
  refine .bind (.ofExcept _) fun _ => .bind (.ofExcept _) fun _ => .register fun r r' h => ?_
  obtain ⟨-, rfl⟩ := addQuery_eq_ok.mp h
  exact ⟨rfl, rfl, rfl, rfl, rfl, rfl⟩

/-- So is a native query. -/
theorem same_bindNamedSqlQuery (scope : Scope) (owner : Option String) (node : Element) :
    Makes Same (bindNamedSqlQuery scope owner node) := by
  unfold bindNamedSqlQuery
  refine .bind (.ofExcept _) fun _ => .bind (.ofExcept _) fun _ => .bind (.ofExcept _) fun _ =>
    .register fun r r' h => ?_
  obtain ⟨-, rfl⟩ := addSqlQuery_eq_ok.mp h
  exact ⟨rfl, rfl, rfl, rfl, rfl, rfl⟩

/-- So is the description of a result. -/
theorem same_bindResultSet (scope : Scope) (owner : Option String) (node : Element) :
    Makes Same (bindResultSet scope owner node) := by
  unfold bindResultSet
  refine .bind (.ofExcept _) fun _ => .bind (.ofExcept _) fun _ => .register fun r r' h => ?_
  obtain ⟨-, rfl⟩ := addResultSet_eq_ok.mp h
  exact ⟨rfl, rfl, rfl, rfl, rfl, rfl⟩

/-- Definitions of filters are kept beside tables and values. -/
theorem same_bindFilterDefinition (node : Element) : Makes Same (bindFilterDefinition node) := by
  unfold bindFilterDefinition
  exact .bind (.require _ _) fun _ => .modify fun r => .single ⟨rfl, rfl, rfl, rfl, rfl, rfl⟩

/-- So are definitions of types. -/
theorem same_bindTypeDefinition (node : Element) : Makes Same (bindTypeDefinition node) := by
  unfold bindTypeDefinition
  exact .bind (.require _ _) fun _ => .bind (.require _ _) fun _ =>
    .modify fun r => .single ⟨rfl, rfl, rfl, rfl, rfl, rfl⟩

/-- A check writes nothing. -/
theorem same_checkCascade (node : Element) (path : String) :
    Makes Same (checkCascade node path) := by
  unfold checkCascade
  exact .ite (.throw _) (.pure _)

end ObjectMapping
