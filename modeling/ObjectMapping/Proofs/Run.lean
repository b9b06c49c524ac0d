import Mathlib.Logic.Relation
import ObjectMapping.Binding.Monad

/-!
# Runs of binding computations

A run of a `Binding` ends in a value or in an error, and leaves a registry behind either way.
`Binding.after` is that registry.  What holds of it is proved along the computation:
`rel_after_bind` composes the two halves of a sequence under any transitive relation, and
`run_bind_eq_ok` takes a successful run of a sequence apart.  `Binding.Makes` says which steps a
computation takes, `Binding.Yields` what its value is like.
-/

namespace ObjectMapping

namespace Binding

variable {α β : Type}

/-- The registry that a run leaves behind, whether it ends well or in an error. -/
def after (m : Binding α) (r : Registry) : Registry :=
  match m.run r with
  | .ok _ r' => r'
  | .error _ r' => r'

/-- The registry after a run that ends well. -/
theorem after_eq_of_ok {m : Binding α} {r r' : Registry} {a : α} (h : m.run r = .ok a r') :
    m.after r = r' := by
  simp [after, h]

/-- The registry after a run that ends in an error. -/
theorem after_eq_of_error {m : Binding α} {r r' : Registry} {e : MappingError}
    (h : m.run r = .error e r') : m.after r = r' := by
  simp [after, h]

/-- An error ends a run where it is thrown. -/
@[simp] theorem run_throw (e : MappingError) (r : Registry) :
    (throw e : Binding α).run r = .error e r := rfl

/-- Returning a value leaves the registry alone. -/
@[simp] theorem after_pure (a : α) (r : Registry) : (pure a : Binding α).after r = r := rfl

/-- Whether a run ends well. -/
def succeeds (m : Binding α) (r : Registry) : Bool :=
  match m.run r with
  | .ok _ _ => true
  | .error _ _ => false

/-- A run that ends well ends in some value. -/
theorem exists_run_of_succeeds {m : Binding α} {r : Registry} (h : m.succeeds r = true) :
    ∃ a, m.run r = .ok a (m.after r) := by
  unfold succeeds at h
  split at h
  · next a r' hrun => exact ⟨a, by rw [after_eq_of_ok hrun, hrun]⟩
  · cases h

/-- The error that a run ends in, if it does. -/
def failure? (m : Binding α) (r : Registry) : Option MappingError :=
  match m.run r with
  | .ok _ _ => none
  | .error e _ => some e

/-- A run that ends in an error does not end well. -/
theorem run_of_failure? {m : Binding α} {r : Registry} {e : MappingError}
    (h : m.failure? r = some e) : m.run r = .error e (m.after r) := by
  unfold failure? at h
  split at h
  · cases h
  · next e' r' hrun =>
    cases h
    rw [after_eq_of_error hrun, hrun]

/-- A sequence whose first half fails ends where the first half does. -/
theorem run_bind_of_error {m : Binding α} {f : α → Binding β} {r r' : Registry}
    {e : MappingError} (h : m.run r = .error e r') : (m >>= f).run r = .error e r' := by
  simp [EStateM.run_bind, h]

/-- A sequence whose first half ends well goes on from there. -/
theorem run_bind_of_ok {m : Binding α} {f : α → Binding β} {r r' : Registry} {a : α}
    (h : m.run r = .ok a r') : (m >>= f).run r = (f a).run r' := by
  simp [EStateM.run_bind, h]

/-- The registry after a sequence whose first half ends well. -/
theorem after_bind_of_ok {m : Binding α} {f : α → Binding β} {r r' : Registry} {a : α}
    (h : m.run r = .ok a r') : (m >>= f).after r = (f a).after r' := by
  simp [after, run_bind_of_ok h]

/-- The registry after a sequence whose first half fails. -/
theorem after_bind_of_error {m : Binding α} {f : α → Binding β} {r r' : Registry}
    {e : MappingError} (h : m.run r = .error e r') : (m >>= f).after r = r' := by
  simp [after, run_bind_of_error h]

/-- Returning something else leaves the same registry behind. -/
theorem after_bind_pure (m : Binding α) (f : α → β) (r : Registry) :
    (m >>= fun a => pure (f a)).after r = m.after r := by
  cases h : m.run r with
  | ok a r' => rw [after_bind_of_ok h, after_eq_of_ok h, after_pure]
  | error e r' => rw [after_bind_of_error h, after_eq_of_error h]

/-- Dropping the value leaves the same registry behind. -/
theorem after_discard (m : Binding α) (r : Registry) : (discard m).after r = m.after r :=
  after_bind_pure m (fun _ => PUnit.unit) r

/-- A successful run of a sequence is a successful run of each half. -/
theorem run_bind_eq_ok {m : Binding α} {f : α → Binding β} {r r'' : Registry} {b : β} :
    (m >>= f).run r = .ok b r'' ↔ ∃ a r', m.run r = .ok a r' ∧ (f a).run r' = .ok b r'' := by
  cases h : m.run r with
  | ok a r' =>
    rw [run_bind_of_ok h]
    constructor
    · exact fun hf => ⟨a, r', rfl, hf⟩
    · rintro ⟨a', s, has, hf⟩
      cases has
      exact hf
  | error e r' => simp [run_bind_of_error h]

/-- A run ends well without its value if it does so with it. -/
theorem run_discard_eq_ok {m : Binding α} {r r' : Registry} {u : PUnit} :
    (discard m).run r = .ok u r' ↔ ∃ a, m.run r = .ok a r' := by
  have hdiscard : discard m = m >>= fun _ => pure PUnit.unit := rfl
  rw [hdiscard, run_bind_eq_ok]
  constructor
  · rintro ⟨a, s, hrun, hpure⟩
    cases hpure
    exact ⟨a, hrun⟩
  · rintro ⟨a, hrun⟩
    exact ⟨a, r', hrun, rfl⟩

/-- A relation that composes relates the start of a sequence to its end if it does so for the
first half, and for the second half wherever the first one ends well. -/
theorem rel_after_bind {R : Registry → Registry → Prop}
    (htrans : ∀ {a b c : Registry}, R a b → R b c → R a c) {m : Binding α} {f : α → Binding β}
    {r : Registry} (hm : R r (m.after r))
    (hf : ∀ a r', m.run r = .ok a r' → R r' ((f a).after r')) : R r ((m >>= f).after r) := by
  cases h : m.run r with
  | ok a r' =>
    rw [after_eq_of_ok h] at hm
    rw [after_bind_of_ok h]
    exact htrans hm (hf a r' h)
  | error e r' =>
    rw [after_eq_of_error h] at hm
    rwa [after_bind_of_error h]

/-- A sequence of checks that passes is a sequence of checks that pass. -/
theorem except_bind_eq_ok {x : Except MappingError α} {f : α → Except MappingError β} {b : β} :
    (x >>= f) = .ok b ↔ ∃ a, x = .ok a ∧ f a = .ok b := by
  cases x with
  | ok a => simp [bind, Except.bind]
  | error e => simp [bind, Except.bind]

/-! ## The building blocks -/

/-- A required value is there if its run ends well. -/
@[simp] theorem run_require_eq_ok {e : MappingError} {o : Option α} {r r' : Registry} {a : α} :
    (require e o).run r = .ok a r' ↔ o = some a ∧ r' = r := by
  cases o with
  | none => simp [require]
  | some b => simp [require, eq_comm]

/-- A checked value is there if its run ends well. -/
@[simp] theorem run_ofExcept_eq_ok {x : Except MappingError α} {r r' : Registry} {a : α} :
    (ofExcept x).run r = .ok a r' ↔ x = .ok a ∧ r' = r := by
  cases x with
  | error e => simp [ofExcept]
  | ok b => simp [ofExcept, eq_comm]

/-- Requiring a value changes nothing. -/
@[simp] theorem after_require (e : MappingError) (o : Option α) (r : Registry) :
    (require e o).after r = r := by
  cases o <;> rfl

/-- Using a checked value changes nothing. -/
@[simp] theorem after_ofExcept (x : Except MappingError α) (r : Registry) :
    (ofExcept x).after r = r := by
  cases x <;> rfl

/-- A registration that the registry accepts. -/
theorem run_register_eq_ok {f : Registry → Except MappingError Registry} {r r' : Registry}
    {u : PUnit} : (register f).run r = .ok u r' ↔ f r = .ok r' := by
  cases h : f r <;>
    simp [register, ofExcept, h, EStateM.run_bind, EStateM.run_get, EStateM.run_set]

/-- A registration changes the registry if it is accepted. -/
theorem after_register (f : Registry → Except MappingError Registry) (r : Registry) :
    (register f).after r = match f r with
      | .ok r' => r'
      | .error _ => r := by
  cases h : f r <;>
    simp [after, register, ofExcept, h, EStateM.run_bind, EStateM.run_get, EStateM.run_set]

/-- A sequence that starts by reading the registry. -/
theorem run_get_bind (f : Registry → Binding β) (r : Registry) :
    (get >>= f).run r = (f r).run r := rfl

/-- A registered entity can be changed. -/
theorem run_changeEntity {r : Registry} {name : String} (f : Entity → Entity)
    (h : r.hasEntity name = true) :
    (changeEntity name f).run r = .ok () (r.modifyEntity name f) := by
  unfold changeEntity
  rw [run_get_bind, if_pos h]
  rfl

/-- An entity that is not registered cannot be changed. -/
theorem after_changeEntity_of_not {r : Registry} {name : String} (f : Entity → Entity)
    (h : r.hasEntity name = false) : (changeEntity name f).after r = r := by
  apply after_eq_of_error (e := .unknownEntity name)
  unfold changeEntity
  rw [run_get_bind, if_neg (by simp [h])]
  rfl

/-! ## What a computation writes -/

/-- Every run takes steps of one kind only, whether it ends well or in an error. -/
def Makes (S : Registry → Registry → Prop) (m : Binding α) : Prop :=
  ∀ r, Relation.ReflTransGen S r (m.after r)

namespace Makes

variable {S : Registry → Registry → Prop}

/-- A successful run takes steps of the kind only. -/
theorem of_ok {m : Binding α} (h : Makes S m) {r r' : Registry} {a : α}
    (hrun : m.run r = .ok a r') : Relation.ReflTransGen S r r' := by
  rw [← after_eq_of_ok hrun]
  exact h r

/-- Steps of one kind may be made up of steps of another. -/
theorem mono {S' : Registry → Registry → Prop} {m : Binding α} (hm : Makes S m)
    (h : ∀ r r', S r r' → Relation.ReflTransGen S' r r') : Makes S' m :=
  fun r => Relation.reflTransGen_closed h r _ (hm r)

theorem pure (a : α) : Makes S (Pure.pure a : Binding α) := fun _ => .refl

theorem throw (e : MappingError) : Makes S (MonadExcept.throw e : Binding α) := fun _ => .refl

theorem get : Makes S (MonadState.get : Binding Registry) := fun _ => .refl

/-- Requiring a value writes nothing. -/
theorem require (e : MappingError) (o : Option α) : Makes S (Binding.require e o) := by
  intro r
  rw [after_require]

/-- Using a checked value writes nothing. -/
theorem ofExcept (x : Except MappingError α) : Makes S (Binding.ofExcept x) := by
  intro r
  rw [after_ofExcept]

/-- A change of the registry that takes steps of the kind. -/
theorem modify {f : Registry → Registry} (h : ∀ r, Relation.ReflTransGen S r (f r)) :
    Makes S (modify f : Binding PUnit) := h

/-- A sequence takes steps of a kind only if both halves do. -/
theorem bind {m : Binding α} {f : α → Binding β} (hm : Makes S m) (hf : ∀ a, Makes S (f a)) :
    Makes S (m >>= f) :=
  fun r => rel_after_bind (R := Relation.ReflTransGen S) .trans (hm r) fun a r' _ => hf a r'

theorem map {f : α → β} {m : Binding α} (hm : Makes S m) : Makes S (f <$> m) := by
  rw [map_eq_pure_bind]
  exact bind hm fun _ => pure _

/-- What is known of the first half's value may be used for the second half. -/
theorem bindOf {m : Binding α} {P : α → Prop} {f : α → Binding β} (hm : Makes S m)
    (hP : ∀ r a r', m.run r = .ok a r' → P a) (hf : ∀ a, P a → Makes S (f a)) :
    Makes S (m >>= f) :=
  fun r => rel_after_bind (R := Relation.ReflTransGen S) .trans (hm r) fun a r' hrun =>
    hf a (hP r a r' hrun) r'

/-- An error ends the computation, so what follows does not matter. -/
theorem throw_bind (e : MappingError) (f : α → Binding β) :
    Makes S (MonadExcept.throw e >>= f) := fun _ => .refl

theorem ite {c : Prop} [Decidable c] {m n : Binding α} (hm : Makes S m) (hn : Makes S n) :
    Makes S (if c then m else n) := by
  split
  · exact hm
  · exact hn

/-- A step that is taken or left out before the rest. -/
theorem optional {c : Prop} [Decidable c] {m : Binding Unit} {k : Unit → Binding β}
    (hm : Makes S m) (hk : ∀ u, Makes S (k u)) : Makes S (if c then m >>= k else k ()) :=
  ite (bind hm hk) (hk ())

/-- A registration is a step of the kind if every accepted one is. -/
theorem register {f : Registry → Except MappingError Registry}
    (h : ∀ r r', f r = .ok r' → S r r') : Makes S (Binding.register f) := by
  intro r
  rw [after_register]
  cases hf : f r with
  | ok r' => exact .single (h r r' hf)
  | error e => exact .refl

/-- A loop takes steps of a kind only if every round does. -/
theorem forM {f : α → Binding PUnit} (h : ∀ a, Makes S (f a)) (l : List α) :
    Makes S (l.forM f) := by
  induction l with
  | nil => exact pure _
  | cons a l ih => exact bind (h a) fun _ => ih

theorem mapM {f : α → Binding β} (h : ∀ a, Makes S (f a)) (l : List α) : Makes S (l.mapM f) := by
  induction l with
  | nil => exact pure _
  | cons a l ih =>
    rw [List.mapM_cons]
    exact bind (h a) fun _ => bind ih fun _ => pure _

end Makes

/-! ## What a computation yields -/

/-- Every run that ends well ends in a value with a property. -/
def Yields (m : Binding α) (P : α → Prop) : Prop := ∀ r a r', m.run r = .ok a r' → P a

namespace Yields

variable {P : α → Prop} {Q : β → Prop}

theorem pure {a : α} (h : P a) : Yields (Pure.pure a) P := by
  intro r b r' hrun
  cases hrun
  exact h

/-- An error yields nothing. -/
theorem throw (e : MappingError) (P : α → Prop) : Yields (MonadExcept.throw e) P := by
  intro r a r' hrun
  cases hrun

/-- A checked value is one that passed its check. -/
theorem ofExcept {x : Except MappingError α} (h : ∀ a, x = .ok a → P a) :
    Yields (Binding.ofExcept x) P :=
  fun _ a _ hrun => h a (run_ofExcept_eq_ok.mp hrun).1

/-- What the second half of a sequence yields may rest on what the first half does. -/
theorem bind {m : Binding α} {f : α → Binding β} (hm : Yields m P)
    (hf : ∀ a, P a → Yields (f a) Q) : Yields (m >>= f) Q := by
  intro r b r'' hrun
  obtain ⟨a, r', hfirst, hsecond⟩ := run_bind_eq_ok.mp hrun
  exact hf a (hm r a r' hfirst) r' b r'' hsecond

/-- What the second half of a sequence yields, whatever the first half does. -/
theorem next {m : Binding α} {f : α → Binding β} (hf : ∀ a, Yields (f a) Q) :
    Yields (m >>= f) Q :=
  bind (P := fun _ => True) (fun _ _ _ _ => trivial) fun a _ => hf a

/-- A sequence that starts with an error yields nothing. -/
theorem throw_bind (e : MappingError) (f : α → Binding β) (Q : β → Prop) :
    Yields (MonadExcept.throw e >>= f) Q :=
  bind (throw e fun _ => False) fun _ => False.elim

theorem ite {c : Prop} [Decidable c] {m n : Binding α} (hm : c → Yields m P)
    (hn : ¬c → Yields n P) : Yields (if c then m else n) P := by
  split
  · exact hm ‹_›
  · exact hn ‹_›

/-- A property may be weakened. -/
theorem mono {m : Binding α} {P' : α → Prop} (hm : Yields m P) (h : ∀ a, P a → P' a) :
    Yields m P' :=
  fun r a r' hrun => h a (hm r a r' hrun)

end Yields

end Binding

end ObjectMapping
