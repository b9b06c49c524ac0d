import ObjectMapping.Proofs.Run

/-!
# Computations that uphold an invariant

An upkeep consists of an invariant of registries and of a preorder on them: what is kept from one
registry to a later one.  A computation upholds it if, run on a registry with the invariant, it
leaves one with the invariant behind that keeps what was there, whether the run ends well or in an
error.  If it ends well, its value has a property, which may speak of the registry that is left
behind; a property that what is kept carries over holds for the rest of the computation.

There is one rule for each way of putting computations together, and `Upholds.of_makes` for a
computation of which it is enough to know what it writes.
-/

namespace ObjectMapping

namespace Binding

/-- An invariant of registries, and what is kept from one registry to a later one. -/
structure Upkeep where
  invariant : Registry → Prop
  keeps : Registry → Registry → Prop
  refl (r : Registry) : keeps r r
  trans {r r' r'' : Registry} (h : keeps r r') (h' : keeps r' r'') : keeps r r''

/-- A later registry that has the invariant. -/
structure Upkeep.Advances (U : Upkeep) (r r' : Registry) : Prop where
  keeps : U.keeps r r'
  invariant : U.invariant r'

namespace Upkeep.Advances

variable {U : Upkeep} {r r' r'' : Registry}

/-- A registry that meets the invariant has advanced by nothing. -/
theorem refl (hr : U.invariant r) : U.Advances r r := ⟨U.refl r, hr⟩

/-- One advance may follow another. -/
theorem trans (h : U.Advances r r') (h' : U.Advances r' r'') : U.Advances r r'' :=
  ⟨U.trans h.keeps h'.keeps, h'.invariant⟩

/-- Any number of steps advance a registry if each of them does. -/
theorem of_steps {S : Registry → Registry → Prop}
    (hstep : ∀ {r r' : Registry}, S r r' → U.invariant r → U.Advances r r')
    (h : Relation.ReflTransGen S r r') (hr : U.invariant r) : U.Advances r r' := by
  induction h with
  | refl => exact .refl hr
  | tail _ hlast ih => exact ih.trans (hstep hlast ih.invariant)

end Upkeep.Advances

/-- Two upkeeps at a time. -/
def Upkeep.and (U V : Upkeep) : Upkeep where
  invariant r := U.invariant r ∧ V.invariant r
  keeps r r' := U.keeps r r' ∧ V.keeps r r'
  refl r := ⟨U.refl r, V.refl r⟩
  trans h h' := ⟨U.trans h.1 h'.1, V.trans h.2 h'.2⟩

/-- Two upkeeps advance together. -/
theorem Upkeep.Advances.and {U V : Upkeep} {r r' : Registry} (h : U.Advances r r')
    (h' : V.Advances r r') : (U.and V).Advances r r' :=
  ⟨⟨h.keeps, h'.keeps⟩, h.invariant, h'.invariant⟩

variable {α β : Type} {U : Upkeep} {r : Registry}

/-- A run on a registry with the invariant advances it, and its value has a property if it ends
well. -/
def Upholds (U : Upkeep) (m : Binding α) (r : Registry) (post : α → Registry → Prop) : Prop :=
  U.invariant r → U.Advances r (m.after r) ∧ ∀ a r', m.run r = .ok a r' → post a r'

namespace Upholds

variable {P : α → Registry → Prop} {Q : β → Registry → Prop}

/-- What is known of a registry with the invariant may be used. -/
theorem of_invariant {m : Binding α} (h : U.invariant r → Upholds U m r P) : Upholds U m r P :=
  fun hr => h hr hr

/-- A run advances whether it fails or not. -/
theorem advances {m : Binding α} (h : Upholds U m r P) (hr : U.invariant r) :
    U.Advances r (m.after r) := (h hr).1

/-- After a run that ends well, the registry has advanced and the value has its property. -/
theorem of_ok {m : Binding α} (h : Upholds U m r P) (hr : U.invariant r) {a : α} {r' : Registry}
    (hrun : m.run r = .ok a r') : U.Advances r r' ∧ P a r' := by
  obtain ⟨hadvances, hpost⟩ := h hr
  rw [after_eq_of_ok hrun] at hadvances
  exact ⟨hadvances, hpost a r' hrun⟩

/-- A result that is given writes nothing. -/
theorem pure {a : α} (h : P a r) : Upholds U (Pure.pure a) r P := by
  intro hr
  refine ⟨.refl hr, fun b r' hrun => ?_⟩
  cases hrun
  exact h

/-- An error writes nothing. -/
theorem throw (e : MappingError) : Upholds U (MonadExcept.throw e) r P := by
  intro hr
  exact ⟨.refl hr, fun a r' hrun => by cases hrun⟩

/-- The second half of a sequence starts from a registry that has advanced, with a value that has
its property. -/
theorem bind {m : Binding α} {f : α → Binding β} (hm : Upholds U m r P)
    (hf : ∀ a r', U.keeps r r' → P a r' → Upholds U (f a) r' Q) : Upholds U (m >>= f) r Q := by
  intro hr
  cases hrun : m.run r with
  | error e r' =>
    have hadvances := hm.advances hr
    rw [after_eq_of_error hrun] at hadvances
    rw [after_bind_of_error hrun]
    refine ⟨hadvances, fun b r'' hbind => ?_⟩
    rw [run_bind_of_error hrun] at hbind
    cases hbind
  | ok a r' =>
    obtain ⟨hfirst, hpost⟩ := hm.of_ok hr hrun
    obtain ⟨hsecond, hlast⟩ := hf a r' hfirst.keeps hpost hfirst.invariant
    rw [after_bind_of_ok hrun]
    refine ⟨hfirst.trans hsecond, fun b r'' hbind => hlast b r'' ?_⟩
    rwa [run_bind_of_ok hrun] at hbind

/-- The property of the value may be weakened. -/
theorem mono {P' : α → Registry → Prop} {m : Binding α} (hm : Upholds U m r P)
    (h : ∀ a r', U.keeps r r' → P a r' → P' a r') : Upholds U m r P' := by
  intro hr
  refine ⟨hm.advances hr, fun a r' hrun => ?_⟩
  obtain ⟨hadvances, hpost⟩ := hm.of_ok hr hrun
  exact h a r' hadvances.keeps hpost

/-- A value is made from that of a computation. -/
theorem map {f : α → β} {m : Binding α} (hm : Upholds U m r P)
    (h : ∀ a r', U.keeps r r' → P a r' → Q (f a) r') : Upholds U (f <$> m) r Q := by
  rw [map_eq_pure_bind]
  exact hm.bind fun a r' hkeeps hpost => .pure (h a r' hkeeps hpost)

/-- A sequence that starts by reading the registry. -/
theorem get_bind {f : Registry → Binding β} (h : Upholds U (f r) r Q) :
    Upholds U (MonadState.get >>= f) r Q := h

/-- An error ends the computation, so what follows does not matter. -/
theorem throw_bind (e : MappingError) (f : α → Binding β) :
    Upholds U (MonadExcept.throw e >>= f) r Q :=
  bind (throw e (P := fun _ _ => False)) fun _ _ _ => False.elim

/-- A value that is required is given or refused. -/
theorem require {o : Option α} (e : MappingError) (h : ∀ a, o = some a → P a r) :
    Upholds U (Binding.require e o) r P := by
  cases o with
  | none => exact throw e
  | some a => exact pure (h a rfl)

/-- So is one that was computed before. -/
theorem ofExcept {x : Except MappingError α} (h : ∀ a, x = .ok a → P a r) :
    Upholds U (Binding.ofExcept x) r P := by
  cases x with
  | error e => exact throw e
  | ok a => exact pure (h a rfl)

/-- What follows a required value may use that it is there. -/
theorem require_bind {o : Option α} {e : MappingError} {f : α → Binding β}
    (h : ∀ a, o = some a → Upholds U (f a) r Q) : Upholds U (Binding.require e o >>= f) r Q := by
  cases o with
  | none => exact throw_bind e f
  | some a => exact h a rfl

/-- What follows a checked value may use that it passed the check. -/
theorem ofExcept_bind {x : Except MappingError α} {f : α → Binding β}
    (h : ∀ a, x = .ok a → Upholds U (f a) r Q) : Upholds U (Binding.ofExcept x >>= f) r Q := by
  cases x with
  | error e => exact throw_bind e f
  | ok a => exact h a rfl

/-- A change of the registry, of which nothing else has to be known. -/
theorem write {f : Registry → Registry} (h : U.invariant r → U.Advances r (f r)) :
    Upholds U (modify f : Binding PUnit) r fun _ _ => True :=
  fun hr => ⟨h hr, fun _ _ _ => trivial⟩

/-- A change of the registry after which the value has a property. -/
theorem modify {f : Registry → Registry} {P : PUnit → Registry → Prop}
    (h : U.invariant r → U.Advances r (f r) ∧ P ⟨⟩ (f r)) :
    Upholds U (modify f : Binding PUnit) r P := by
  intro hr
  obtain ⟨hadvances, hpost⟩ := h hr
  refine ⟨hadvances, fun a r' hrun => ?_⟩
  cases hrun
  exact hpost

/-- A registration after which there is a property, if it is accepted. -/
theorem register {f : Registry → Except MappingError Registry} {P : PUnit → Registry → Prop}
    (h : ∀ r', U.invariant r → f r = .ok r' → U.Advances r r' ∧ P ⟨⟩ r') :
    Upholds U (Binding.register f) r P := by
  intro hr
  refine ⟨?_, fun u r' hrun => (h r' hr (run_register_eq_ok.mp hrun)).2⟩
  rw [after_register]
  cases hf : f r with
  | error e => exact .refl hr
  | ok r' => exact (h r' hr hf).1

/-- A choice upholds what both of its branches uphold. -/
theorem ite {c : Prop} [Decidable c] {m n : Binding α} (hm : c → Upholds U m r P)
    (hn : ¬c → Upholds U n r P) : Upholds U (if c then m else n) r P := by
  split
  · exact hm ‹_›
  · exact hn ‹_›

/-- A step that is taken or left out before the rest; the rest may use what holds either way. -/
theorem either {c : Prop} [Decidable c] {m : Binding Unit} {k : Unit → Binding β}
    {P : Registry → Prop} (htaken : c → Upholds U m r fun _ r' => P r') (hleft : ¬c → P r)
    (hk : ∀ r', U.keeps r r' → P r' → Upholds U (k ()) r' Q) :
    Upholds U (if c then m >>= k else k ()) r Q :=
  ite (fun hc => bind (htaken hc) fun _ r' hkeeps hpost => hk r' hkeeps hpost) fun hc =>
    hk r (U.refl r) (hleft hc)

/-- A step that is taken or left out before the rest. -/
theorem optional {c : Prop} [Decidable c] {m : Binding Unit} {k : Unit → Binding β}
    (hm : c → Upholds U m r fun _ _ => True)
    (hk : ∀ r', U.keeps r r' → Upholds U (k ()) r' Q) :
    Upholds U (if c then m >>= k else k ()) r Q :=
  either (P := fun _ => True) hm (fun _ => trivial) fun r' hkeeps _ => hk r' hkeeps

/-- The value of a computation may be dropped. -/
theorem discard {m : Binding α} (hm : Upholds U m r P) :
    Upholds U (discard m) r fun _ _ => True :=
  bind hm fun _ _ _ _ => pure trivial

/-- A loop over a list, each round of which may start from any later registry. -/
theorem forM {f : α → Binding PUnit} {l : List α}
    (h : ∀ a ∈ l, ∀ r', U.keeps r r' → Upholds U (f a) r' fun _ _ => True) :
    Upholds U (l.forM f) r fun _ _ => True := by
  induction l generalizing r with
  | nil => exact pure trivial
  | cons a l ih =>
    refine bind (h a List.mem_cons_self r (U.refl r)) fun _ r₁ hkeeps _ => ih ?_
    intro b hb r' hkeeps'
    exact h b (List.mem_cons_of_mem a hb) r' (U.trans hkeeps hkeeps')

/-- A computation that takes steps of one kind only advances a registry if each step does, and
its value has whatever property it yields. -/
theorem of_makes {R : Registry → Registry → Prop} {m : Binding α} {P : α → Prop}
    (hm : Makes R m) (hyields : Yields m P)
    (h : ∀ r r', R r r' → U.invariant r → U.Advances r r') :
    Upholds U m r fun a _ => P a := by
  intro hr
  exact ⟨.of_steps (h _ _) (hm r) hr, fun a r' hrun => hyields r a r' hrun⟩

/-- A value may be shown to have two properties one by one. -/
theorem also {m : Binding α} {P' : α → Registry → Prop} (h : Upholds U m r P)
    (h' : Upholds U m r P') : Upholds U m r fun a r' => P a r' ∧ P' a r' :=
  fun hr => ⟨h.advances hr, fun _ _ hrun => ⟨(h.of_ok hr hrun).2, (h'.of_ok hr hrun).2⟩⟩

/-- What upholds two upkeeps one by one upholds both of them. -/
theorem and {V : Upkeep} {m : Binding α} {Q : α → Registry → Prop} (h : Upholds U m r P)
    (h' : Upholds V m r Q) : Upholds (U.and V) m r fun a r' => P a r' ∧ Q a r' :=
  fun hr => ⟨(h.advances hr.1).and (h'.advances hr.2), fun _ _ hrun =>
    ⟨(h.of_ok hr.1 hrun).2, (h'.of_ok hr.2 hrun).2⟩⟩

/-- The run itself may be used to show what property the value has. -/
theorem of_run {m : Binding α} {P' : α → Registry → Prop} (h : Upholds U m r P)
    (h' : ∀ a r', m.run r = .ok a r' → P a r' → P' a r') : Upholds U m r P' :=
  fun hr => ⟨h.advances hr, fun a r' hrun => h' a r' hrun (h.of_ok hr hrun).2⟩

/-- A computation that takes steps of one kind only upholds what each of these keeps. -/
theorem of_steps {R : Registry → Registry → Prop} {m : Binding α} (hm : Makes R m)
    (h : ∀ r r', R r r' → U.invariant r → U.Advances r r') : Upholds U m r fun _ _ => True :=
  of_makes hm (P := fun _ => True) (fun _ _ _ _ => trivial) h

end Upholds

/-! ## Steps as an upkeep -/

/-- The upkeep of steps of one kind: any registry will do, and a later one is reached by some of
the steps. -/
def Upkeep.ofSteps (S : Registry → Registry → Prop) : Upkeep where
  invariant _ := True
  keeps := Relation.ReflTransGen S
  refl _ := .refl
  trans := .trans

/-- A computation that takes steps of one kind upholds these. -/
theorem Makes.upholds {S : Registry → Registry → Prop} {m : Binding α} (h : Makes S m) :
    Upholds (.ofSteps S) m r fun _ _ => True :=
  fun _ => ⟨⟨h r, trivial⟩, fun _ _ _ => trivial⟩

/-- A computation that upholds steps of one kind takes no others. -/
theorem makes_of_upholds {S : Registry → Registry → Prop} {m : Binding α}
    {P : α → Registry → Prop} (h : ∀ r, Upholds (.ofSteps S) m r P) : Makes S m :=
  fun r => ((h r).advances trivial).keeps

end Binding

end ObjectMapping
