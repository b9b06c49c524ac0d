import ObjectMapping.Proofs.Forest
import ObjectMapping.Proofs.Grounding

/-!
# Chains of superclasses

What is bound from documents is a forest, but entities can be added to a registry in any order, and
each may have any superclass: one that is not registered, itself, or one that it is a superclass of.
So following superclasses ends at a root, or at a superclass that is missing, or goes in circles.
The chain of an entity is found by a climb that would not end on a circle by itself: it gives up
after one entity more than are registered.

Where following superclasses ends, the entities it passes form an *ascent*.  What follows an entity
in an ascent is determined by the entity, so no entity is passed twice, and the climb ends before it
would give up.  Where it does not end, the climb passes more entities than there are, so it passes
one twice, which is then a superclass of itself.
-/

namespace ObjectMapping.Registry

/-- The registered superclass of an entity. -/
def superior? (r : Registry) (e : Entity) : Option Entity := e.superclass?.bind r.entity?

/-! ## Climbs -/

/-- A climb up a hierarchy: the entities passed so far, and the one that comes next. -/
structure Climb where
  passed : List Entity := []
  next : Option Entity

namespace Climb

/-- The climb after one more entity.  There is none if no entity comes next, or if more were passed
than are registered. -/
def step? (r : Registry) (c : Climb) : Option Climb :=
  match c.next with
  | none => none
  | some e =>
    if c.passed.length > r.entities.size then none
    else some { passed := c.passed ++ [e], next := r.superior? e }

/-- A climb that halts, with all the entities it passed. -/
inductive Halts (r : Registry) : Climb → List Entity → Prop
  | stop {c : Climb} (h : c.step? r = none) : Halts r c c.passed
  | step {c c' : Climb} {passed : List Entity} (h : c.step? r = some c')
      (hrest : Halts r c' passed) : Halts r c passed

end Climb

/-- An entity and those that follow it, at most as many as the bound says. -/
def ascend (r : Registry) : Nat → Option Entity → List Entity
  | 0, _ => []
  | _ + 1, none => []
  | bound + 1, some e => e :: r.ascend bound (r.superior? e)

section

variable {r : Registry} {bound : Nat} {next : Option Entity}

/-- A chain is what is passed from the entity of its name on. -/
theorem chainWithin_eq_ascend (r : Registry) (bound : Nat) (name : String) :
    r.chainWithin bound name = r.ascend bound (r.entity? name) := by
  induction bound generalizing name with
  | zero => rfl
  | succ bound ih =>
    rw [chainWithin]
    cases r.entity? name with
    | none => rfl
    | some e =>
      simp only [ascend, superior?]
      cases e.superclass? with
      | none => cases bound <;> rfl
      | some s => exact congrArg (e :: ·) (ih s)

/-- A bound is kept. -/
theorem length_ascend_le : (r.ascend bound next).length ≤ bound := by
  induction bound generalizing next with
  | zero => exact le_refl 0
  | succ bound ih =>
    cases next with
    | none => exact Nat.zero_le _
    | some e => exact Nat.succ_le_succ ih

/-- A climb halts when it has passed one entity more than are registered, if not before. -/
theorem Climb.halts {c : Climb} (h : c.passed.length + bound = r.entities.size + 1) :
    c.Halts r (c.passed ++ r.ascend bound c.next) := by
  induction bound generalizing c with
  | zero =>
    have hstop : c.step? r = none := by
      unfold step?
      split
      · rfl
      · rw [if_pos (by omega)]
    rw [ascend, List.append_nil]
    exact .stop hstop
  | succ bound ih =>
    obtain ⟨passed, next⟩ := c
    cases next with
    | none =>
      rw [ascend, List.append_nil]
      exact .stop rfl
    | some e =>
      have hstep : step? r ⟨passed, some e⟩ = some ⟨passed ++ [e], r.superior? e⟩ := by
        refine if_neg ?_
        dsimp only at h ⊢
        omega
      have hrest := ih (c := ⟨passed ++ [e], r.superior? e⟩) (by
        simp only [List.length_append, List.length_singleton] at h ⊢
        omega)
      rw [List.append_assoc] at hrest
      exact .step hstep hrest

end

/-! ## Ascents -/

/-- What following superclasses passes, where it ends: at a root, or where a superclass is not
registered. -/
inductive Ascent (r : Registry) : Option Entity → List Entity → Prop
  | ended : Ascent r none []
  | passing {e : Entity} {above : List Entity} (h : Ascent r (r.superior? e) above) :
      Ascent r (some e) (e :: above)

namespace Ascent

variable {r : Registry} {next : Option Entity} {line : List Entity}

/-- An ascent is determined by where it starts. -/
theorem unique (h : r.Ascent next line) {line' : List Entity} (h' : r.Ascent next line') :
    line = line' := by
  induction h generalizing line' with
  | ended =>
    cases h'
    rfl
  | passing _ ih =>
    cases h' with
    | passing h' => rw [ih h']

/-- What follows an entity in an ascent is an ascent, too. -/
theorem above (h : r.Ascent next line) {e : Entity} (he : e ∈ line) :
    ∃ above, r.Ascent (r.superior? e) above ∧ above.length < line.length := by
  induction h with
  | ended => cases he
  | @passing first above habove ih =>
    rcases List.mem_cons.mp he with rfl | hlater
    · exact ⟨above, habove, Nat.lt_succ_self _⟩
    · obtain ⟨rest, hrest, hlength⟩ := ih hlater
      exact ⟨rest, hrest, Nat.lt_succ_of_lt hlength⟩

/-- No entity is passed twice: what follows it would have to be shorter than it is. -/
theorem nodup (h : r.Ascent next line) : line.Nodup := by
  induction h with
  | ended => exact .nil
  | passing habove ih =>
    refine List.nodup_cons.mpr ⟨fun hagain => ?_, ih⟩
    obtain ⟨rest, hrest, hlength⟩ := habove.above hagain
    rw [habove.unique hrest] at hlength
    exact Nat.lt_irrefl _ hlength

/-- A bound that lets an ascent pass does not change it. -/
theorem ascend_eq (h : r.Ascent next line) {bound : Nat} (hbound : line.length ≤ bound) :
    r.ascend bound next = line := by
  induction h generalizing bound with
  | ended => cases bound <;> rfl
  | passing _ ih =>
    cases bound with
    | zero => cases hbound
    | succ bound => rw [ascend, ih (Nat.le_of_succ_le_succ hbound)]

/-- The last entity of an ascent has no registered superclass. -/
theorem superior?_getLast? (h : r.Ascent next line) {e : Entity} (hlast : line.getLast? = some e) :
    r.superior? e = none := by
  induction h with
  | ended => cases hlast
  | @passing first above habove ih =>
    cases hnext : r.superior? first with
    | none =>
      rw [hnext] at habove
      cases habove
      cases hlast
      exact hnext
    | some second =>
      rw [hnext] at habove
      cases habove
      exact ih (by simpa using hlast)

end Ascent

/-- What did not reach the bound is an ascent. -/
theorem ascent_ascend {r : Registry} {bound : Nat} {next : Option Entity}
    (h : (r.ascend bound next).length < bound) : r.Ascent next (r.ascend bound next) := by
  induction bound generalizing next with
  | zero => cases h
  | succ bound ih =>
    cases next with
    | none => exact .ended
    | some e => exact .passing (ih (Nat.lt_of_succ_lt_succ h))

/-! ## Ancestors -/

section

variable {r : Registry} {name s : String} {e : Entity} {line : List Entity}

/-- The registered superclass of an entity is the one of that name. -/
theorem superior?_eq (hs : e.superclass? = some s) : r.superior? e = r.entity? s := by
  rw [superior?, hs]
  rfl

/-- A root has no registered superclass. -/
theorem superior?_of_isRoot (h : e.isRoot = true) : r.superior? e = none := by
  rw [superior?, isRoot_iff.mp h]
  rfl

/-- Different registered entities are no more than there are. -/
theorem length_le_of_registered (hnodup : line.Nodup)
    (hregistered : ∀ e ∈ line, ∃ name, r.entity? name = some e) :
    line.length ≤ r.entities.size := by
  have hsubset : line ⊆ r.entities.values := fun e he =>
    KeyedList.mem_values_iff.mpr (hregistered e he)
  have hle := (List.subperm_of_subset hnodup hsubset).length_le
  rw [KeyedList.values, List.length_map] at hle
  exact hle

/-- Following superclasses passes the ancestors. -/
theorem Ancestor.mem_ascent (h : r.Ancestor name e) (hline : r.Ascent (r.entity? name) line) :
    e ∈ line := by
  induction h generalizing line with
  | self he =>
    rw [he] at hline
    cases hline with
    | passing => exact List.mem_cons_self
  | superclass he hs _ ih =>
    rw [he] at hline
    cases hline with
    | passing habove =>
      rw [superior?_eq hs] at habove
      exact List.mem_cons_of_mem _ (ih habove)

/-- Following superclasses ends at an ancestor that has no registered one. -/
theorem Ancestor.ascent_of_last (h : r.Ancestor name e) (hlast : r.superior? e = none) :
    ∃ line, r.Ascent (r.entity? name) line ∧ line.getLast? = some e := by
  induction h with
  | @self _ e he =>
    rw [he]
    refine ⟨[e], .passing ?_, rfl⟩
    rw [hlast]
    exact .ended
  | superclass he hs _ ih =>
    obtain ⟨above, habove, hend⟩ := ih hlast
    rw [← superior?_eq hs] at habove
    rw [he]
    refine ⟨_, .passing habove, ?_⟩
    rw [List.getLast?_cons, hend]
    rfl

/-- An ascent passes registered entities, each once, so it is no longer than there are entities. -/
theorem Ascent.length_le (h : r.Ascent (r.entity? name) line) :
    line.length ≤ r.entities.size := by
  refine length_le_of_registered h.nodup fun e he => ?_
  rw [← h.ascend_eq (le_refl _), ← chainWithin_eq_ascend] at he
  exact (ancestor_of_mem_chainWithin he).registered

/-- A chain whose end is reached by following superclasses is not cut. -/
theorem Ascent.superclassChain_eq (h : r.Ascent (r.entity? name) line) :
    r.superclassChain name = line := by
  rw [superclassChain, chainWithin_eq_ascend]
  exact h.ascend_eq (Nat.le_succ_of_le h.length_le)

end

/-! ## Loose ends and circles -/

/-- Following superclasses from a name ends at one that is not registered. -/
def Dangles (r : Registry) (name : String) : Prop :=
  ∃ e s, r.Ancestor name e ∧ e.superclass? = some s ∧ r.entity? s = none

/-- Following superclasses from a name comes to an entity that it comes to again from there. -/
def Circles (r : Registry) (name : String) : Prop :=
  ∃ e s, r.Ancestor name e ∧ e.superclass? = some s ∧ r.Ancestor s e

section

variable {r : Registry} {name : String}

/-- What leads into a circle has no ascent. -/
theorem Circles.not_ascent (h : r.Circles name) {line : List Entity} :
    ¬ r.Ascent (r.entity? name) line := by
  intro hline
  obtain ⟨e, s, he, hs, hagain⟩ := h
  obtain ⟨above, habove, -⟩ := hline.above (he.mem_ascent hline)
  have htwice : e ∈ above := hagain.mem_ascent (superior?_eq hs ▸ habove)
  exact (List.nodup_cons.mp habove.passing.nodup).1 htwice

/-- An entity that is passed twice stands on a circle. -/
theorem circles_of_not_nodup {bound : Nat} (h : ¬ (r.chainWithin bound name).Nodup) :
    r.Circles name := by
  induction bound generalizing name with
  | zero => exact absurd .nil h
  | succ bound ih =>
    rw [chainWithin] at h
    split at h
    · exact absurd .nil h
    · next e he =>
      split at h
      · exact absurd (List.nodup_singleton e) h
      · next s hs =>
        rw [List.nodup_cons, not_and_or, not_not] at h
        rcases h with htwice | hlater
        · exact ⟨e, s, .self he, hs, ancestor_of_mem_chainWithin htwice⟩
        · obtain ⟨e', s', he', hs', hagain⟩ := ih hlater
          exact ⟨e', s', .superclass he hs he', hs', hagain⟩

/-- A climb is cut just if it leads into a circle. -/
theorem length_superclassChain_eq_iff :
    (r.superclassChain name).length = r.entities.size + 1 ↔ r.Circles name := by
  have hchain : r.superclassChain name = r.ascend (r.entities.size + 1) (r.entity? name) :=
    chainWithin_eq_ascend r _ name
  constructor
  · intro hcut
    refine @circles_of_not_nodup r name (r.entities.size + 1) fun hnodup => ?_
    have hle := length_le_of_registered hnodup fun e he =>
      (ancestor_of_mem_chainWithin he).registered
    rw [superclassChain] at hcut
    omega
  · intro hcircles
    rw [hchain]
    refine Nat.le_antisymm length_ascend_le (Nat.le_of_not_lt fun hlt => ?_)
    exact hcircles.not_ascent (ascent_ascend hlt)

/-- Away from circles the chain is an ascent. -/
theorem ascent_superclassChain (h : ¬ r.Circles name) :
    r.Ascent (r.entity? name) (r.superclassChain name) := by
  rw [← length_superclassChain_eq_iff] at h
  rw [superclassChain, chainWithin_eq_ascend] at h ⊢
  exact ascent_ascend (Nat.lt_of_le_of_ne length_ascend_le h)

/-- A root is found just if following superclasses leads to it. -/
theorem rootOf?_eq_some_iff {root : Entity} :
    r.rootOf? name = some root ↔ r.Ancestor name root ∧ root.isRoot = true := by
  rw [rootOf?, Option.filter_eq_some_iff]
  refine and_congr_left fun hroot => ⟨fun hlast => ?_, fun hancestor => ?_⟩
  · exact ancestor_of_mem_chainWithin (List.mem_of_getLast? hlast)
  · obtain ⟨line, hline, hlast⟩ := hancestor.ascent_of_last (superior?_of_isRoot hroot)
    rw [hline.superclassChain_eq, hlast]

/-- No root is found just if there is nothing to start from, or following superclasses does not end
at a root. -/
theorem rootOf?_eq_none_iff :
    r.rootOf? name = none ↔ r.entity? name = none ∨ r.Dangles name ∨ r.Circles name := by
  constructor
  · intro hnone
    by_cases hcircles : r.Circles name
    · exact .inr (.inr hcircles)
    have hascent := ascent_superclassChain hcircles
    cases hlast : (r.superclassChain name).getLast? with
    | none =>
      rw [List.getLast?_eq_none_iff.mp hlast] at hascent
      cases hname : r.entity? name with
      | none => exact .inl rfl
      | some e =>
        rw [hname] at hascent
        cases hascent
    | some e =>
      have hancestor := ancestor_of_mem_chainWithin (List.mem_of_getLast? hlast)
      cases hs : e.superclass? with
      | none =>
        rw [rootOf?_eq_some_iff.mpr ⟨hancestor, isRoot_iff.mpr hs⟩] at hnone
        cases hnone
      | some s =>
        have hmissing := hascent.superior?_getLast? hlast
        rw [superior?_eq hs] at hmissing
        exact .inr (.inl ⟨e, s, hancestor, hs, hmissing⟩)
  · intro hstray
    refine Option.eq_none_iff_forall_ne_some.mpr fun root hfound => ?_
    obtain ⟨hancestor, hroot⟩ := rootOf?_eq_some_iff.mp hfound
    obtain ⟨line, hline, hlast⟩ := hancestor.ascent_of_last (superior?_of_isRoot hroot)
    rcases hstray with hmissing | ⟨e, s, he, hs, hmissing⟩ | hcircles
    · rw [hmissing] at hline
      cases hline
      cases hlast
    · -- Following superclasses has one end, which would be both the root and the loose end.
      obtain ⟨line', hline', hlast'⟩ := he.ascent_of_last ((superior?_eq hs).trans hmissing)
      rw [hline'.unique hline, hlast] at hlast'
      cases hlast'
      rw [isRoot_iff.mp hroot] at hs
      cases hs
    · exact hcircles.not_ascent hline

end

/-- Whatever superclasses the entities of a registry have, the climb from a name halts, with the
chain of the name.  A chain has at most one entity more than are registered, and that many just if
it leads into a circle.  Where following superclasses ends, at a root or at one that is missing, the
chain is all of what is passed.  The root of a name is what following superclasses leads to, if that
is a root; there is none just if the name is not registered, or a superclass is missing, or it leads
into a circle. -/
theorem superclassChain_safe_and_complete (r : Registry) (name : String) :
    Climb.Halts r { next := r.entity? name } (r.superclassChain name) ∧
    (r.superclassChain name).length ≤ r.entities.size + 1 ∧
    ((r.superclassChain name).length = r.entities.size + 1 ↔ r.Circles name) ∧
    (∀ line, r.Ascent (r.entity? name) line → r.superclassChain name = line) ∧
    (∀ root, r.rootOf? name = some root ↔ r.Ancestor name root ∧ root.isRoot = true) ∧
    (r.rootOf? name = none ↔ r.entity? name = none ∨ r.Dangles name ∨ r.Circles name) := by
  have hchain : r.superclassChain name = r.ascend (r.entities.size + 1) (r.entity? name) :=
    chainWithin_eq_ascend r _ name
  refine ⟨?_, hchain ▸ length_ascend_le, length_superclassChain_eq_iff,
    fun _ h => h.superclassChain_eq, fun _ => rootOf?_eq_some_iff, rootOf?_eq_none_iff⟩
  rw [hchain]
  exact Climb.halts (c := { next := r.entity? name }) (Nat.zero_add _)

/-! ## Strays -/

/-- An entity with a superclass, or without one. -/
def stray (name : String) (superclass : Option String) : Entity where
  name
  kind := superclass.elim (.root {}) .subclass
  table := ⟨0⟩

/-- Entities in no order: a root and a subclass of it, an entity that is its own superclass, one
whose superclass is missing, and one below two that are superclasses of each other. -/
def strays : List Entity :=
  [stray "Cat" "Animal", stray "Animal" none, stray "Dog" "Dog", stray "Hen" "Bird",
    stray "Worm" "Tail", stray "Tail" "Head", stray "Head" "Tail"]

/-- What is left of adding strays to an empty registry. -/
def strayRegistry : Registry := (strays.foldlM addEntity {}).toOption.getD {}

/-- The chain of a cat is complete, and that of a hen ends where its superclass is missing.  Those
of a dog and of a worm are cut, and neither these nor a hen have a root. -/
theorem superclassChain_safe_and_complete_strays :
    strays.foldlM addEntity {} = .ok strayRegistry ∧
    strayRegistry.superclassChain "Cat" = [stray "Cat" "Animal", stray "Animal" none] ∧
    strayRegistry.rootOf? "Cat" = some (stray "Animal" none) ∧
    strayRegistry.superclassChain "Hen" = [stray "Hen" "Bird"] ∧
    strayRegistry.rootOf? "Hen" = none ∧
    (strayRegistry.superclassChain "Dog").length = strayRegistry.entities.size + 1 ∧
    strayRegistry.rootOf? "Dog" = none ∧
    (strayRegistry.superclassChain "Worm").length = strayRegistry.entities.size + 1 ∧
    strayRegistry.rootOf? "Worm" = none := by
  have hcat : strayRegistry.entity? "Cat" = some (stray "Cat" "Animal") := by rfl
  have hanimal : strayRegistry.entity? "Animal" = some (stray "Animal" none) := by rfl
  have hhen : strayRegistry.entity? "Hen" = some (stray "Hen" "Bird") := by rfl
  have hdog : strayRegistry.entity? "Dog" = some (stray "Dog" "Dog") := by rfl
  have hworm : strayRegistry.entity? "Worm" = some (stray "Worm" "Tail") := by rfl
  have htail : strayRegistry.entity? "Tail" = some (stray "Tail" "Head") := by rfl
  have hhead : strayRegistry.entity? "Head" = some (stray "Head" "Tail") := by rfl
  obtain ⟨-, -, -, hchain, hroot, -⟩ := superclassChain_safe_and_complete strayRegistry "Cat"
  obtain ⟨-, -, -, hchain', -, hnone⟩ := superclassChain_safe_and_complete strayRegistry "Hen"
  obtain ⟨-, -, hcut, -, -, hnone'⟩ := superclassChain_safe_and_complete strayRegistry "Dog"
  obtain ⟨-, -, hcut', -, -, hnone''⟩ := superclassChain_safe_and_complete strayRegistry "Worm"
  have hcatLine : strayRegistry.Ascent (strayRegistry.entity? "Cat")
      [stray "Cat" "Animal", stray "Animal" none] :=
    hcat ▸ .passing (.passing .ended)
  have hhenLine : strayRegistry.Ascent (strayRegistry.entity? "Hen") [stray "Hen" "Bird"] :=
    hhen ▸ .passing .ended
  have hdangles : strayRegistry.Dangles "Hen" := ⟨_, "Bird", .self hhen, rfl, by rfl⟩
  have hself : strayRegistry.Circles "Dog" := ⟨_, "Dog", .self hdog, rfl, .self hdog⟩
  have hcircle : strayRegistry.Circles "Worm" :=
    ⟨_, "Head", .superclass hworm rfl (.self htail), rfl, .superclass hhead rfl (.self htail)⟩
  exact ⟨by rfl, hchain _ hcatLine, (hroot _).mpr ⟨.superclass hcat rfl (.self hanimal), rfl⟩,
    hchain' _ hhenLine, hnone.mpr (.inr (.inl hdangles)), hcut.mpr hself,
    hnone'.mpr (.inr (.inr hself)), hcut'.mpr hcircle, hnone''.mpr (.inr (.inr hcircle))⟩

end ObjectMapping.Registry
