import ObjectMapping.Proofs.Preparation
import ObjectMapping.Proofs.Skeleton

/-!
# How a registry grows

The skeletons of a registry change in three ways: a root is appended, a subclass is appended
and becomes known to its superclass, or an entity declares properties.  `Growth` is one such
change and `Registry.Grows` any number of them among side writes, which leave the waiting
documents alone as well.  A computation is `Growing` if it takes every registry in which some
entities are known along growth, and whether it ends well or in an error does not matter.
That classes and whole documents are bound by growing computations is proved along the
recursion that binds them.
-/

namespace ObjectMapping

namespace EntitySkeleton

/-- The skeleton of an entity that declares nothing yet. -/
def bare (name kind : String) (superclass : Option String) : EntitySkeleton where
  name := name
  kind := kind
  superclass := superclass
  subclasses := []
  properties := []
  joins := []

/-- The skeleton after properties and joins are added. -/
def declare (k : EntitySkeleton) (properties : List String) (joins : List (List String)) :
    EntitySkeleton :=
  { k with properties := k.properties ++ properties, joins := k.joins ++ joins }

/-- The skeleton after a subclass is added. -/
def addSubclass (k : EntitySkeleton) (name : String) : EntitySkeleton :=
  { k with subclasses := k.subclasses ++ [name] }

/-- Declaring nothing changes nothing. -/
@[simp] theorem declare_nil (k : EntitySkeleton) : k.declare [] [] = k := by
  simp [declare]

/-- Declaring twice is declaring everything at once. -/
@[simp] theorem declare_declare (k : EntitySkeleton) (ps qs : List String)
    (js is : List (List String)) :
    (k.declare ps js).declare qs is = k.declare (ps ++ qs) (js ++ is) := by
  simp [declare]

end EntitySkeleton

namespace Entity

/-- An added property is declared. -/
theorem skeleton_addProperty (e : Entity) (p : Property) :
    (e.addProperty p).skeleton = e.skeleton.declare [p.name] [] := by
  simp [addProperty, skeleton, EntitySkeleton.declare, superclass?]

/-- An added join is declared. -/
theorem skeleton_addJoin (e : Entity) (j : Join) :
    ({ e with joins := e.joins ++ [j] } : Entity).skeleton
      = e.skeleton.declare [] [j.propertyNames] := by
  simp [skeleton, EntitySkeleton.declare, superclass?]

end Entity

open Registry

/-- One change of the skeletons of a registry. -/
inductive Growth : List (String × EntitySkeleton) → List (String × EntitySkeleton) → Prop
  /-- A new root is appended. -/
  | root {ks : List (String × EntitySkeleton)} {k : EntitySkeleton}
      (hnew : k.name ∉ ks.map Prod.fst) (hroot : k.superclass = none)
      (hbare : k.subclasses = []) : Growth ks (ks ++ [(k.name, k)])
  /-- A new subclass of a registered entity is appended, and that entity learns of it. -/
  | subclass {ks : List (String × EntitySkeleton)} {k : EntitySkeleton} {superclass : String}
      (hnew : k.name ∉ ks.map Prod.fst) (hknown : superclass ∈ ks.map Prod.fst)
      (hsuper : k.superclass = some superclass) (hbare : k.subclasses = []) :
      Growth ks (modifySkeleton superclass (·.addSubclass k.name) (ks ++ [(k.name, k)]))
  /-- An entity declares properties and joins. -/
  | declare (ks : List (String × EntitySkeleton)) (name : String) (properties : List String)
      (joins : List (List String)) :
      Growth ks (modifySkeleton name (·.declare properties joins) ks)

/-- Every skeleton is registered under its own name. -/
def Keyed (ks : List (String × EntitySkeleton)) : Prop := ∀ k ∈ ks, k.2.name = k.1

/-- A change that keeps names keeps every skeleton under its own name. -/
theorem Keyed.modifySkeleton {ks : List (String × EntitySkeleton)} (h : Keyed ks)
    (name : String) {g : EntitySkeleton → EntitySkeleton} (hg : ∀ k, (g k).name = k.name) :
    Keyed (modifySkeleton name g ks) := by
  intro k hk
  obtain ⟨k₀, hk₀, rfl⟩ := List.mem_map.mp hk
  by_cases hname : k₀.1 = name
  · rw [if_pos hname, hg]
    exact h k₀ hk₀
  · rw [if_neg hname]
    exact h k₀ hk₀

/-- Appending a skeleton under its own name keeps every skeleton under its own name. -/
theorem Keyed.append {ks : List (String × EntitySkeleton)} (h : Keyed ks) (k : EntitySkeleton) :
    Keyed (ks ++ [(k.name, k)]) := by
  intro k' hk'
  rcases List.mem_append.mp hk' with hold | hnew
  · exact h k' hold
  · rw [List.mem_singleton.mp hnew]

namespace Growth

variable {ks ks' : List (String × EntitySkeleton)}

/-- Growth keeps every skeleton under its own name. -/
theorem keyed (h : Growth ks ks') (hkeyed : Keyed ks) : Keyed ks' := by
  cases h with
  | root => exact hkeyed.append _
  | subclass => exact (hkeyed.append _).modifySkeleton _ fun _ => rfl
  | declare => exact hkeyed.modifySkeleton _ fun _ => rfl

/-- Growth appends names at most. -/
theorem names (h : Growth ks ks') : ks.map Prod.fst <+: ks'.map Prod.fst := by
  cases h with
  | root => simp
  | subclass => simp
  | declare => simp

end Growth

namespace Registry

/-- A registry grows into another if skeletons change by growth alone, and the waiting
documents not at all. -/
structure Grows (r r' : Registry) : Prop where
  skeletons : Relation.ReflTransGen Growth r.skeletons r'.skeletons
  waiting : r'.waiting = r.waiting

namespace Grows

variable {r r' r'' : Registry}

/-- No change at all. -/
theorem refl (r : Registry) : Grows r r := ⟨.refl, rfl⟩

/-- Some growth after other growth. -/
theorem trans (h : Grows r r') (h' : Grows r' r'') : Grows r r'' :=
  ⟨h.skeletons.trans h'.skeletons, h'.waiting.trans h.waiting⟩

/-- Side writes change no skeleton. -/
theorem of_sideWrites (h : SideWrites r r') : Grows r r' := by
  refine ⟨?_, h.waiting⟩
  rw [h.skeletons]

/-- An invariant of single changes is an invariant of growth. -/
theorem invariant {P : List (String × EntitySkeleton) → Prop}
    (hstep : ∀ {ks ks'}, Growth ks ks' → P ks → P ks') (h : Grows r r') (hr : P r.skeletons) :
    P r'.skeletons := by
  have hgrowth := h.skeletons
  generalize r'.skeletons = ks at hgrowth ⊢
  induction hgrowth with
  | refl => exact hr
  | tail _ hlast ih => exact hstep hlast ih

/-- Growth keeps every skeleton under its own name. -/
theorem keyed (h : Grows r r') (hkeyed : Keyed r.skeletons) : Keyed r'.skeletons :=
  h.invariant Growth.keyed hkeyed

/-- The names of a registry stay in front as it grows. -/
theorem entityNames (h : Grows r r') : r.entityNames <+: r'.entityNames :=
  h.invariant (P := fun ks => r.entityNames <+: ks.map Prod.fst)
    (fun hstep hbefore => hbefore.trans hstep.names) (List.prefix_refl _)

/-- What is registered stays registered. -/
theorem hasEntity (h : Grows r r') {name : String} (hname : r.hasEntity name = true) :
    r'.hasEntity name = true :=
  hasEntity_iff.mpr (h.entityNames.subset (hasEntity_iff.mp hname))

/-- Changing an entity so that it declares properties and joins is growth. -/
theorem declare (r : Registry) (name : String) {f : Entity → Entity} {properties : List String}
    {joins : List (List String)}
    (h : ∀ e, (f e).skeleton = e.skeleton.declare properties joins) :
    Grows r (r.modifyEntity name f) := by
  refine ⟨?_, rfl⟩
  rw [skeletons_modifyEntity r name (g := (·.declare properties joins)) h]
  exact .single (.declare _ _ _ _)

/-- Registering a root is growth. -/
theorem addEntity {e : Entity} (h : r.addEntity e = .ok r') (hroot : e.superclass? = none)
    (hbare : e.subclasses = []) : Grows r r' := by
  obtain ⟨hnew, rfl⟩ := addEntity_eq_ok.mp h
  refine ⟨?_, rfl⟩
  rw [skeletons_insert hnew]
  have hname : e.name ∉ r.entityNames := by
    rw [← hasEntity_iff, hnew]
    exact Bool.false_ne_true
  exact .single (Growth.root (k := e.skeleton) hname hroot hbare)

end Grows

end Registry

/-! ## Growing computations -/

namespace Binding

variable {α β : Type}

/-- A computation that makes registries grow in which some entities are known. -/
def Growing (known : List String) (m : Binding α) : Prop :=
  ∀ r : Registry, Keyed r.skeletons → (∀ name ∈ known, r.hasEntity name = true) →
    Grows r (m.after r)

namespace Growing

variable {known : List String}

/-- A computation for which nothing has to be known makes every registry grow. -/
theorem grows {m : Binding α} (h : Growing [] m) {r : Registry} (hkeyed : Keyed r.skeletons) :
    Grows r (m.after r) :=
  h r hkeyed fun _ hname => absurd hname List.not_mem_nil

/-- A run that ends well leaves a registry behind that has grown. -/
theorem of_ok {m : Binding α} (h : Growing known m) {r r' : Registry} {a : α}
    (hkeyed : Keyed r.skeletons) (hknown : ∀ name ∈ known, r.hasEntity name = true)
    (hrun : m.run r = .ok a r') : Grows r r' := by
  rw [← after_eq_of_ok hrun]
  exact h r hkeyed hknown

/-- Side writes are growth. -/
theorem of_aside {m : Binding α} (h : m.Aside) : Growing known m :=
  fun r _ _ => .of_sideWrites (h r)

theorem pure (a : α) : Growing known (Pure.pure a : Binding α) := fun r _ _ => .refl r

/-- What is known at the start of a sequence is known between its halves. -/
theorem bind {m : Binding α} {f : α → Binding β} (hm : Growing known m)
    (hf : ∀ a, Growing known (f a)) : Growing known (m >>= f) := by
  intro r hkeyed hknown
  have hfirst := hm r hkeyed hknown
  refine rel_after_bind (R := Grows) Grows.trans hfirst fun a r' hrun => ?_
  rw [after_eq_of_ok hrun] at hfirst
  exact hf a r' (hfirst.keyed hkeyed) fun name hname => hfirst.hasEntity (hknown name hname)

theorem ite {c : Prop} [Decidable c] {m n : Binding α} (hm : Growing known m)
    (hn : Growing known n) : Growing known (if c then m else n) := by
  split
  · exact hm
  · exact hn

/-- A loop is growth if every round is. -/
theorem forM {f : α → Binding PUnit} (h : ∀ a, Growing known (f a)) (l : List α) :
    Growing known (l.forM f) := by
  induction l with
  | nil => exact pure _
  | cons a l ih => exact bind (h a) fun _ => ih

end Growing

end Binding

end ObjectMapping
