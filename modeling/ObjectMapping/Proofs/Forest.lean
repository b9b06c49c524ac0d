import ObjectMapping.Proofs.Custody

/-!
# Hierarchies are forests

A subclass is registered only if its superclass is, and learns of its superclass in the same
move in which the superclass learns of it.  So in every reachable registry, whatever errors came
before, each superclass comes earlier than its subclasses, chains of superclasses descend in the
order of registration until they end at a root, and every entity knows exactly its subclasses.
-/

namespace ObjectMapping

open Binding Registry

/-! ## Links -/

/-- The names of a registry with the superclasses they are linked to. -/
def links (ks : List (String × EntitySkeleton)) : List (String × Option String) :=
  ks.map fun k => (k.1, k.2.superclass)

/-- The names that are linked to a superclass, in order. -/
def linkedTo (ls : List (String × Option String)) (name : String) : List String :=
  (ls.filter fun l => l.2 = some name).map Prod.fst

/-- Every name is linked to an earlier one at most. -/
def LinkedBackwards (ls : List (String × Option String)) : Prop :=
  ∀ (j : Nat) (l : String × Option String) (s : String), ls[j]? = some l → l.2 = some s →
    ∃ i < j, (ls.map Prod.fst)[i]? = some s

/-- The names of the links are the names of the skeletons. -/
@[simp] theorem map_fst_links (ks : List (String × EntitySkeleton)) :
    (links ks).map Prod.fst = ks.map Prod.fst := by
  simp [links, Function.comp_def]

/-- A change that keeps superclasses keeps links. -/
theorem links_modifySkeleton (name : String) {g : EntitySkeleton → EntitySkeleton}
    (hg : ∀ k, (g k).superclass = k.superclass) (ks : List (String × EntitySkeleton)) :
    links (modifySkeleton name g ks) = links ks := by
  rw [links, links, modifySkeleton, List.map_map]
  apply List.map_congr_left
  intro k _
  by_cases h : k.1 = name <;> simp [h, hg]

/-- Links of an appended skeleton. -/
theorem links_append (ks : List (String × EntitySkeleton)) (k : EntitySkeleton) :
    links (ks ++ [(k.name, k)]) = links ks ++ [(k.name, k.superclass)] := by
  simp [links]

/-- A name may be appended if it is linked to an earlier one at most. -/
theorem LinkedBackwards.append {ls : List (String × Option String)} (h : LinkedBackwards ls)
    {name : String} {superclass : Option String}
    (hknown : ∀ s, superclass = some s → s ∈ ls.map Prod.fst) :
    LinkedBackwards (ls ++ [(name, superclass)]) := by
  intro j l s hl hs
  rw [List.map_append]
  rcases Nat.lt_or_ge j ls.length with hold | hnew
  · rw [List.getElem?_append_left hold] at hl
    obtain ⟨i, hi, his⟩ := h j l s hl hs
    refine ⟨i, hi, ?_⟩
    rw [List.getElem?_append_left (by rw [List.length_map]; omega)]
    exact his
  · rw [List.getElem?_append_right hnew] at hl
    obtain ⟨hzero, rfl⟩ := List.getElem?_eq_some_iff.mp hl
    simp only [List.getElem_singleton] at hs
    obtain ⟨i, his⟩ := List.mem_iff_getElem?.mp (hknown s hs)
    obtain ⟨hi, -⟩ := List.getElem?_eq_some_iff.mp his
    refine ⟨i, ?_, ?_⟩
    · rw [List.length_map] at hi
      omega
    · rw [List.getElem?_append_left hi]
      exact his

/-- An appended link is added to those of its superclass. -/
theorem linkedTo_append (ls : List (String × Option String)) (l : String × Option String)
    (name : String) :
    linkedTo (ls ++ [l]) name = linkedTo ls name ++ if l.2 = some name then [l.1] else [] := by
  rw [linkedTo, linkedTo, List.filter_append, List.map_append]
  by_cases h : l.2 = some name <;> simp [h]

/-- Nothing is linked to a name that is not there. -/
theorem linkedTo_eq_nil {ls : List (String × Option String)} (h : LinkedBackwards ls)
    {name : String} (hname : name ∉ ls.map Prod.fst) : linkedTo ls name = [] := by
  rw [linkedTo, List.map_eq_nil_iff, List.filter_eq_nil_iff]
  intro l hl hlinked
  obtain ⟨j, hj⟩ := List.mem_iff_getElem?.mp hl
  obtain ⟨i, -, his⟩ := h j l name hj (of_decide_eq_true hlinked)
  exact hname (List.mem_of_getElem? his)

/-! ## The invariant -/

/-- The skeletons of a registry form a forest in the order of registration. -/
structure Forest (ks : List (String × EntitySkeleton)) : Prop where
  /-- Every skeleton is registered under its own name. -/
  keyed : Keyed ks
  /-- Superclasses come before their subclasses. -/
  backwards : LinkedBackwards (links ks)
  /-- Every entity knows exactly its subclasses, in order. -/
  subclasses : ∀ k ∈ ks, k.2.subclasses = linkedTo (links ks) k.1

/-- What an entity knows of its subclasses when a skeleton without subclasses is appended. -/
theorem linkedTo_links_append {ks : List (String × EntitySkeleton)} (hks : Forest ks)
    {k : EntitySkeleton} (hnew : k.name ∉ ks.map Prod.fst) (hbare : k.subclasses = []) :
    ∀ c ∈ ks ++ [(k.name, k)], linkedTo (links (ks ++ [(k.name, k)])) c.1
      = c.2.subclasses ++ if k.superclass = some c.1 then [k.name] else [] := by
  intro c hc
  rw [links_append, linkedTo_append]
  rcases List.mem_append.mp hc with hold | hlast
  · rw [hks.subclasses c hold]
  · rw [List.mem_singleton.mp hlast]
    have hnone : linkedTo (links ks) k.name = [] :=
      linkedTo_eq_nil hks.backwards (by rwa [map_fst_links])
    rw [hnone, hbare]

/-- Growth keeps a forest a forest. -/
theorem Growth.forest {ks ks' : List (String × EntitySkeleton)} (h : Growth ks ks')
    (hks : Forest ks) : Forest ks' := by
  have hkeyed := h.keyed hks.keyed
  cases h with
  | @root k hnew hroot hbare =>
    refine ⟨hkeyed, ?_, fun c hc => ?_⟩
    · rw [links_append, hroot]
      exact hks.backwards.append fun s hs => by cases hs
    · rw [linkedTo_links_append hks hnew hbare c hc, hroot, if_neg (by simp),
        List.append_nil]
  | @subclass k superclass hnew hregistered hsuper hbare =>
    have hlinks := links_modifySkeleton superclass (g := (·.addSubclass k.name)) (fun _ => rfl)
      (ks ++ [(k.name, k)])
    refine ⟨hkeyed, ?_, fun c hc => ?_⟩
    · rw [hlinks, links_append, hsuper]
      refine hks.backwards.append fun s hs => ?_
      cases hs
      rwa [map_fst_links]
    · rw [hlinks]
      obtain ⟨c₀, hc₀, rfl⟩ := List.mem_map.mp hc
      have hbefore := linkedTo_links_append hks hnew hbare c₀ hc₀
      rw [hsuper] at hbefore
      by_cases hsame : c₀.1 = superclass
      · rw [if_pos hsame, hbefore, if_pos (by rw [hsame])]
        rfl
      · rw [if_neg hsame, hbefore, if_neg (by simpa [eq_comm] using hsame), List.append_nil]
  | declare name properties joins =>
    have hlinks := links_modifySkeleton name (g := (·.declare properties joins)) (fun _ => rfl) ks
    refine ⟨hkeyed, ?_, fun c hc => ?_⟩
    · rw [hlinks]
      exact hks.backwards
    · rw [hlinks]
      obtain ⟨c₀, hc₀, rfl⟩ := List.mem_map.mp hc
      by_cases hsame : c₀.1 = name
      · rw [if_pos hsame]
        exact hks.subclasses c₀ hc₀
      · rw [if_neg hsame]
        exact hks.subclasses c₀ hc₀

/-- Without entities there is nothing to link. -/
theorem forest_nil : Forest [] where
  keyed := fun _ hk => absurd hk List.not_mem_nil
  backwards := fun _ _ _ hl => by simp [links] at hl
  subclasses := fun _ hk => absurd hk List.not_mem_nil

/-- The skeletons of every reachable registry form a forest. -/
theorem Session.Reachable.forest {options : RegistryOptions} {r : Registry}
    (h : Reachable options r) : Forest r.skeletons := by
  refine h.invariant (P := fun r => Forest r.skeletons) forest_nil fun hmove hr => ?_
  cases hmove with
  | grow h => exact h.invariant Growth.forest hr
  | defer | take => exact hr

/-! ## Chains of superclasses -/

namespace Registry

/-- A complete line of descent: an entity, its superclass, and so on up to a root. -/
inductive Lineage (r : Registry) : String → List Entity → Prop
  /-- A root stands alone. -/
  | root {name : String} {e : Entity} (he : r.entity? name = some e) (hroot : e.isRoot = true) :
      Lineage r name [e]
  /-- A subclass stands before the line of its superclass. -/
  | subclass {name superclass : String} {e : Entity} {line : List Entity}
      (he : r.entity? name = some e) (hsuper : e.superclass? = some superclass)
      (hline : Lineage r superclass line) : Lineage r name (e :: line)

/-- An entity is a root exactly if it has no superclass. -/
theorem isRoot_iff {e : Entity} : e.isRoot = true ↔ e.superclass? = none := by
  obtain ⟨_, _, _, _, kind, _⟩ := e
  cases kind <;> simp [Entity.isRoot, Entity.root?, Entity.superclass?, EntityKind.root?,
    EntityKind.superclass?]

/-- A line of descent ends at a root. -/
theorem Lineage.getLast? {r : Registry} {name : String} {line : List Entity}
    (h : Lineage r name line) : ∃ root, line.getLast? = some root ∧ root.isRoot = true := by
  induction h with
  | root he hroot => exact ⟨_, rfl, hroot⟩
  | subclass he hsuper hline ih =>
    obtain ⟨root, hlast, hroot⟩ := ih
    refine ⟨root, ?_, hroot⟩
    rw [List.getLast?_cons, hlast]
    rfl

/-- In a forest the superclass of an entity was registered before it. -/
theorem index_superclass {r : Registry} (hr : Forest r.skeletons) {j : Nat} {name s : String}
    {e : Entity} (hj : r.entityNames[j]? = some name) (he : r.entity? name = some e)
    (hs : e.superclass? = some s) : ∃ i < j, r.entityNames[i]? = some s := by
  rw [entityNames, List.getElem?_map] at hj
  obtain ⟨⟨name', k⟩, hk, rfl⟩ := Option.map_eq_some_iff.mp hj
  obtain ⟨e', he', hskeleton⟩ := entity?_of_mem_skeletons (List.mem_of_getElem? hk)
  rw [he] at he'
  cases he'
  have hlink : (links r.skeletons)[j]? = some (name', some s) := by
    rw [links, List.getElem?_map, hk, ← hs, ← hskeleton]
    rfl
  obtain ⟨i, hi, his⟩ := hr.backwards j _ s hlink rfl
  rw [map_fst_links] at his
  exact ⟨i, hi, his⟩

/-- The chain of a registered entity is a complete line of descent whose entities were all
registered no later than it, each after those that follow it.  By induction on the bound, which
the place of the entity in the order of registration stays below. -/
theorem lineage_chainWithin {r : Registry} (hr : Forest r.skeletons) {bound j : Nat}
    {name : String} (hj : r.entityNames[j]? = some name) (hbound : j < bound) :
    Lineage r name (r.chainWithin bound name) ∧
      ((r.chainWithin bound name).map Entity.name).Nodup ∧
      ∀ e ∈ r.chainWithin bound name, ∃ i ≤ j, r.entityNames[i]? = some e.name := by
  induction bound generalizing j name with
  | zero => omega
  | succ bound ih =>
    obtain ⟨e, he⟩ := hasEntity_iff_exists.mp (hasEntity_iff.mpr (List.mem_of_getElem? hj))
    have hname : e.name = name := hr.keyed _ (mem_skeletons_of_entity? he)
    rw [chainWithin, he]
    dsimp only
    cases hsuper : e.superclass? with
    | none =>
      refine ⟨.root he (isRoot_iff.mpr hsuper), by simp, fun e' he' => ⟨j, le_refl j, ?_⟩⟩
      rw [List.mem_singleton.mp he', hname]
      exact hj
    | some s =>
      obtain ⟨i, hi, his⟩ := index_superclass hr hj he hsuper
      obtain ⟨hline, hnodup, hindex⟩ := ih his (by omega)
      refine ⟨.subclass he hsuper hline, ?_, fun e' he' => ?_⟩
      · rw [List.map_cons, List.nodup_cons]
        refine ⟨fun hrepeated => ?_, hnodup⟩
        obtain ⟨e', he', hsame⟩ := List.mem_map.mp hrepeated
        obtain ⟨i', hi', hi's⟩ := hindex e' he'
        rw [hsame, hname] at hi's
        have hplace := (List.getElem?_inj (by
          rw [List.getElem?_eq_some_iff] at hj
          exact hj.1) r.nodup_entityNames).mp (hj.trans hi's.symm)
        omega
      · rcases List.mem_cons.mp he' with rfl | hlater
        · exact ⟨j, le_refl j, by rw [hname]; exact hj⟩
        · obtain ⟨i', hi', hi's⟩ := hindex e' hlater
          exact ⟨i', by omega, hi's⟩

/-- The names of a chain are pairwise different and registered, so the chain is no longer than
there are entities. -/
theorem length_le_size {r : Registry} {line : List Entity}
    (hnodup : (line.map Entity.name).Nodup)
    (hregistered : ∀ e ∈ line, e.name ∈ r.entityNames) : line.length ≤ r.entities.size := by
  have hsubset : line.map Entity.name ⊆ r.entityNames := by
    intro name hname
    obtain ⟨e, he, rfl⟩ := List.mem_map.mp hname
    exact hregistered e he
  have hle := (List.subperm_of_subset hnodup hsubset).length_le
  rw [List.length_map, entityNames_eq_keys, KeyedList.keys, List.length_map] at hle
  exact hle

/-- In a forest every entity knows its subclasses in the order of registration. -/
theorem subclasses_of_forest {r : Registry} (hr : Forest r.skeletons) {name : String}
    {e : Entity} (he : r.entity? name = some e) : e.subclasses
      = (r.entities.entries.filter fun entry => entry.2.superclass? = some name).map Prod.fst := by
  have hknown := hr.subclasses _ (mem_skeletons_of_entity? he)
  rw [linkedTo, links, skeletons, List.map_map, List.filter_map, List.map_map] at hknown
  exact hknown

/-- In a forest the root of every registered entity is found. -/
theorem rootOf?_of_lineage {r : Registry} {name : String}
    (h : Lineage r name (r.superclassChain name)) :
    ∃ root, (r.superclassChain name).getLast? = some root ∧ root.isRoot = true ∧
      r.rootOf? name = some root := by
  obtain ⟨root, hlast, hroot⟩ := h.getLast?
  refine ⟨root, hlast, hroot, ?_⟩
  rw [rootOf?, hlast, Option.filter_some, if_pos hroot]

end Registry

/-- Inheritance in a registry is a forest. -/
structure InheritanceForest (r : Registry) : Prop where
  /-- The superclass of an entity that is not a root is registered, and was registered before
  the entity. -/
  superclass_earlier : ∀ name e, r.entity? name = some e → e.isRoot = false →
    ∃ superclass, e.superclass? = some superclass ∧
      ∃ i j : Nat, i < j ∧ r.entities.keys[i]? = some superclass ∧
        r.entities.keys[j]? = some name
  /-- The chain of a registered entity is a complete line of descent, so it was not cut. -/
  chain_complete : ∀ name, r.hasEntity name = true → r.Lineage name (r.superclassChain name)
  /-- No entity is repeated in a chain. -/
  chain_nodup : ∀ name, r.hasEntity name = true →
    ((r.superclassChain name).map Entity.name).Nodup
  /-- No chain is longer than there are entities, as it would have to be in order to be cut. -/
  chain_length : ∀ name, r.hasEntity name = true →
    (r.superclassChain name).length ≤ r.entities.size
  /-- A chain ends at a root, and that root is found. -/
  chain_root : ∀ name, r.hasEntity name = true →
    ∃ root, (r.superclassChain name).getLast? = some root ∧ root.isRoot = true ∧
      r.rootOf? name = some root
  /-- An entity knows exactly its subclasses, in the order of registration. -/
  subclasses_eq : ∀ name e, r.entity? name = some e → e.subclasses
    = (r.entities.entries.filter fun entry => entry.2.superclass? = some name).map Prod.fst
  /-- No subclass is known twice. -/
  subclasses_nodup : ∀ name e, r.entity? name = some e → e.subclasses.Nodup

/-- A registry whose skeletons form a forest has a forest of entities. -/
theorem Forest.inheritanceForest {r : Registry} (hr : Forest r.skeletons) :
    InheritanceForest r := by
  have hchain : ∀ name, r.hasEntity name = true → ∃ j : Nat,
      r.Lineage name (r.superclassChain name) ∧
      ((r.superclassChain name).map Entity.name).Nodup ∧
      ∀ e ∈ r.superclassChain name, ∃ i ≤ j, r.entityNames[i]? = some e.name := by
    intro name hname
    obtain ⟨j, hj⟩ := List.mem_iff_getElem?.mp (hasEntity_iff.mp hname)
    have hsize : r.entityNames.length = r.entities.size := by
      rw [entityNames_eq_keys, KeyedList.keys, List.length_map, KeyedList.size]
    have hbound : j < r.entities.size + 1 := by
      obtain ⟨hlt, -⟩ := List.getElem?_eq_some_iff.mp hj
      omega
    exact ⟨j, lineage_chainWithin hr hj hbound⟩
  refine ⟨fun name e he hsub => ?_, fun name hname => ?_, fun name hname => ?_,
    fun name hname => ?_, fun name hname => ?_, fun name e he => ?_, fun name e he => ?_⟩
  · have hname := hasEntity_iff.mp (hasEntity_iff_exists.mpr ⟨e, he⟩)
    obtain ⟨j, hj⟩ := List.mem_iff_getElem?.mp hname
    cases hsuper : e.superclass? with
    | none =>
      rw [isRoot_iff.mpr hsuper] at hsub
      cases hsub
    | some superclass =>
      obtain ⟨i, hi, his⟩ := index_superclass hr hj he hsuper
      rw [entityNames_eq_keys] at hj his
      exact ⟨superclass, rfl, i, j, hi, his, hj⟩
  · obtain ⟨_, hline, -⟩ := hchain name hname
    exact hline
  · obtain ⟨_, -, hnodup, -⟩ := hchain name hname
    exact hnodup
  · obtain ⟨_, -, hnodup, hindex⟩ := hchain name hname
    refine length_le_size hnodup fun e he => ?_
    obtain ⟨i, -, his⟩ := hindex e he
    exact List.mem_of_getElem? his
  · obtain ⟨_, hline, -⟩ := hchain name hname
    exact rootOf?_of_lineage hline
  · exact subclasses_of_forest hr he
  · rw [subclasses_of_forest hr he]
    exact (List.filter_sublist.map Prod.fst).nodup r.entities.nodup_keys

/-- In every reachable registry inheritance is a forest. -/
theorem inheritanceForest_of_reachable {options : RegistryOptions} {r : Registry}
    (h : Session.Reachable options r) : InheritanceForest r :=
  h.forest.inheritanceForest

/-- A call that fails, on an import without a class, after a class and its subclass are
registered. -/
def failingCall : Session.Call :=
  .add (documentOf [classElement "Animal", subclassElement "Cat" "Animal", { name := "import" }])
    .empty

/-- Inheritance is a forest after a failed call, too. -/
theorem inheritanceForest_failingCall :
    Session.Reachable {} (failingCall.run.after { options := {} }) ∧
      (failingCall.run.after { options := {} }).entities.keys = ["Animal", "Cat"] ∧
      InheritanceForest (failingCall.run.after { options := {} }) := by
  have hreachable : Session.Reachable {} (failingCall.run.after { options := {} }) :=
    .call .start failingCall
  exact ⟨hreachable, by decide +kernel, inheritanceForest_of_reachable hreachable⟩

end ObjectMapping
