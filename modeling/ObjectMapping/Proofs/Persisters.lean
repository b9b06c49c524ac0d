import Mathlib.Data.List.Find
import ObjectMapping.Proofs.Enlistment
import ObjectMapping.Proofs.Places
import ObjectMapping.Proofs.Standing

/-!
# How hierarchies are stored

Every hierarchy is stored in one way.  Where no persister is set explicitly, it is the first
subclass without one in its line that decides, by its kind; the choice is recorded on the root, and
all later subclasses go by it, whatever their kinds.  So a strategy is chosen for a root exactly if
there is such a subclass, it is never changed, and every subclass has a persister.

The invariant speaks of standings only, so it has to be looked at where these change: when a root
is appended, and when a subclass is, in whose line a persister is set or not.
-/

namespace ObjectMapping

open Binding Registry

/-! ## Who decides -/

/-- The entity that decides how the hierarchy of a root is stored: the first subclass in it in whose
chain of superclasses, itself included, no persister is set. -/
def Registry.decider? (r : Registry) (root : String) : Option Entity :=
  r.entities.values.find? fun e =>
    !e.isRoot && (r.superclassChain e.name).all (·.persister.isNone)
      && (r.rootOf? e.name).any (·.name = root)

namespace Registry

variable {r r' : Registry}

/-- A subclass of the hierarchy of a root in whose line no persister is set. -/
def leavesOpen (r : Registry) (root : String) (k : Standing) : Bool :=
  k.superclass.isSome && (r.line k.name).all (·.persister.isNone)
    && (r.line k.name).getLast?.any (·.name = root)

/-- Every subclass has a persister, and strategies are those of the subclasses that decide. -/
structure Decided (r : Registry) : Prop where
  persisted : ∀ k ∈ r.standings, k.superclass.isSome = true → r.hasPersister k.name = true
  chosen : ∀ k ∈ r.standings, k.superclass = none →
    k.chosen = (r.standings.find? (r.leavesOpen k.name)).bind Standing.strategy

/-! ## Appended entities -/

/-- Subclasses leave open what they left open before if the lines of all entities are kept. -/
theorem leavesOpen_eq {k : Standing} (hline : r'.line k.name = r.line k.name) (root : String) :
    r'.leavesOpen root k = r.leavesOpen root k := by
  unfold leavesOpen
  rw [hline]

/-- A subclass calls for some strategy. -/
theorem isSome_strategy : ∀ k ∈ r.standings, k.superclass.isSome = true →
    k.strategy.isSome = true := by
  intro k hk hsuper
  obtain ⟨⟨_, _, _, _, kind, _⟩, -, rfl⟩ := List.mem_map.mp hk
  cases kind with
  | root data => cases hsuper
  | _ => rfl

/-- As long as no strategy is chosen for a root, no subclass leaves it open. -/
theorem Decided.decider_eq_none (hd : r.Decided) {root : Standing} (hmem : root ∈ r.standings)
    (hroot : root.superclass = none) (hchosen : root.chosen = none) :
    r.standings.find? (r.leavesOpen root.name) = none := by
  have hnone := (hd.chosen root hmem hroot).symm.trans hchosen
  cases hdecider : r.standings.find? (r.leavesOpen root.name) with
  | none => rfl
  | some k =>
    rw [hdecider, Option.bind_some] at hnone
    have hopen := List.find?_some hdecider
    rw [leavesOpen, Bool.and_eq_true, Bool.and_eq_true] at hopen
    have hstrategy := isSome_strategy k (List.mem_of_find?_eq_some hdecider) hopen.1.1
    rw [hnone] at hstrategy
    cases hstrategy

section

variable (hr : Forest r.skeletons) (hr' : Forest r'.skeletons)
include hr hr'

/-- What leaves all standings alone decides nothing. -/
theorem Decided.undisturbed (h : r'.standings = r.standings) (hd : r.Decided) : r'.Decided := by
  have hline : ∀ k ∈ r.standings, r'.line k.name = r.line k.name := fun k hk => by
    rw [line_map hr hr' (g := id) (fun _ => rfl) (fun _ => rfl) (fun _ hk => h ▸ hk) k hk,
      List.map_id]
  refine ⟨fun k hk hsuper => ?_, fun k hk hroot => ?_⟩
  · rw [h] at hk
    rw [hasPersister_eq, hline k hk, ← hasPersister_eq]
    exact hd.persisted k hk hsuper
  · rw [h] at hk ⊢
    rw [hd.chosen k hk hroot, List.find?_congr fun j hj => leavesOpen_eq (hline j hj) k.name]

variable {k : Standing} (h : r'.standings = r.standings ++ [k])
include h

theorem line_append : ∀ j ∈ r.standings, r'.line j.name = r.line j.name := fun j hj => by
  rw [line_map hr hr' (g := id) (fun _ => rfl) (fun _ => rfl)
    (fun _ hj => h ▸ List.mem_append_left _ hj) j hj, List.map_id]

/-- An appended entity decides where it leaves open what nothing before it does. -/
theorem decider_append (root : String) : r'.standings.find? (r'.leavesOpen root)
    = (r.standings.find? (r.leavesOpen root)).or
      (if r'.leavesOpen root k then some k else none) := by
  rw [h, List.find?_append, List.find?_singleton,
    List.find?_congr fun j hj => leavesOpen_eq (line_append hr hr' h j hj) root]

/-- A new root is the root of no hierarchy but its own, which has no subclasses yet. -/
theorem Decided.appendRoot (hfresh : ∀ j ∈ r.standings, j.name ≠ k.name)
    (hroot : k.superclass = none) (hchosen : k.chosen = none) (hd : r.Decided) : r'.Decided := by
  have hdecider : ∀ root, r'.standings.find? (r'.leavesOpen root)
      = r.standings.find? (r.leavesOpen root) := by
    intro root
    have hclosed : ¬ r'.leavesOpen root k = true := by simp [leavesOpen, hroot]
    rw [decider_append hr hr' h, if_neg hclosed, Option.or_none]
  refine ⟨fun j hj hsuper => ?_, fun j hj hj' => ?_⟩
  · rw [h] at hj
    rcases List.mem_append.mp hj with hold | hnew
    · rw [hasPersister_eq, line_append hr hr' h j hold, ← hasPersister_eq]
      exact hd.persisted j hold hsuper
    · rw [List.mem_singleton.mp hnew, hroot] at hsuper
      cases hsuper
  · rw [hdecider]
    rw [h] at hj
    rcases List.mem_append.mp hj with hold | hnew
    · exact hd.chosen j hold hj'
    · rw [List.mem_singleton.mp hnew]
      have hnone : r.standings.find? (r.leavesOpen k.name) = none := by
        rw [List.find?_eq_none]
        intro i hi hopen
        obtain ⟨root, hmem, -, hlast⟩ := exists_root hr i hi
        rw [leavesOpen, hlast, Bool.and_eq_true, Option.any_some, decide_eq_true_eq] at hopen
        exact hfresh root hmem hopen.2
      rw [hnone, hchosen]
      rfl

/-- A new subclass that has a persister decides nothing: if none is set in its line, then a strategy
is chosen for its root, and some subclass before it has decided. -/
theorem Decided.appendSubclass (hsuper : k.superclass.isSome = true)
    (hpersister : r'.hasPersister k.name = true) (hd : r.Decided) : r'.Decided := by
  have hmem : k ∈ r'.standings := h ▸ List.mem_append_right _ (List.mem_singleton_self k)
  obtain ⟨root, hroot', hroot, hlast⟩ := exists_root hr' k hmem
  have hold : root ∈ r.standings := by
    rw [h] at hroot'
    rcases List.mem_append.mp hroot' with hold | hnew
    · exact hold
    · rw [← List.mem_singleton.mp hnew, hroot] at hsuper
      cases hsuper
  refine ⟨fun j hj hj' => ?_, fun j hj hj' => ?_⟩
  · rw [h] at hj
    rcases List.mem_append.mp hj with hj | hnew
    · rw [hasPersister_eq, line_append hr hr' h j hj, ← hasPersister_eq]
      exact hd.persisted j hj hj'
    · rwa [List.mem_singleton.mp hnew]
  · rw [h] at hj
    rcases List.mem_append.mp hj with hj | hnew
    · rw [decider_append hr hr' h]
      cases hdecider : r.standings.find? (r.leavesOpen j.name) with
      | some i =>
        have hchosen := hd.chosen j hj hj'
        rwa [hdecider] at hchosen
      | none =>
        have hnone : j.chosen = none := by rw [hd.chosen j hj hj', hdecider]; rfl
        have hclosed : ¬ r'.leavesOpen j.name k = true := by
          intro hopen
          rw [leavesOpen, hlast, Bool.and_eq_true, Bool.and_eq_true, Option.any_some,
            decide_eq_true_eq] at hopen
          obtain ⟨⟨-, hunset⟩, hname⟩ := hopen
          rw [hasPersister_eq, hlast, standing_unique hr hold hj hname, Option.bind_some, hnone,
            Option.isSome_none, Bool.or_false, List.any_eq_true] at hpersister
          obtain ⟨i, hi, hset⟩ := hpersister
          have hunset := List.all_eq_true.mp hunset i hi
          rw [Option.isNone_iff_eq_none.mp hunset] at hset
          cases hset
        rw [if_neg hclosed, hnone]
        rfl
    · rw [List.mem_singleton.mp hnew] at hj'
      rw [hj'] at hsuper
      cases hsuper

end

/-! ## Chosen strategies -/

section

variable {root : String} {strategy : PersisterStrategy} (hr : Forest r.skeletons)
  (hr' : Forest r'.skeletons) (h : r'.standings = r.standings.map (Standing.choose root strategy))
include hr hr' h

theorem line_choose : ∀ j ∈ r.standings,
    r'.line j.name = (r.line j.name).map (Standing.choose root strategy) :=
  line_map hr hr' Standing.name_choose Standing.superclass_choose
    fun _ hj => h ▸ List.mem_map_of_mem hj

/-- Choosing a strategy takes no persister away. -/
theorem hasPersister_choose {j : Standing} (hj : j ∈ r.standings)
    (hpersister : r.hasPersister j.name = true) : r'.hasPersister j.name = true := by
  rw [hasPersister_eq, Bool.or_eq_true] at hpersister ⊢
  rw [line_choose hr hr' h j hj, List.any_map, List.getLast?_map, Option.bind_map]
  refine hpersister.imp (fun hset => ?_) fun hchosen => ?_
  · simpa only [Function.comp_def, Standing.persister_choose] using hset
  · cases hlast : (r.line j.name).getLast? with
    | none =>
      rw [hlast] at hchosen
      cases hchosen
    | some i =>
      rw [hlast] at hchosen
      exact Standing.isSome_choose i hchosen

/-- Choosing a strategy changes nothing in which subclasses leave their hierarchies open. -/
theorem decider_choose (name : String) : r'.standings.find? (r'.leavesOpen name)
    = (r.standings.find? (r.leavesOpen name)).map (Standing.choose root strategy) := by
  rw [h, List.find?_map]
  refine congrArg _ (List.find?_congr fun j hj => ?_)
  simp only [Function.comp_apply, leavesOpen, Standing.name_choose, Standing.superclass_choose,
    line_choose hr hr' h j hj, List.all_map, List.getLast?_map, Option.any_map, Function.comp_def,
    Standing.persister_choose]

end

/-- A new subclass without a persister decides for its hierarchy, since nothing before it did. -/
theorem Decided.appendDeciding {r₁ : Registry} (hr : Forest r.skeletons)
    (hr₁ : Forest r₁.skeletons) (hr' : Forest r'.skeletons) {k root : Standing}
    {strategy : PersisterStrategy} (h : r₁.standings = r.standings ++ [k])
    (hsuper : k.superclass.isSome = true) (hopen : r₁.hasPersister k.name = false)
    (hlast : (r₁.line k.name).getLast? = some root) (hstrategy : k.strategy = some strategy)
    (h' : r'.standings = r₁.standings.map (Standing.choose root.name strategy))
    (hd : r.Decided) : r'.Decided := by
  have hmem : k ∈ r₁.standings := h ▸ List.mem_append_right _ (List.mem_singleton_self k)
  obtain ⟨root', hroot', hroot, hlast'⟩ := exists_root hr₁ k hmem
  rw [hlast, Option.some_inj] at hlast'
  subst hlast'
  have hsplit : ∀ j ∈ r₁.standings, j ∈ r.standings ∨ j = k := fun j hj => by
    rw [h] at hj
    exact (List.mem_append.mp hj).imp_right List.mem_singleton.mp
  have hold : root ∈ r.standings := (hsplit root hroot').resolve_right fun hnew => by
    rw [← hnew, hroot] at hsuper
    cases hsuper
  rw [hasPersister_eq, Bool.or_eq_false_iff, hlast, Option.bind_some] at hopen
  obtain ⟨hunset, hunchosen⟩ := hopen
  have hnone : root.chosen = none := by
    cases hchosen : root.chosen with
    | none => rfl
    | some _ => rw [hchosen] at hunchosen; cases hunchosen
  have hleaves : ∀ name, r₁.leavesOpen name k = decide (root.name = name) := fun name => by
    have hall : (r₁.line k.name).all (·.persister.isNone) = true := by
      rw [List.all_eq_true]
      intro i hi
      have hi' := List.any_eq_false.mp hunset i hi
      simpa using hi'
    rw [leavesOpen, hall, hlast, hsuper]
    rfl
  refine ⟨fun j' hj' hj'' => ?_, fun j' hj' hj'' => ?_⟩
  · rw [h'] at hj'
    obtain ⟨j, hj, rfl⟩ := List.mem_map.mp hj'
    rw [Standing.name_choose]
    rw [Standing.superclass_choose] at hj''
    rcases hsplit j hj with hj | rfl
    · refine hasPersister_choose hr₁ hr' h' (h ▸ List.mem_append_left _ hj) ?_
      rw [hasPersister_eq, line_append hr hr₁ h j hj, ← hasPersister_eq]
      exact hd.persisted j hj hj''
    · rw [hasPersister_eq, line_choose hr₁ hr' h' _ hmem, List.getLast?_map, hlast,
        Option.map_some, Option.bind_some, Standing.choose_self]
      exact Bool.or_true _
  · rw [h'] at hj'
    obtain ⟨j, hj, rfl⟩ := List.mem_map.mp hj'
    rw [Standing.superclass_choose] at hj''
    have hj : j ∈ r.standings := (hsplit j hj).resolve_right fun hnew => by
      rw [← hnew, hj''] at hsuper
      cases hsuper
    rw [Standing.name_choose, decider_choose hr₁ hr' h', Option.bind_map, decider_append hr hr₁ h,
      hleaves]
    have hkept : Standing.strategy ∘ Standing.choose root.name strategy = Standing.strategy :=
      funext fun i => Standing.strategy_choose i
    rw [hkept]
    by_cases hname : root.name = j.name
    · have hsame := standing_unique hr hold hj hname
      subst hsame
      rw [decider_eq_none hd hold hroot hnone, Standing.choose_self, decide_eq_true rfl, if_pos rfl]
      exact hstrategy.symm
    · rw [decide_eq_false hname, if_neg Bool.false_ne_true, Option.or_none,
        Standing.choose_other _ (Ne.symm hname)]
      exact hd.chosen j hj hj''

end Registry

/-! ## Sessions -/

/-- In every registry the persisters are decided, and a strategy that is chosen is chosen for
good. -/
def storage : Upkeep where
  invariant r := Forest r.skeletons ∧ r.Decided
  keeps r r' := ∀ k ∈ r.standings, k.chosen.isSome = true → k ∈ r'.standings
  refl _ _ hk _ := hk
  trans h h' k hk hchosen := h' k (h k hk hchosen) hchosen

section

variable {r r' : Registry}

theorem storage_of_undisturbed (hr : storage.invariant r) (hforest : Forest r'.skeletons)
    (h : r'.standings = r.standings) : storage.Advances r r' where
  keeps _ hk _ := h ▸ hk
  invariant := ⟨hforest, hr.2.undisturbed hr.1 hforest h⟩

/-- What grows but leaves all standings alone decides nothing. -/
theorem stores_undisturbing {α : Type} {m : Binding α} (hm : m.Undisturbing)
    (hgrowing : Growing [] m) : Upholds storage m r fun _ _ => True := by
  refine fun hr => ⟨storage_of_undisturbed hr ?_ (hm.standings r), fun _ _ _ => trivial⟩
  exact (hgrowing.grows hr.1.keyed).invariant Growth.forest hr.1

theorem stores_prepares {α : Type} {m : Binding α} (hm : m.Prepares) :
    Upholds storage m r fun _ _ => True :=
  stores_undisturbing hm.undisturbing (.of_aside hm.aside)

/-- A name under which nothing is registered is that of no standing. -/
theorem ne_of_not_hasEntity (hr : Forest r.skeletons) {name : String}
    (h : r.hasEntity name = false) : ∀ k ∈ r.standings, k.name ≠ name := by
  rintro k hk rfl
  obtain ⟨e, he, -⟩ := (mem_standings hr.keyed).mp hk
  rw [hasEntity_iff_exists.mpr ⟨e, he⟩] at h
  cases h

/-- A root class is appended. -/
theorem stores_openRootClass (scope : Scope) (node : Element) :
    Upholds storage (openRootClass scope node) r fun _ _ => True := by
  have hyields : Yields (prepareRootClass scope node) fun e =>
      e.superclass? = none ∧ e.subclasses = [] ∧ e.chosen? = none := by
    intro r e r' hrun
    obtain ⟨-, hskeleton⟩ := yields_prepareRootClass scope node r e r' hrun
    exact ⟨congrArg EntitySkeleton.superclass hskeleton,
      congrArg EntitySkeleton.subclasses hskeleton, yields_chosen_rootClass scope node r e r' hrun⟩
  have hprepares := prepares_prepareRootClass scope node
  unfold openRootClass
  refine .bind (P := fun e _ => e.superclass? = none ∧ e.subclasses = [] ∧ e.chosen? = none)
    (fun hr => ⟨(stores_prepares hprepares).advances hr, fun e r' => hyields r e r'⟩)
    fun e r₁ _ he => .bind (P := fun _ _ => True) (.register fun r₂ hr hadd => ?_)
      fun _ _ _ _ => .pure trivial
  obtain ⟨hroot, hbare, hchosen⟩ := he
  have hforest := (Grows.addEntity hadd hroot hbare).invariant Growth.forest hr.1
  obtain ⟨hnew, rfl⟩ := addEntity_eq_ok.mp hadd
  have hstandings := standings_insert hnew
  exact ⟨⟨fun k hk _ => hstandings ▸ List.mem_append_left _ hk, hforest,
    hr.2.appendRoot hr.1 hforest hstandings (ne_of_not_hasEntity hr.1 hnew) hroot hchosen⟩, trivial⟩

/-- In a forest a strategy can be chosen for the hierarchy of every entity. -/
theorem exists_chosen (hr : Forest r.skeletons) {e : Entity} (hmem : e.standing ∈ r.standings)
    (strategy : PersisterStrategy) : ∃ root, (r.line e.name).getLast? = some root ∧
      (r.modifyRootOf e.name ({ · with defaultPersister := some strategy })).standings
        = r.standings.map (Standing.choose root.name strategy) := by
  obtain ⟨e', he', -⟩ := (mem_standings hr.keyed).mp hmem
  obtain ⟨root, hlast, hroot, hrootOf⟩ :=
    hr.inheritanceForest.chain_root _ (hasEntity_iff_exists.mpr ⟨e', he'⟩)
  have hstored : r.StoredByName := fun _ _ hentity => hr.keyed _ (mem_skeletons_of_entity? hentity)
  have hfound := hstored.entity?_of_mem_superclassChain (List.mem_of_getLast? hlast)
  refine ⟨root.standing, ?_, ?_⟩
  · rw [line, List.getLast?_map]
    exact congrArg (Option.map Entity.standing) hlast
  · rw [modifyRootOf, show r.rootOf? e.name = some root from hrootOf]
    exact standings_choose hr.keyed hfound hroot strategy

/-- A subclass is appended, and decides how its hierarchy is stored if nothing did before. -/
theorem storage_of_adopt (hr : storage.invariant r) {superclass : String}
    (hknown : r.hasEntity superclass = true) {e : Entity} (hnew : r.hasEntity e.name = false)
    (hsuper : e.superclass? = some superclass) (hbare : e.subclasses = [])
    {strategy : PersisterStrategy} (hstrategy : e.kind.strategy? = some strategy) :
    storage.Advances r ((r.adopt e superclass).decideStorage e.name strategy) := by
  have hadopted : Forest (r.adopt e superclass).skeletons :=
    (grows_adopt hknown hnew hsuper hbare).invariant Growth.forest hr.1
  have hstandings := standings_adopt hnew superclass
  have hsome : e.standing.superclass.isSome = true := Option.isSome_iff_exists.mpr ⟨_, hsuper⟩
  have hold : ∀ k ∈ r.standings, k ∈ (r.adopt e superclass).standings :=
    fun k hk => hstandings ▸ List.mem_append_left _ hk
  cases hpersister : (r.adopt e superclass).hasPersister e.name with
  | true =>
    rw [Registry.decideStorage, if_pos hpersister]
    exact ⟨fun k hk _ => hold k hk, hadopted,
      hr.2.appendSubclass hr.1 hadopted hstandings hsome hpersister⟩
  | false =>
    have hforest : Forest ((r.adopt e superclass).decideStorage e.name strategy).skeletons := by
      rw [(sideWrites_decideStorage _ _ _).skeletons]
      exact hadopted
    have hmem : e.standing ∈ (r.adopt e superclass).standings :=
      hstandings ▸ List.mem_append_right _ (List.mem_singleton_self _)
    obtain ⟨root, hlast, hchosen⟩ := exists_chosen hadopted hmem strategy
    have hdecided : ((r.adopt e superclass).decideStorage e.name strategy).standings
        = (r.adopt e superclass).standings.map (Standing.choose root.name strategy) := by
      rw [Registry.decideStorage, if_neg (Bool.eq_false_iff.mp hpersister), hchosen]
    refine ⟨fun k hk hk' => ?_, hforest, hr.2.appendDeciding hr.1 hadopted hforest hstandings hsome
      hpersister hlast hstrategy hdecided⟩
    -- The root for which the strategy is chosen had none, so it is not the one that had.
    have hunchosen : root.chosen = none := by
      rw [hasPersister_eq, hlast, Bool.or_eq_false_iff] at hpersister
      simpa using hpersister.2
    have hother : k.name ≠ root.name := by
      intro hname
      obtain ⟨root', hroot', -, hlast'⟩ := exists_root hadopted _ hmem
      rw [show e.standing.name = e.name from rfl, hlast, Option.some_inj] at hlast'
      subst hlast'
      rw [standing_unique hadopted (hold k hk) hroot' hname, hunchosen] at hk'
      cases hk'
    rw [hdecided, ← Standing.choose_other k hother]
    exact List.mem_map_of_mem (hold k hk)

/-- What is bound as a subclass calls for the strategy of its kind. -/
theorem stores_prepareSubclass (kind : SubclassKind) (scope : Scope) (superclass : String)
    (node : Element) : Upholds storage (prepareSubclass kind scope superclass node) r
      fun e r' => r'.hasEntity superclass = true ∧ e.superclass? = some superclass ∧
        e.subclasses = [] ∧ e.kind.strategy? = some kind.strategy := by
  have hquiet := quiet_prepareSubclass kind scope superclass node
  refine fun hr => ⟨(stores_prepares hquiet.prepares).advances hr, fun e r' hrun => ?_⟩
  obtain ⟨-, hskeleton⟩ := yields_prepareSubclass kind scope superclass node r e r' hrun
  refine ⟨?_, congrArg EntitySkeleton.superclass hskeleton,
    congrArg EntitySkeleton.subclasses hskeleton,
    Entity.strategy_of_label (congrArg EntitySkeleton.kind hskeleton)⟩
  rw [Registry.hasEntity, (hquiet.alike_of_ok hrun).entities]
  exact hasEntity_of_prepareSubclass hrun

theorem stores_openSubclass (kind : SubclassKind) (scope : Scope) (superclass : String)
    (node : Element) :
    Upholds storage (openSubclass kind scope superclass node) r fun _ _ => True := by
  unfold openSubclass
  refine .bind (stores_prepareSubclass kind scope superclass node) fun e r₁ _ he =>
    .bind (P := fun _ _ => True) (fun hr => ⟨?_, fun _ _ _ => trivial⟩) fun _ _ _ _ => .pure trivial
  obtain ⟨hknown, hsuper, hbare, hstrategy⟩ := he
  cases hnew : r₁.hasEntity e.name with
  | true =>
    rw [after_eq_of_error (run_registerSubclass_of_taken hnew superclass kind.strategy)]
    exact .refl hr
  | false =>
    rw [after_eq_of_ok (run_registerSubclass hknown hnew kind.strategy)]
    exact storage_of_adopt hr hknown hnew hsuper hbare hstrategy

end

/-- Wherever the walk over a document stops, persisters stay decided. -/
theorem walked_storage : Walked storage fun _ _ => True where
  child _ _ := trivial
  descend _ _ := trivial
  steady h hr := storage_of_undisturbed hr
    (h.quietWrite.sideWrite.frame.1 ▸ hr.1) (Preparation.standings (.quiet h.quietWrite))
  openRootClass _ := stores_openRootClass _ _
  openSubclass kind _ superclass _ _ := stores_openSubclass kind _ superclass _
  bindBodyProperty owner _ _ _ := stores_undisturbing
    (undisturbing_bindBodyProperty _ owner _ _) (growing_bindBodyProperty [] _ owner _ _)
  bindBodyExtra owner _ tag _ := stores_undisturbing
    (undisturbing_bindBodyExtra _ owner _ tag) (growing_bindBodyExtra [] _ owner _ tag)

namespace Session

theorem upkept_storage : Upkept storage fun _ => True where
  waiting _ _ _ := trivial
  setWaiting hr _ := storage_of_undisturbed hr hr.1 rfl
  upholds_bindRoot metas _ := walked_storage.upholds_bindRoot metas (fun _ _ => trivial)
    (.of_writes _ fun h hr => by cases h <;> exact storage_of_undisturbed hr hr.1 rfl)
  nextPass {r rest pass} hr hnext := by
    refine storage_of_undisturbed hr
      ((grows_nextPass hnext hr.1.keyed).invariant Growth.forest hr.1) ?_
    rw [(undisturbing_run pass).standings rest]
    obtain ⟨passes, -, rfl⟩ := nextPass?_eq_some_iff.mp hnext
    rfl
  applyPropertyReferences {r r'} hr happlied := by
    obtain ⟨hmarks, -⟩ := marks_of_applyPropertyReferences happlied
    exact storage_of_undisturbed hr (hmarks.sideWrites.skeletons ▸ hr.1) hmarks.standings

/-- The entity that decides is the one whose standing does. -/
theorem find?_standings_eq_decider {r : Registry} (hr : Forest r.skeletons) (root : String) :
    r.standings.find? (r.leavesOpen root) = (r.decider? root).map Entity.standing := by
  rw [standings, List.find?_map, Registry.decider?]
  refine congrArg _ (List.find?_congr fun e he => ?_)
  obtain ⟨name, hname⟩ := KeyedList.mem_values_iff.mp he
  have hsame : e.name = name := hr.keyed _ (mem_skeletons_of_entity? hname)
  subst hsame
  obtain ⟨last, hlast, hroot, hrootOf⟩ :=
    hr.inheritanceForest.chain_root _ (hasEntity_iff_exists.mpr ⟨e, hname⟩)
  have hsubclass : e.superclass?.isSome = !e.isRoot := by
    cases hsuper : e.superclass? with
    | none => rw [isRoot_iff.mpr hsuper]; rfl
    | some s =>
      have hsub : e.isRoot = false := Bool.eq_false_iff.mpr fun h => by
        rw [isRoot_iff, hsuper] at h
        cases h
      rw [hsub]
      rfl
  simp only [Function.comp_apply, leavesOpen, Entity.standing, line, List.all_map,
    List.getLast?_map, Function.comp_def, hlast, hrootOf, hsubclass, Option.map_some,
    Option.any_some]

/-- After any number of steps of a run every subclass has a persister, and the strategy that is
recorded on a root is that of the first subclass of its hierarchy in whose chain no persister is
set, or none if there is no such subclass.  Once it is recorded it is not changed by further
steps. -/
theorem persisters_decided {options : RegistryOptions} {r r' : Registry}
    (hr : Relation.ReflTransGen Step { options } r) (h : Relation.ReflTransGen Step r r') :
    (∀ name e, r.entity? name = some e → e.isRoot = false → r.hasPersister name = true) ∧
      ∀ name root data, r.entity? name = some root → root.root? = some data →
        data.defaultPersister = (r.decider? name).bind (·.kind.strategy?) ∧
        (data.defaultPersister = none ↔ r.decider? name = none) ∧
        ∀ strategy, data.defaultPersister = some strategy → ∃ root' data',
          r'.entity? name = some root' ∧ root'.root? = some data' ∧
            data'.defaultPersister = some strategy := by
  have hempty : storage.invariant { options } := ⟨forest_nil, nofun, nofun⟩
  have hstart := upkept_storage.advances_of_steps hempty hr
  have hlater := upkept_storage.advances_of_steps hstart.invariant h
  obtain ⟨hforest, hdecided⟩ := hstart.invariant
  have hstanding : ∀ name e, r.entity? name = some e →
      e.name = name ∧ e.standing ∈ r.standings := by
    intro name e he
    have hname : e.name = name := hforest.keyed _ (mem_skeletons_of_entity? he)
    exact ⟨hname, (mem_standings hforest.keyed).mpr ⟨e, (congrArg r.entity? hname).trans he, rfl⟩⟩
  refine ⟨fun name e he hsub => ?_, fun name root data he hdata => ?_⟩
  · obtain ⟨rfl, hmem⟩ := hstanding name e he
    refine hdecided.persisted _ hmem (Option.isSome_iff_ne_none.mpr fun hnone => ?_)
    rw [isRoot_iff.mpr hnone] at hsub
    cases hsub
  · obtain ⟨rfl, hmem⟩ := hstanding name root he
    have hroot : root.superclass? = none := isRoot_iff.mp (by rw [Entity.isRoot, hdata]; rfl)
    have hchosen : root.chosen? = data.defaultPersister := by
      rw [Entity.chosen?, hdata, Option.bind_some]
    have hdecider : data.defaultPersister = (r.decider? root.name).bind (·.kind.strategy?) := by
      have hstrategy := hdecided.chosen _ hmem hroot
      rw [find?_standings_eq_decider hforest, Option.bind_map] at hstrategy
      exact hchosen.symm.trans hstrategy
    refine ⟨hdecider, ⟨fun hnone => ?_, fun hnone => ?_⟩, fun strategy hstrategy => ?_⟩
    · have hclosed := hdecided.decider_eq_none hmem hroot (hchosen.trans hnone)
      rwa [find?_standings_eq_decider hforest, Option.map_eq_none_iff] at hclosed
    · rw [hdecider, hnone]
      rfl
    · have hkept := hlater.keeps _ hmem (by
        rw [Entity.standing, hchosen, hstrategy]
        rfl)
      obtain ⟨root', hroot', hsame⟩ := (mem_standings hlater.invariant.1.keyed).mp hkept
      have hchosen' : root'.root?.bind RootData.defaultPersister = some strategy :=
        (congrArg Standing.chosen hsame).trans (hchosen.trans hstrategy)
      obtain ⟨data', hdata', hsome⟩ := Option.bind_eq_some_iff.mp hchosen'
      exact ⟨root', data', hroot', hdata', hsome⟩

/-- Payments, of which those in cash are stored by a class of their own. -/
def payments : Document := documentOf [
  identifiedClass "Payment" [],
  { name := "subclass"
    attributes := .ofList [("name", "Cash"), ("extends", "Payment"), ("persister", "Till")] }]

/-- Payments by card have a table of their own. -/
def cardPayments : Document := documentOf [
  { name := "joined-subclass"
    attributes := .ofList [("name", "Card"), ("extends", "Payment")]
    children := [{ name := "key", attributes := .ofList [("column", "payment_id")] }] }]

/-- The registry after the payments by card were added. -/
def cardRegistry : Registry :=
  (Call.add cardPayments .empty).run.after ((Call.add payments .empty).run.after { options := {} })

/-- The registry after a plain subclass of these was added. -/
def debitRegistry : Registry :=
  (Call.add (documentOf [subclassElement "Debit" "Card"]) .empty).run.after cardRegistry

/-- The strategy that is recorded on an entity. -/
def recordedStrategy (r : Registry) (name : String) : Option PersisterStrategy :=
  (r.entity? name).bind fun e => e.root?.bind RootData.defaultPersister

/-- It is not the first subclass that decides, which is stored by a class of its own, but the first
of the others, and the one that comes later and is of another kind goes by that. -/
theorem persisters_decided_payments :
    Relation.ReflTransGen Step { options := {} } cardRegistry ∧
      Relation.ReflTransGen Step cardRegistry debitRegistry ∧
      cardRegistry.entities.keys = ["Payment", "Cash", "Card"] ∧
      debitRegistry.entities.keys = ["Payment", "Cash", "Card", "Debit"] ∧
      (∀ name e, cardRegistry.entity? name = some e → e.isRoot = false →
        cardRegistry.hasPersister name = true) ∧
      (cardRegistry.decider? "Payment").map Entity.name = some "Card" ∧
      recordedStrategy cardRegistry "Payment" = some .joinedSubclass ∧
      recordedStrategy debitRegistry "Payment" = some .joinedSubclass := by
  have hcards : Relation.ReflTransGen Step { options := {} } cardRegistry :=
    .tail (.single (.call _ (.add payments .empty))) (.call _ (.add cardPayments .empty))
  have hdebits : Relation.ReflTransGen Step cardRegistry debitRegistry :=
    .single (.call _ (.add _ _))
  obtain ⟨hpersisted, hroots⟩ := persisters_decided hcards hdebits
  have hrecorded : recordedStrategy cardRegistry "Payment" = some .joinedSubclass := by
    decide +kernel
  refine ⟨hcards, hdebits, by decide +kernel, by decide +kernel, hpersisted, by decide +kernel,
    hrecorded, ?_⟩
  obtain ⟨root, hroot, hdata⟩ := Option.bind_eq_some_iff.mp hrecorded
  obtain ⟨data, hdata, hstrategy⟩ := Option.bind_eq_some_iff.mp hdata
  obtain ⟨-, -, hkept⟩ := hroots _ _ _ hroot hdata
  obtain ⟨root', data', hroot', hdata', hstrategy'⟩ := hkept _ hstrategy
  rw [recordedStrategy, hroot', Option.bind_some, hdata', Option.bind_some, hstrategy']

end Session

end ObjectMapping
