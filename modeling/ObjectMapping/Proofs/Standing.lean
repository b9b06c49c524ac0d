import ObjectMapping.Proofs.Forest
import ObjectMapping.Proofs.Grounding
import ObjectMapping.Proofs.Writes

/-!
# Where an entity stands

How a hierarchy is stored depends on very little of its entities: on their names and superclasses,
their kinds and tables, the persisters that are set explicitly, and the strategy that was chosen for
the root.  This is the standing of an entity, and most of what the binder does leaves standings
alone.  They change in three ways only: a root is appended, a subclass is appended, or a strategy is
chosen for a root.  The line of an entity, the standings of the entity and its superclasses, changes
accordingly.
-/

namespace ObjectMapping

open Binding Registry

/-! ## Standings -/

/-- The strategy that a kind of subclass calls for. -/
def EntityKind.strategy? : EntityKind → Option PersisterStrategy
  | root _ => none
  | subclass _ => some .singleTable
  | joinedSubclass _ _ => some .joinedSubclass
  | unionSubclass _ => some .unionSubclass

/-- What counts for the storage of a hierarchy. -/
structure Standing where
  name : String
  superclass : Option String
  strategy : Option PersisterStrategy
  table : TableId
  persister : Option String
  /-- The strategy that was chosen for the hierarchy, on a root. -/
  chosen : Option PersisterStrategy

/-- Where a strategy is chosen for the hierarchy of a root. -/
def Standing.choose (root : String) (strategy : PersisterStrategy) (k : Standing) : Standing :=
  if k.name = root then { k with chosen := some strategy } else k

namespace Standing

variable {root : String} {strategy : PersisterStrategy} (k : Standing)

@[simp] theorem name_choose : (k.choose root strategy).name = k.name := by
  unfold Standing.choose
  split <;> rfl

@[simp] theorem superclass_choose : (k.choose root strategy).superclass = k.superclass := by
  unfold Standing.choose
  split <;> rfl

@[simp] theorem persister_choose : (k.choose root strategy).persister = k.persister := by
  unfold Standing.choose
  split <;> rfl

@[simp] theorem strategy_choose : (k.choose root strategy).strategy = k.strategy := by
  unfold Standing.choose
  split <;> rfl

theorem choose_self : (k.choose k.name strategy).chosen = some strategy :=
  congrArg Standing.chosen (if_pos rfl)

theorem choose_other (h : k.name ≠ root) : k.choose root strategy = k := if_neg h

/-- A strategy that was chosen before is chosen still, or another one is. -/
theorem isSome_choose (h : k.chosen.isSome = true) :
    (k.choose root strategy).chosen.isSome = true := by
  unfold Standing.choose
  split
  · rfl
  · exact h

end Standing

namespace Entity

/-- The strategy that was chosen for a hierarchy, on its root. -/
def chosen? (e : Entity) : Option PersisterStrategy := e.root?.bind RootData.defaultPersister

/-- Where an entity stands. -/
def standing (e : Entity) : Standing where
  name := e.name
  superclass := e.superclass?
  strategy := e.kind.strategy?
  table := e.table
  persister := e.persister
  chosen := e.chosen?

/-- Changing the data of a root in anything but the chosen strategy does not matter. -/
theorem standing_modifyRoot (e : Entity) {f : RootData → RootData}
    (h : ∀ data, (f data).defaultPersister = data.defaultPersister) :
    (e.modifyRoot f).standing = e.standing := by
  obtain ⟨_, _, _, _, kind, _⟩ := e
  cases kind with
  | root data =>
    simp only [standing, chosen?, modifyRoot, root?, EntityKind.modifyRoot, EntityKind.root?,
      Option.bind_some, h]
    rfl
  | _ => rfl

/-- Choosing a strategy for a root is seen in its standing. -/
theorem standing_choose {e : Entity} (hroot : e.isRoot = true) (strategy : PersisterStrategy) :
    (e.modifyRoot ({ · with defaultPersister := some strategy })).standing
      = { e.standing with chosen := some strategy } := by
  obtain ⟨_, _, _, _, kind, _⟩ := e
  cases kind with
  | root data => rfl
  | _ => cases hroot

/-- Neither do properties matter. -/
theorem standing_modifySlot (e : Entity) (slot : PropertySlot) (f : Property → Property) :
    (e.modifySlot f slot).standing = e.standing := by
  cases slot with
  | own | joined => rfl
  | identifier => exact e.standing_modifyRoot fun _ => rfl

/-- A kind of subclass calls for its own strategy. -/
theorem strategy_of_label {e : Entity} {kind : SubclassKind} (h : e.kind.label = kind.tag) :
    e.kind.strategy? = some kind.strategy := by
  cases hkind : e.kind <;> cases kind <;>
    simp_all [EntityKind.label, SubclassKind.tag, EntityKind.strategy?, SubclassKind.strategy]

end Entity

namespace Registry

variable {r r' : Registry}

/-- The standings of all entities, in the order of registration. -/
def standings (r : Registry) : List Standing := r.entities.values.map Entity.standing

theorem standings_eq_map (r : Registry) :
    r.standings = r.entities.entries.map fun entry => entry.2.standing := by
  rw [standings, KeyedList.values, List.map_map]
  rfl

/-- If entities are registered under their own names, then standings are those of the entities that
names lead to. -/
theorem mem_standings (hkeyed : Keyed r.skeletons) {k : Standing} :
    k ∈ r.standings ↔ ∃ e, r.entity? k.name = some e ∧ e.standing = k := by
  rw [standings, List.mem_map]
  constructor
  · rintro ⟨e, he, rfl⟩
    obtain ⟨name, hname⟩ := KeyedList.mem_values_iff.mp he
    have hsame : e.name = name := hkeyed _ (mem_skeletons_of_entity? hname)
    refine ⟨e, ?_, rfl⟩
    rw [show e.standing.name = name from hsame]
    exact hname
  · rintro ⟨e, he, rfl⟩
    exact ⟨e, KeyedList.mem_values_iff.mpr ⟨_, he⟩, rfl⟩

/-! ## Writes -/

/-- A change that leaves the standing of an entity alone. -/
theorem standings_modifyEntity (r : Registry) (name : String) {f : Entity → Entity}
    (h : ∀ e : Entity, (f e).standing = e.standing) :
    (r.modifyEntity name f).standings = r.standings := by
  rw [standings_eq_map, standings_eq_map, modifyEntity, KeyedList.modify, List.map_map]
  refine List.map_congr_left fun entry _ => ?_
  rw [Function.comp_apply]
  split
  · exact h _
  · rfl

/-- The standing of a new entity is appended. -/
theorem standings_insert {e : Entity} (hnew : r.hasEntity e.name = false) :
    ({ r with entities := r.entities.insert e.name e } : Registry).standings
      = r.standings ++ [e.standing] := by
  have hfresh : r.entities.contains e.name = false := hnew
  simp [standings_eq_map, KeyedList.insert, hfresh, KeyedList.push]

/-- So is that of a new subclass: its superclass stands where it stood. -/
theorem standings_adopt {e : Entity} (hnew : r.hasEntity e.name = false) (superclass : String) :
    (r.adopt e superclass).standings = r.standings ++ [e.standing] := by
  rw [← standings_insert hnew]
  exact standings_modifyEntity _ superclass fun _ => rfl

/-- A strategy is chosen for the root of a hierarchy. -/
theorem standings_choose (hkeyed : Keyed r.skeletons) {root : Entity}
    (hfound : r.entity? root.name = some root) (hroot : root.isRoot = true)
    (strategy : PersisterStrategy) :
    (r.modifyEntity root.name
        (·.modifyRoot ({ · with defaultPersister := some strategy }))).standings
      = r.standings.map (Standing.choose root.name strategy) := by
  rw [standings_eq_map, standings_eq_map, modifyEntity, KeyedList.modify, List.map_map,
    List.map_map]
  refine List.map_congr_left fun entry hentry => ?_
  have hentity : r.entity? entry.1 = some entry.2 := KeyedList.get?_eq_some_iff.mpr hentry
  have hname : entry.2.name = entry.1 := hkeyed _ (mem_skeletons_of_entity? hentity)
  simp only [Function.comp_apply, Standing.choose]
  by_cases hsame : entry.1 = root.name
  · rw [hsame, hfound, Option.some_inj] at hentity
    rw [if_pos hsame, ← hentity]
    exact (Entity.standing_choose hroot strategy).trans (if_pos rfl).symm
  · rw [if_neg hsame]
    exact (if_neg fun h => hsame (hname.symm.trans h)).symm

theorem Preparation.standings (h : Preparation r r') : r'.standings = r.standings := by
  cases h with
  | quiet h => rw [Registry.standings, h.alike.entities, Registry.standings]
  | collection h =>
    obtain ⟨-, rfl⟩ := addCollection_eq_ok.mp h
    rfl
  | propertyRef => rfl
  | mark name => exact standings_modifyEntity r name fun _ => rfl

theorem Passing.standings (h : Passing r r') : r'.standings = r.standings := by
  cases h with
  | prepare h => exact h.standings
  | reveal name => exact standings_modifyEntity r name fun _ => rfl
  | store => rfl

theorem Mark.standings (h : Mark r r') : r'.standings = r.standings := by
  cases h with
  | property place => exact standings_modifyEntity r _ fun e => e.standing_modifySlot _ _

theorem Marks.standings (h : Marks r r') : r'.standings = r.standings := by
  induction h with
  | refl => rfl
  | tail _ hmark ih => exact hmark.standings.trans ih

end Registry

/-! ## Lines -/

namespace Registry

variable {r r' : Registry}

/-- Lines of descent do not differ. -/
theorem Lineage.unique {name : String} {line line' : List Entity} (h : r.Lineage name line)
    (h' : r.Lineage name line') : line = line' := by
  induction h generalizing line' with
  | root he hroot =>
    cases h' with
    | root he' => rw [he, Option.some_inj] at he'; rw [he']
    | subclass he' hsuper =>
      rw [he, Option.some_inj] at he'
      rw [he', isRoot_iff, hsuper] at hroot
      cases hroot
  | subclass he hsuper _ ih =>
    cases h' with
    | root he' hroot =>
      rw [he, Option.some_inj] at he'
      rw [← he', isRoot_iff, hsuper] at hroot
      cases hroot
    | subclass he' hsuper' hline' =>
      rw [he, Option.some_inj] at he'
      subst he'
      rw [hsuper, Option.some_inj] at hsuper'
      subst hsuper'
      rw [ih hline']

/-- The line of an entity: the standings of the entity, of its superclass, and so on. -/
def line (r : Registry) (name : String) : List Standing :=
  (r.superclassChain name).map Entity.standing

/-- An entity has a persister exactly if one is set in its line, or a strategy is chosen for the
root. -/
theorem hasPersister_eq (r : Registry) (name : String) : r.hasPersister name
    = ((r.line name).any (·.persister.isSome)
      || ((r.line name).getLast?.bind Standing.chosen).isSome) := by
  have hlast : ((r.superclassChain name).getLast?.bind Entity.root?).bind RootData.defaultPersister
      = (r.line name).getLast?.bind Standing.chosen := by
    rw [line, List.getLast?_map, Option.bind_map, Option.bind_assoc]
    rfl
  unfold hasPersister
  dsimp only
  rw [hlast, line, List.any_map]
  rfl

section

variable (hr : Forest r.skeletons)
include hr

/-- A standing is found under its name only. -/
theorem standing_unique {j k : Standing} (hj : j ∈ r.standings) (hk : k ∈ r.standings)
    (hname : j.name = k.name) : j = k := by
  obtain ⟨e, he, rfl⟩ := (mem_standings hr.keyed).mp hj
  obtain ⟨e', he', rfl⟩ := (mem_standings hr.keyed).mp hk
  rw [hname, he', Option.some_inj] at he
  rw [he]

/-- The line of a root is the root. -/
theorem line_root {k : Standing} (hk : k ∈ r.standings) (hroot : k.superclass = none) :
    r.line k.name = [k] := by
  obtain ⟨e, he, rfl⟩ := (mem_standings hr.keyed).mp hk
  have hchain := hr.inheritanceForest.chain_complete _ (hasEntity_iff_exists.mpr ⟨e, he⟩)
  rw [line, hchain.unique (.root he (isRoot_iff.mpr hroot))]
  rfl

/-- The superclass of an entity has a standing. -/
theorem exists_superclass {k : Standing} (hk : k ∈ r.standings) {name : String}
    (hsuper : k.superclass = some name) : ∃ s ∈ r.standings, s.name = name := by
  obtain ⟨e, he, rfl⟩ := (mem_standings hr.keyed).mp hk
  have hsub : e.isRoot = false := by
    rw [Bool.eq_false_iff, ne_eq, isRoot_iff]
    exact fun hnone => Option.some_ne_none _ (hsuper.symm.trans hnone)
  obtain ⟨superclass, hs, i, -, -, hi, -⟩ := hr.inheritanceForest.superclass_earlier _ e he hsub
  cases hs.symm.trans hsuper
  obtain ⟨s, hs⟩ := KeyedList.mem_keys_iff.mp (List.mem_of_getElem? hi)
  have hname : s.name = name := hr.keyed _ (mem_skeletons_of_entity? hs)
  refine ⟨s.standing, (mem_standings hr.keyed).mpr ⟨s, ?_, rfl⟩, hname⟩
  rw [show s.standing.name = name from hname]
  exact hs

/-- The line of a subclass goes on with that of its superclass. -/
theorem line_subclass {k : Standing} (hk : k ∈ r.standings) {name : String}
    (hsuper : k.superclass = some name) : r.line k.name = k :: r.line name := by
  obtain ⟨s, hs, rfl⟩ := exists_superclass hr hk hsuper
  obtain ⟨e, he, rfl⟩ := (mem_standings hr.keyed).mp hk
  obtain ⟨e', he', rfl⟩ := (mem_standings hr.keyed).mp hs
  have hchain := hr.inheritanceForest.chain_complete _ (hasEntity_iff_exists.mpr ⟨e, he⟩)
  have hrest := hr.inheritanceForest.chain_complete _ (hasEntity_iff_exists.mpr ⟨e', he'⟩)
  rw [line, hchain.unique (.subclass he hsuper hrest)]
  rfl

/-- What holds of roots, and of an entity if it does of its superclass, holds of all entities.  By
induction along the line of an entity. -/
theorem forall_standings {P : Standing → Prop}
    (hroot : ∀ k ∈ r.standings, k.superclass = none → P k)
    (hsubclass : ∀ k ∈ r.standings, ∀ s ∈ r.standings, k.superclass = some s.name → P s → P k) :
    ∀ k ∈ r.standings, P k := by
  have hline : ∀ {name chain}, r.Lineage name chain → ∀ k ∈ r.standings, k.name = name → P k := by
    intro name chain h
    induction h with
    | @root name e he hisRoot =>
      rintro k hk rfl
      obtain ⟨e', he', rfl⟩ := (mem_standings hr.keyed).mp hk
      rw [he, Option.some_inj] at he'
      exact hroot _ hk (isRoot_iff.mp (he' ▸ hisRoot))
    | @subclass name superclass e _ he hsuper _ ih =>
      rintro k hk rfl
      obtain ⟨e', he', rfl⟩ := (mem_standings hr.keyed).mp hk
      rw [he, Option.some_inj] at he'
      subst he'
      obtain ⟨s, hs, hname⟩ := exists_superclass hr hk hsuper
      exact hsubclass _ hk s hs (hname ▸ hsuper) (ih s hs hname)
  intro k hk
  obtain ⟨e, he, -⟩ := (mem_standings hr.keyed).mp hk
  exact hline (hr.inheritanceForest.chain_complete _ (hasEntity_iff_exists.mpr ⟨e, he⟩)) k hk rfl

/-- Every line ends at a root. -/
theorem exists_root : ∀ k ∈ r.standings, ∃ root ∈ r.standings, root.superclass = none ∧
    (r.line k.name).getLast? = some root := by
  refine forall_standings hr (fun k hk hroot => ⟨k, hk, hroot, ?_⟩) fun k hk s hs hsuper ih => ?_
  · rw [line_root hr hk hroot]
    rfl
  · obtain ⟨root, hmem, hroot, hlast⟩ := ih
    refine ⟨root, hmem, hroot, ?_⟩
    rw [line_subclass hr hk hsuper, List.getLast?_cons, hlast]
    rfl

/-- Lines change entity by entity, if names and superclasses are kept. -/
theorem line_map (hr' : Forest r'.skeletons) {g : Standing → Standing}
    (hname : ∀ k, (g k).name = k.name) (hsuper : ∀ k, (g k).superclass = k.superclass)
    (h : ∀ k ∈ r.standings, g k ∈ r'.standings) :
    ∀ k ∈ r.standings, r'.line k.name = (r.line k.name).map g := by
  refine forall_standings hr (fun k hk hroot => ?_) fun k hk s hs hsub ih => ?_
  · rw [line_root hr hk hroot, ← hname, line_root hr' (h k hk) ((hsuper k).trans hroot)]
    rfl
  · rw [line_subclass hr hk hsub, ← hname, line_subclass hr' (h k hk) ((hsuper k).trans hsub), ih]
    rfl

end

end Registry

/-! ## Computations that leave standings alone -/

/-- One write that leaves all standings alone. -/
def Registry.Undisturbed (r r' : Registry) : Prop := r'.standings = r.standings

namespace Binding

variable {α : Type} {m : Binding α}

/-- Every run leaves all standings alone, whether it ends well or in an error. -/
def Undisturbing (m : Binding α) : Prop := Makes Undisturbed m

theorem Prepares.undisturbing (h : m.Prepares) : m.Undisturbing :=
  Makes.mono h fun _ _ hstep => .single hstep.standings

theorem Undisturbing.standings (h : m.Undisturbing) (r : Registry) :
    (m.after r).standings = r.standings := by
  have hsteps := h r
  generalize m.after r = r' at hsteps
  induction hsteps with
  | refl => rfl
  | tail _ hstep ih => exact hstep.trans ih

end Binding

theorem undisturbing_changeEntity {name : String} {f : Entity → Entity}
    (h : ∀ e : Entity, (f e).standing = e.standing) : Undisturbing (changeEntity name f) := by
  unfold changeEntity
  exact .bind .get fun _ =>
    .ite (.modify fun r => .single (standings_modifyEntity r name h)) (.throw _)

theorem undisturbing_bindBodyProperty (scope : Scope) (owner : Owner) (walk : BodyWalk)
    (node : Element) : Undisturbing (bindBodyProperty scope owner walk node) := by
  unfold bindBodyProperty
  refine .bind (prepares_bindBodyValue _ _ _ _).undisturbing fun value => ?_
  cases value with
  | none => exact .pure _
  | some value =>
    exact .bind (prepares_createProperty _ _ _ _ _).undisturbing fun _ =>
      .bind (undisturbing_changeEntity fun _ => rfl) fun _ => .pure _

theorem undisturbing_bindBodyExtra (scope : Scope) (owner : Owner) (node : Element) (tag : Tag) :
    Undisturbing (bindBodyExtra scope owner node tag) := by
  unfold bindBodyExtra
  split
  · exact .bind (prepares_bindJoin _ _ _).undisturbing fun _ =>
      undisturbing_changeEntity fun _ => rfl
  · exact .bind (steady_bindFilterUse _).prepares.undisturbing fun _ =>
      undisturbing_changeEntity fun _ => rfl
  · exact (steady_bindNamedQuery _ _).prepares.undisturbing
  · exact (steady_bindNamedSqlQuery _ _ _).prepares.undisturbing
  · exact (steady_bindResultSet _ _ _).prepares.undisturbing
  · exact .pure _

theorem undisturbing_run (pass : DeferredPass) : Undisturbing pass.run :=
  Makes.mono (passing_run pass) fun _ _ hstep => .single hstep.standings

/-! ## Rows -/

/-- What describes the rows of a class does not change where the class stands. -/
theorem yields_standing_row (scope : Scope) (e : Entity) (children : List Element) :
    Yields (bindRow scope e children) fun e' => e'.standing = e.standing := by
  have hkept : Entity.RowKept fun e' => e'.standing = e.standing :=
    ⟨fun {e₁ _} hf he₁ => (e₁.standing_modifyRoot hf).trans he₁, fun _ he₁ => he₁⟩
  exact hkept.row scope rfl children

/-- A header has the kind and the table that it is asked for. -/
theorem yields_kind_header (scope : Scope) (node : Element) (name : String) (kind : EntityKind)
    (table : TableId) :
    Yields (bindHeader scope node name kind table) fun e => e.kind = kind ∧ e.table = table := by
  unfold bindHeader
  exact .next fun _ => .next fun _ => .next fun _ => .pure ⟨rfl, rfl⟩

/-- No strategy is chosen for a root class before it has subclasses. -/
theorem yields_chosen_rootClass (scope : Scope) (node : Element) :
    Yields (prepareRootClass scope node) fun e => e.chosen? = none := by
  refine yields_prepared fun e he => (yields_standing_row _ _ _).mono fun e' he' => ?_
  obtain ⟨data, hroot, -, -, -, hnone⟩ := he.root
  have hsame : e'.chosen? = e.chosen? := congrArg Standing.chosen he'
  rw [hsame, Entity.chosen?, hroot, Option.bind_some, hnone]

/-! ## Superclasses -/

/-- The key of a secondary table refers to a registered entity. -/
theorem hasEntity_of_bindDependantKey {table : TableId} {referenced path : String} {node : Element}
    {v : Value} {r r' : Registry}
    (h : (bindDependantKey table referenced path node).run r = .ok v r') :
    r.hasEntity referenced = true := by
  unfold bindDependantKey at h
  rw [run_get_bind] at h
  obtain ⟨identifier, r₁, hrequired, -⟩ := run_bind_eq_ok.mp h
  obtain ⟨hidentifier, -⟩ := run_require_eq_ok.mp hrequired
  obtain ⟨e, hancestor, -⟩ := stored_of_identifierValue? hidentifier
  exact hancestor.hasEntity

/-- A subclass can only be bound if its superclass is registered. -/
theorem hasEntity_of_prepareSubclass {kind : SubclassKind} {scope : Scope} {superclass : String}
    {node : Element} {e : Entity} {r r' : Registry}
    (h : (prepareSubclass kind scope superclass node).run r = .ok e r') :
    r.hasEntity superclass = true := by
  cases kind with
  | plain =>
    obtain ⟨table, r₁, htable, -⟩ := run_bind_eq_ok.mp h
    obtain ⟨-, s, hs, -⟩ := entity?_of_superclassTable htable
    exact hasEntity_iff_exists.mpr ⟨s, hs⟩
  | joined =>
    obtain ⟨name, r₁, hname, h⟩ := run_bind_eq_ok.mp h
    obtain ⟨q, r₂, hrequest, h⟩ := run_bind_eq_ok.mp h
    obtain ⟨table, r₃, hopen, h⟩ := run_bind_eq_ok.mp h
    obtain ⟨_, r₄, hcomment, h⟩ := run_bind_eq_ok.mp h
    obtain ⟨keyNode, r₅, hkeyNode, h⟩ := run_bind_eq_ok.mp h
    obtain ⟨key, r₆, hkey, -⟩ := run_bind_eq_ok.mp h
    obtain ⟨-, rfl⟩ := run_ofExcept_eq_ok.mp hname
    obtain ⟨-, rfl⟩ := run_require_eq_ok.mp hkeyNode
    have hentities := calc r₅.entities
      _ = r₃.entities := ((steady_commentTable _ _).quiet.alike_of_ok hcomment).entities
      _ = r₂.entities := ((steady_openTable _).quiet.alike_of_ok hopen).entities
      _ = r₁.entities := ((steady_requestTable _ _ _ _).quiet.alike_of_ok hrequest).entities
    have hknown := hasEntity_of_bindDependantKey hkey
    rwa [Registry.hasEntity, hentities] at hknown
  | union =>
    obtain ⟨table, r₁, htable, -⟩ := run_bind_eq_ok.mp h
    obtain ⟨-, s, hs, -⟩ := entity?_of_superclassTable htable
    exact hasEntity_iff_exists.mpr ⟨s, hs⟩

end ObjectMapping
