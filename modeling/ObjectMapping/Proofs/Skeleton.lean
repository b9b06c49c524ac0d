import Mathlib.Data.List.Nodup
import ObjectMapping.Registry.Hierarchy

/-!
# Skeletons of entities

Most of what a binding computation writes concerns neither which entities there are nor how
they are related.  The skeleton of an entity is the rest: its name and kind, its superclass
and subclasses, and the names of the properties that it and its joins declare.
`Registry.skeletons` reads the skeletons off a registry in the order of registration.  The
lemmas say which changes of an entity its skeleton does not show, and what registering and
changing an entity does to the skeletons of a registry.
-/

namespace ObjectMapping

/-- The place of an entity in its hierarchy, and the names of its properties. -/
structure EntitySkeleton where
  name : String
  /-- The tag of the entity's kind. -/
  kind : String
  superclass : Option String
  /-- The direct subclasses, in order of registration. -/
  subclasses : List String
  /-- The names of the declared properties, in order. -/
  properties : List String
  /-- The names of the properties of each join, in order. -/
  joins : List (List String)
deriving DecidableEq

/-- The names of the properties of a join. -/
def Join.propertyNames (j : Join) : List String := j.properties.map Property.name

/-- The skeleton of an entity. -/
def Entity.skeleton (e : Entity) : EntitySkeleton where
  name := e.name
  kind := e.kind.label
  superclass := e.superclass?
  subclasses := e.subclasses
  properties := e.properties.map Property.name
  joins := e.joins.map Join.propertyNames

/-! ## Changes that a skeleton does not show -/

/-- Changing a member of a list in what a function does not show leaves the image alone. -/
theorem map_modify_of_eq {α β : Type} (g : α → β) {f : α → α} (h : ∀ a, g (f a) = g a)
    (l : List α) (i : Nat) : (l.modify i f).map g = l.map g := by
  apply List.ext_getElem?
  intro j
  simp only [List.getElem?_map, List.getElem?_modify]
  cases l[j]? with
  | none => rfl
  | some a => by_cases hij : i = j <;> simp [hij, h]

/-- A change below a property keeps its name if the change of the innermost one does. -/
theorem Property.name_modifyAt {f : Property → Property} (h : ∀ p, (f p).name = p.name)
    (p : Property) (members : List Nat) : (p.modifyAt f members).name = p.name := by
  cases members with
  | nil => exact h p
  | cons index rest =>
    unfold Property.modifyAt
    split <;> rfl

/-- So does it keep whether the property is part of a natural identifier. -/
theorem Property.naturalIdentifier_modifyAt {f : Property → Property}
    (h : ∀ p, (f p).naturalIdentifier = p.naturalIdentifier) (p : Property) (members : List Nat) :
    (p.modifyAt f members).naturalIdentifier = p.naturalIdentifier := by
  cases members with
  | nil => exact h p
  | cons index rest =>
    unfold Property.modifyAt
    split <;> rfl

namespace Entity

/-- The root's data are not part of the skeleton. -/
@[simp] theorem skeleton_modifyRoot (e : Entity) (f : RootData → RootData) :
    (e.modifyRoot f).skeleton = e.skeleton := by
  obtain ⟨_, _, _, _, kind, _⟩ := e
  cases kind <;> rfl

/-- A change of a property that keeps its name is not seen. -/
theorem skeleton_modifySlot (e : Entity) (slot : PropertySlot) {f : Property → Property}
    (h : ∀ p, (f p).name = p.name) : (e.modifySlot f slot).skeleton = e.skeleton := by
  have hnames : ∀ (i : Nat) (ps : List Property),
      (ps.modify i f).map Property.name = ps.map Property.name :=
    fun i ps => map_modify_of_eq Property.name h ps i
  cases slot with
  | own index => simp [modifySlot, skeleton, superclass?, hnames]
  | joined join index =>
    have hjoin : ∀ j : Join, ({ j with properties := j.properties.modify index f } : Join
        ).propertyNames = j.propertyNames := fun j => hnames index j.properties
    simp [modifySlot, skeleton, superclass?, map_modify_of_eq Join.propertyNames hjoin]
  | identifier => exact skeleton_modifyRoot e _

/-- Changing a property keeps the table of the entity. -/
theorem table_modifySlot (e : Entity) (slot : PropertySlot) (f : Property → Property) :
    (e.modifySlot f slot).table = e.table := by
  cases slot <;> rfl

/-- A change of a property that keeps its flag is not seen in the natural identifier, except in what
it changes. -/
theorem map_naturalIdProperties_modifySlot {α : Type} (e : Entity) (g : Property → α)
    (slot : PropertySlot) {f : Property → Property}
    (hflag : ∀ p, (f p).naturalIdentifier = p.naturalIdentifier) (hg : ∀ p, g (f p) = g p) :
    (e.modifySlot f slot).naturalIdProperties.map g = e.naturalIdProperties.map g := by
  have hflagged : ∀ ps : List Property, (ps.filter Property.naturalIdentifier).map g
      = ((ps.map fun p => (p.naturalIdentifier, g p)).filter Prod.fst).map Prod.snd := by
    intro ps
    rw [List.filter_map, List.map_map]
    rfl
  cases slot with
  | own index =>
    have hsame : (e.properties.modify index f).map (fun p => (p.naturalIdentifier, g p))
        = e.properties.map fun p => (p.naturalIdentifier, g p) :=
      map_modify_of_eq _ (fun p => by rw [hflag, hg]) _ _
    simp only [modifySlot, naturalIdProperties, hflagged, hsame]
  | joined | identifier => rfl

end Entity

namespace Registry

/-! ## The skeletons of a registry -/

/-- The skeletons of the registered entities by name, in the order of registration. -/
def skeletons (r : Registry) : List (String × EntitySkeleton) :=
  r.entities.entries.map fun e => (e.1, e.2.skeleton)

/-- The names of the registered entities, in the order of registration. -/
def entityNames (r : Registry) : List String := r.skeletons.map Prod.fst

/-- The names are the keys under which entities are stored. -/
theorem entityNames_eq_keys (r : Registry) : r.entityNames = r.entities.keys := by
  simp [entityNames, skeletons, KeyedList.keys, Function.comp_def]

/-- No name is registered twice. -/
theorem nodup_entityNames (r : Registry) : r.entityNames.Nodup := by
  rw [entityNames_eq_keys]
  exact r.entities.nodup_keys

/-- An entity is registered if its name is among the names. -/
theorem hasEntity_iff {r : Registry} {name : String} :
    r.hasEntity name = true ↔ name ∈ r.entityNames := by
  rw [entityNames_eq_keys]
  exact KeyedList.contains_iff

/-- Registries with the same skeletons have the same entities. -/
theorem hasEntity_congr {r s : Registry} (h : s.skeletons = r.skeletons) (name : String) :
    s.hasEntity name = r.hasEntity name := by
  rw [Bool.eq_iff_iff, hasEntity_iff, hasEntity_iff, entityNames, entityNames, h]

/-- The entity stored under a name is one of the entries. -/
theorem mem_skeletons_of_entity? {r : Registry} {name : String} {e : Entity}
    (h : r.entity? name = some e) : (name, e.skeleton) ∈ r.skeletons := by
  obtain ⟨entry, hentry, rfl⟩ := Option.map_eq_some_iff.mp h
  have hname : entry.1 = name := by simpa using List.find?_some hentry
  exact List.mem_map.mpr ⟨entry, List.mem_of_find?_eq_some hentry, by rw [hname]⟩

/-- Every skeleton is that of the entity stored under its name. -/
theorem entity?_of_mem_skeletons {r : Registry} {name : String} {k : EntitySkeleton}
    (h : (name, k) ∈ r.skeletons) : ∃ e, r.entity? name = some e ∧ e.skeleton = k := by
  have hmem : name ∈ r.entities.keys := by
    rw [← entityNames_eq_keys]
    exact List.mem_map.mpr ⟨_, h, rfl⟩
  obtain ⟨e, he⟩ := Option.ne_none_iff_exists'.mp fun hnone =>
    KeyedList.get?_eq_none_iff.mp hnone hmem
  have hboth := mem_skeletons_of_entity? he
  have hinj := List.inj_on_of_nodup_map r.nodup_entityNames hboth h rfl
  exact ⟨e, he, (Prod.ext_iff.mp hinj).2⟩

/-- An entity is registered if something is stored under its name. -/
theorem hasEntity_iff_exists {r : Registry} {name : String} :
    r.hasEntity name = true ↔ ∃ e, r.entity? name = some e := by
  rw [← Option.isSome_iff_exists, entity?, KeyedList.isSome_get?, hasEntity]

/-- An entity that is changed is found changed, and others are found as they were. -/
theorem entity?_modifyEntity (r : Registry) (name : String) (f : Entity → Entity) (other : String) :
    (r.modifyEntity name f).entity? other
      = (r.entity? other).map fun e => if other = name then f e else e :=
  KeyedList.get?_modify r.entities name other f

/-- What a name resolves to is registered. -/
theorem hasEntity_of_resolveEntityName? {r : Registry} {name entity : String}
    (h : r.resolveEntityName? name = some entity) : r.hasEntity entity = true := by
  unfold resolveEntityName? at h
  split at h
  · cases h
    assumption
  · exact (Option.filter_eq_some_iff.mp h).2

/-! ## Writing to entities -/

/-- Changes the skeleton of a name. -/
def modifySkeleton (name : String) (g : EntitySkeleton → EntitySkeleton)
    (ks : List (String × EntitySkeleton)) : List (String × EntitySkeleton) :=
  ks.map fun k => if k.1 = name then (k.1, g k.2) else k

@[simp] theorem map_fst_modifySkeleton (name : String) (g : EntitySkeleton → EntitySkeleton)
    (ks : List (String × EntitySkeleton)) :
    (modifySkeleton name g ks).map Prod.fst = ks.map Prod.fst := by
  rw [modifySkeleton, List.map_map]
  apply List.map_congr_left
  intro k _
  by_cases h : k.1 = name <;> simp [h]

/-- Changing an entity changes its skeleton, if the change can be told from the skeleton. -/
theorem skeletons_modifyEntity (r : Registry) (name : String) {f : Entity → Entity}
    {g : EntitySkeleton → EntitySkeleton} (h : ∀ e, (f e).skeleton = g e.skeleton) :
    (r.modifyEntity name f).skeletons = modifySkeleton name g r.skeletons := by
  simp only [modifyEntity, skeletons, modifySkeleton, KeyedList.modify, List.map_map]
  apply List.map_congr_left
  intro e _
  by_cases he : e.1 = name <;> simp [he, h]

/-- Changing an entity in what its skeleton does not show leaves the skeletons alone. -/
theorem skeletons_modifyEntity_of_eq (r : Registry) (name : String) {f : Entity → Entity}
    (h : ∀ e, (f e).skeleton = e.skeleton) : (r.modifyEntity name f).skeletons = r.skeletons := by
  rw [skeletons_modifyEntity r name (g := id) h, modifySkeleton]
  simp

/-- Registering a new entity appends its skeleton. -/
theorem skeletons_insert {r : Registry} {e : Entity} (h : r.hasEntity e.name = false) :
    ({ r with entities := r.entities.insert e.name e } : Registry).skeletons
      = r.skeletons ++ [(e.name, e.skeleton)] := by
  have hnew : r.entities.contains e.name = false := h
  simp [skeletons, KeyedList.insert, hnew, KeyedList.push]

end Registry

end ObjectMapping
