import ObjectMapping.Proofs.Acceptance
import ObjectMapping.Proofs.Marking
import ObjectMapping.Proofs.Stores
import ObjectMapping.Proofs.Upkeep

/-!
# Roles of collections

A value refers to collections by their roles: it is such a role itself, or it is a component with
members that refer to collections.  What a dependent key wraps is not looked into, as it is a value
of another property.

A value belongs to an entity if all collections that it refers to are registered as collections of
that entity.  In a registry with owned collections, the values of an entity belong to that entity,
and what a collection stores belongs to the owner of the collection.  A backref shows a value of a
collection, and this is the one case in which a property of one entity has a value that belongs to
another.  Collections stay registered and keep their owner, so that values go on belonging to
entities, and only what is new in a registry has to be looked at.
-/

namespace ObjectMapping

open Binding Registry

/-! ## Roles -/

mutual

/-- The roles of the collections that a value refers to, by itself or through members. -/
def Value.roles : Value → List String
  | .collection role => [role]
  | .component c => c.roles
  | .any _ | .dependant _ _ _ _ | .manyToOne _ | .oneToMany _ | .oneToOne _ | .simple _ => []

/-- The roles of the collections that the members of a component refer to. -/
def Component.roles : Component → List String
  | { properties, .. } => Property.rolesOfAll properties

/-- The roles of the collections that the value of a property refers to. -/
def Property.roles : Property → List String
  | { value, .. } => value.roles

/-- The roles of the collections that the values of some properties refer to. -/
def Property.rolesOfAll : List Property → List String
  | [] => []
  | p :: ps => p.roles ++ Property.rolesOfAll ps

end

/-- Roles of properties are collected one property after another. -/
theorem Property.rolesOfAll_eq (ps : List Property) :
    Property.rolesOfAll ps = ps.flatMap fun p => p.value.roles := by
  induction ps with
  | nil => rfl
  | cons p ps ih =>
    rw [Property.rolesOfAll, ih, List.flatMap_cons]
    cases p
    rfl

/-- A component refers to the collections that its members refer to. -/
theorem Value.roles_component (c : Component) :
    (Value.component c).roles = c.properties.flatMap fun p => p.value.roles := by
  cases c
  rw [Value.roles, Component.roles, Property.rolesOfAll_eq]

/-- The simple core of a value does not matter. -/
theorem Value.roles_modifySimple (f : SimpleValue → SimpleValue) (v : Value) :
    (v.modifySimple f).roles = v.roles := by
  cases v <;> rfl

/-- Neither does what the backing class knows of it. -/
theorem Value.roles_reflected (reflection : Reflection) (className property : String) (v : Value) :
    (v.reflected reflection className property).roles = v.roles := by
  cases v <;> rfl

/-! ## Belonging to an entity -/

/-- A role is that of a registered collection, and the collection is one of an entity. -/
def Registry.HasCollection (r : Registry) (owner role : String) : Prop :=
  ∃ c, r.collection? role = some c ∧ c.ownerEntity = owner

/-- All collections that a value refers to are registered, and are collections of an entity. -/
def Value.BelongsTo (r : Registry) (owner : String) (v : Value) : Prop :=
  ∀ role ∈ v.roles, r.HasCollection owner role

/-- The entity that the value of a property is to belong to: the one that has the property, or the
owner of the collection that a backref shows. -/
def Property.owner (entity : String) (p : Property) : String :=
  (p.backref.map Backref.entityName).getD entity

/-- The value of a property of an entity belongs to its owner. -/
def Property.BelongsTo (r : Registry) (entity : String) (p : Property) : Prop :=
  p.value.BelongsTo r (p.owner entity)

/-- What an entity stores belongs to the entity of a name. -/
abbrev Entity.BelongsTo (r : Registry) (name : String) (e : Entity) : Prop :=
  e.Stores (Value.BelongsTo r name) (Property.BelongsTo r name) (Property.BelongsTo r name)

/-- What a collection stores belongs to the owner of the collection. -/
def Collection.Consistent (r : Registry) (c : Collection) : Prop :=
  ∀ v ∈ c.values, v.BelongsTo r c.ownerEntity

namespace Value

variable {r : Registry} {owner : String}

/-- A value that refers to no collection belongs to any entity. -/
theorem belongsTo_of_roles {v : Value} (h : v.roles = []) : v.BelongsTo r owner := by
  intro role hrole
  rw [h] at hrole
  exact absurd hrole List.not_mem_nil

/-- A collection belongs to the entity for which it is registered. -/
theorem belongsTo_collection {role : String} (h : r.HasCollection owner role) :
    (Value.collection role).BelongsTo r owner := by
  intro role' hrole
  cases List.mem_singleton.mp hrole
  exact h

/-- A component belongs to an entity if its members do. -/
theorem belongsTo_component_iff {c : Component} : (Value.component c).BelongsTo r owner ↔
    ∀ p ∈ c.properties, p.value.BelongsTo r owner := by
  simp only [Value.BelongsTo, roles_component, List.forall_mem_flatMap]

/-- Only the roles of a value matter. -/
theorem BelongsTo.congr {v v' : Value} (h : v.BelongsTo r owner) (hroles : v'.roles = v.roles) :
    v'.BelongsTo r owner := by
  rw [Value.BelongsTo, hroles]
  exact h

end Value

namespace Property

variable {r : Registry} {entity : String} {p : Property}

/-- The value of a property that is no backref belongs to the entity of the property. -/
theorem belongsTo_of_plain (hplain : p.backref = none) (h : p.value.BelongsTo r entity) :
    p.BelongsTo r entity := by
  rw [BelongsTo, owner, hplain]
  exact h

/-- A mark below a property does not change the collections that it refers to, by induction on the
path to the member that is marked. -/
theorem belongsTo_value_modifyAt {owner : String} (members : List Nat) {p : Property}
    (h : p.value.BelongsTo r owner) :
    (p.modifyAt markAlternateKey members).value.BelongsTo r owner := by
  induction members generalizing p with
  | nil => exact h.congr (Value.roles_modifySimple _ p.value)
  | cons index rest ih =>
    unfold Property.modifyAt
    split
    · next c hc =>
      rw [hc, Value.belongsTo_component_iff] at h
      exact Value.belongsTo_component_iff.mpr (forall_mem_modify (fun _ => ih) h index)
    · exact h

/-- A mark on a member changes no role. -/
theorem BelongsTo.modifyAt (h : p.BelongsTo r entity) (members : List Nat) :
    (p.modifyAt markAlternateKey members).BelongsTo r entity := by
  obtain ⟨-, hbackref, -⟩ := same_modifyAt members p
  rw [BelongsTo, owner, hbackref]
  exact belongsTo_value_modifyAt members h

end Property

/-! ## Later registries -/

/-- Collections stay registered, and keep their owner. -/
def Registry.KeepsOwners (r r' : Registry) : Prop :=
  ∀ {owner role : String}, r.HasCollection owner role → r'.HasCollection owner role

section

variable {r r' : Registry} {owner : String} (h : r.KeepsOwners r')
include h

/-- What belongs to an owner keeps belonging to it. -/
theorem Value.BelongsTo.later {v : Value} (hv : v.BelongsTo r owner) : v.BelongsTo r' owner :=
  fun role hrole => h (hv role hrole)

/-- So does a property. -/
theorem Property.BelongsTo.later {p : Property} (hp : p.BelongsTo r owner) :
    p.BelongsTo r' owner :=
  Value.BelongsTo.later h hp

/-- So does an entity with all of its properties. -/
theorem Entity.BelongsTo.later {e : Entity} (he : e.BelongsTo r owner) : e.BelongsTo r' owner :=
  he.imp (fun _ hv => hv.later h) (fun _ hp => hp.later h) fun _ _ hp => hp.later h

/-- A consistent collection stays consistent. -/
theorem Collection.Consistent.later {c : Collection} (hc : c.Consistent r) : c.Consistent r' :=
  fun v hv => (hc v hv).later h

end

/-! ## Owned collections -/

/-- What entities and collections store belongs to them, and they are stored under their own names
and roles. -/
structure Registry.Owned (r : Registry) : Prop where
  entities : ∀ name e, r.entity? name = some e → e.name = name ∧ e.BelongsTo r name
  collections : ∀ role c, r.collection? role = some c → c.role = role ∧ c.Consistent r

/-- Collections keep their owners, and what belongs to an entity goes on doing so. -/
def owning : Upkeep where
  invariant := Registry.Owned
  keeps r r' := r.KeepsOwners r'
  refl _ := id
  trans h h' := h' ∘ h

namespace Registry.Owned

variable {r r' : Registry} (hr : r.Owned)
include hr

/-- Only new entities and collections have to be looked at. -/
theorem grow (hkeeps : r.KeepsOwners r')
    (hentities : ∀ name e, r'.entity? name = some e →
      r.entity? name = some e ∨ e.name = name ∧ e.BelongsTo r' name)
    (hcollections : ∀ role c, r'.collection? role = some c →
      r.collection? role = some c ∨ c.role = role ∧ c.Consistent r') :
    owning.Advances r r' where
  keeps := hkeeps
  invariant :=
    { entities := fun name e he => (hentities name e he).elim
        (fun hold => (hr.entities name e hold).imp_right (·.later hkeeps)) id
      collections := fun role c hc => (hcollections role c hc).elim
        (fun hold => (hr.collections role c hold).imp_right (·.later hkeeps)) id }

/-- Nothing is new if there are the same entities and collections. -/
theorem of_same (hentities : r'.entities = r.entities)
    (hcollections : r'.collections = r.collections) : owning.Advances r r' := by
  have hlookup : ∀ role, r'.collection? role = r.collection? role := fun role => by
    rw [collection?, hcollections, collection?]
  refine hr.grow ?_ (fun name e he => .inl ?_) fun role c hc => .inl (hlookup role ▸ hc)
  · rintro owner role ⟨c, hc, howner⟩
    exact ⟨c, (hlookup role).trans hc, howner⟩
  · rwa [entity?, hentities] at he

/-- Alike registries own the same collections. -/
theorem of_alike (h : Alike r r') : owning.Advances r r' :=
  hr.of_same h.entities h.collections

/-- An entity may be changed as long as what it stores belongs to it. -/
theorem modifyEntity (name : String) {f : Entity → Entity}
    (h : ∀ e : Entity, e.name = name → e.BelongsTo r name →
      (f e).name = name ∧ (f e).BelongsTo r name) :
    owning.Advances r (r.modifyEntity name f) := by
  refine hr.grow id (fun name' e' he' => ?_) fun _ _ => .inl
  rw [entity?_modifyEntity] at he'
  obtain ⟨e, he, rfl⟩ := Option.map_eq_some_iff.mp he'
  split
  · next hsame =>
    subst hsame
    obtain ⟨hname, hbelongs⟩ := hr.entities name' e he
    exact .inr (h e hname hbelongs)
  · exact .inl he

/-- So may one be registered. -/
theorem addEntity {e : Entity} (he : e.BelongsTo r e.name) (h : r.addEntity e = .ok r') :
    owning.Advances r r' := by
  obtain ⟨-, rfl⟩ := addEntity_eq_ok.mp h
  refine hr.grow id (fun name e' he' => ?_) fun _ _ => .inl
  rcases eq_or_of_entity?_addEntity h he' with ⟨rfl, rfl⟩ | hold
  · exact .inr ⟨rfl, he⟩
  · exact .inl hold

/-- A collection is only registered under a role that is free, and then it is there. -/
theorem addCollection {c : Collection} (hc : c.Consistent r) (h : r.addCollection c = .ok r') :
    owning.Advances r r' ∧ r'.HasCollection c.ownerEntity c.role := by
  have hfound := collection?_self_of_addCollection h
  have hkeeps : r.KeepsOwners r' := by
    rintro owner role ⟨c₀, hc₀, howner⟩
    exact ⟨c₀, collection?_of_addCollection_of_some h hc₀, howner⟩
  obtain ⟨-, rfl⟩ := addCollection_eq_ok.mp h
  refine ⟨hr.grow hkeeps (fun _ _ => .inl) fun role c' hc' => ?_, c, hfound, rfl⟩
  rcases eq_or_of_collection?_addCollection h hc' with ⟨rfl, rfl⟩ | hold
  · exact .inr ⟨rfl, hc.later hkeeps⟩
  · exact .inl hold

/-- A registered collection may be replaced by one of the same owner. -/
theorem replaceCollection {c : Collection} (hregistered : r.HasCollection c.ownerEntity c.role)
    (hc : c.Consistent r) : owning.Advances r (r.modifyCollection c.role fun _ => c) := by
  have hkeeps : r.KeepsOwners (r.modifyCollection c.role fun _ => c) := by
    rintro owner role ⟨c₀, hc₀, howner⟩
    refine ⟨_, by rw [collection?_modifyCollection, hc₀, Option.map_some], ?_⟩
    split
    · next hrole =>
      subst hrole
      obtain ⟨c₁, hc₁, hsame⟩ := hregistered
      cases hc₁.symm.trans hc₀
      exact hsame.symm.trans howner
    · exact howner
  refine hr.grow hkeeps (fun _ _ => .inl) fun role c' hc' => ?_
  rcases eq_or_of_collection?_replaced hc' with ⟨rfl, rfl⟩ | hold
  · exact .inr ⟨rfl, hc.later hkeeps⟩
  · exact .inl hold

/-- A property may be marked. -/
theorem mark (h : Mark r r') : owning.Advances r r' := by
  cases h with
  | property place =>
    refine hr.modifyEntity _ fun e hname he => ⟨?_, he.modifySlot place.slot ?_ ?_⟩
    · rw [← hname]
      cases place.slot <;> rfl
    · exact fun p hp => hp.modifyAt place.members
    · exact fun p hp =>
        ⟨Property.belongsTo_value_modifyAt place.members hp.1, hp.2.modifyAt place.members⟩

end Registry.Owned

end ObjectMapping
