import ObjectMapping.Proofs.CollectionOwners
import ObjectMapping.Proofs.ContentsBinding

/-!
# Traits of properties

A registry stores properties at any depth: those that entities and their joins declare, the one of
an identifier, and the members of all components among the values of entities and collections, be
they identifiers, elements or indexes, or wrapped by a key.  All of them are made at four places
only: from the settings of an element, as the shadow of a composite identifier, and as the two
backrefs of a collection.  After that, a property is written less often, as part of a natural
identifier or a component, or it gets another value, when a member inside it is marked.

A trait is a condition on the settings of single properties that holds at these four places and
survives these changes.  Whatever the trait says, every property of every registry that a session
gets to has it.
-/

namespace ObjectMapping

open Binding Registry

/-! ## Properties at any depth -/

/-- The properties inside a value, at any depth. -/
def Value.members (v : Value) : List Property :=
  (v.parts.filterMap Value.component?).flatMap Component.properties

/-- The properties of an entity, at any depth: declared ones, that of the identifier, and those
inside the values that it stores. -/
def Entity.propertiesWithin (e : Entity) : List Property :=
  e.allProperties ++ e.identifierProperty?.toList ++ e.values.flatMap Value.members

/-- The properties inside the values that a collection stores. -/
def Collection.propertiesWithin (c : Collection) : List Property := c.values.flatMap Value.members

/-- A value that holds no other and is no component has no members. -/
theorem Value.members_of_single {v : Value} (hparts : v.parts = [v]) (hv : v.component? = none) :
    v.members = [] := by
  rw [Value.members, hparts, List.filterMap_cons_none hv]
  rfl

/-- The members of a component, and the properties inside them. -/
theorem Value.mem_members_component {c : Component} {q : Property} :
    q ∈ (Value.component c).members ↔
      q ∈ c.properties ∨ ∃ p ∈ c.properties, q ∈ p.value.members := by
  have hself : (Value.component c).component? = some c := rfl
  rw [Value.members, Value.parts_component, List.filterMap_cons_some hself, List.flatMap_cons,
    List.mem_append, List.filterMap_flatMap, List.flatMap_assoc, List.mem_flatMap]
  rfl

/-- The members of a dependent key are those of what it refers to. -/
theorem Value.members_dependant (base : SimpleValue) (wrapped : Value)
    (nullable updatable : Bool) :
    (Value.dependant base wrapped nullable updatable).members = wrapped.members := by
  have hself : (Value.dependant base wrapped nullable updatable).component? = none := rfl
  rw [Value.members, Value.parts, List.filterMap_cons_none hself]
  rfl

/-! ## Traits -/

/-- A condition on properties that holds wherever they are made, and is kept by what may happen to
them afterwards. -/
structure Property.Trait (Q : Property → Prop) : Prop where
  bound : ∀ {scope : Scope} {node : Element} {v : Value} {name : String} {p : Property},
    bindProperty scope node v name = .ok p → Q p
  shadow : ∀ c : Component, Q {
    name := identifierMapperName
    nodeName := some "id"
    value := .component c
    access := "embedded"
    insertable := false
    updatable := false }
  backref : ∀ {c : Collection} {node : Element} {kind : BackrefKind} {target : String}
    {p : Property}, c.backref? node kind = some (target, p) → Q p
  /-- It may be written less often than it says, and its place does not matter. -/
  restrict : ∀ {p : Property} {insertable updatable isOptional naturalIdentifier : Bool}, Q p →
    (insertable → p.insertable) → (updatable → p.updatable) →
      Q { p with insertable, updatable, isOptional, naturalIdentifier }
  /-- Neither does its value. -/
  revalue : ∀ {p : Property} (value : Value), Q p → Q { p with value }

section

variable (Q : Property → Prop)

/-- Every property inside a value meets a condition. -/
def Value.Bears (v : Value) : Prop := ∀ p ∈ v.members, Q p

/-- A property meets a condition, and so does every property inside it. -/
def Property.Bears (p : Property) : Prop := Q p ∧ p.value.Bears Q

/-- The properties of an entity have a trait, at any depth. -/
abbrev Entity.Bears (e : Entity) : Prop :=
  e.Stores (Value.Bears Q) (Property.Bears Q) (Property.Bears Q)

/-- So have those in the values of a collection. -/
def Collection.Bears (c : Collection) : Prop := ∀ v ∈ c.values, v.Bears Q

/-- Every property in a registry meets a condition, and entities are stored under their own
names. -/
structure Registry.Bears (r : Registry) : Prop where
  named : ∀ name e, r.entity? name = some e → e.name = name
  entities : ∀ name e, r.entity? name = some e → e.Bears Q
  collections : ∀ role c, r.collection? role = some c → c.Bears Q

/-- The properties of a registry go on to meet a condition. -/
def bearing : Upkeep where
  invariant := Registry.Bears Q
  keeps _ _ := True
  refl _ := trivial
  trans _ _ := trivial

end

variable {Q : Property → Prop} {r r' : Registry} {scope : Scope} {node : Element}

namespace Value

/-- A value without members has the trait, as there is nothing to show. -/
theorem bears_of_single {v : Value} (hparts : v.parts = [v]) (hv : v.component? = none) :
    v.Bears Q := by
  rw [Bears, members_of_single hparts hv]
  exact List.forall_mem_nil Q

/-- A component has the trait if its members have it. -/
theorem bears_component_iff {c : Component} :
    (Value.component c).Bears Q ↔ ∀ p ∈ c.properties, p.Bears Q := by
  constructor
  · exact fun h p hp => ⟨h p (mem_members_component.mpr (.inl hp)), fun q hq =>
      h q (mem_members_component.mpr (.inr ⟨p, hp, hq⟩))⟩
  · intro h q hq
    rcases mem_members_component.mp hq with hmember | ⟨p, hp, hinside⟩
    · exact (h q hmember).1
    · exact (h p hp).2 q hinside

/-- A dependent key has the trait if what it refers to has it. -/
theorem bears_dependant_iff {base : SimpleValue} {wrapped : Value} {nullable updatable : Bool} :
    (Value.dependant base wrapped nullable updatable).Bears Q ↔ wrapped.Bears Q := by
  rw [Bears, members_dependant, Bears]

/-- What the backing class knows of a value does not change the properties inside it. -/
theorem Bears.reflected {v : Value} (h : v.Bears Q) (reflection : Reflection)
    (className property : String) : (v.reflected reflection className property).Bears Q := by
  cases v with
  | simple | manyToOne | oneToOne => exact bears_of_single rfl rfl
  | any | collection | component | dependant | oneToMany => exact h

/-- Neither does a change of the simple core. -/
theorem Bears.modifySimple {v : Value} (h : v.Bears Q) (f : SimpleValue → SimpleValue) :
    (v.modifySimple f).Bears Q := by
  cases v with
  | simple | manyToOne | oneToOne | any => exact bears_of_single rfl rfl
  | dependant => exact bears_dependant_iff.mpr (bears_dependant_iff.mp h)
  | collection | component | oneToMany => exact h

end Value

/-- All properties of an entity that bears a trait have it. -/
theorem Entity.Bears.forall_within {e : Entity} (h : e.Bears Q) :
    ∀ p ∈ e.propertiesWithin, Q p := by
  have hvalues : e.Stores (Value.Bears Q) (fun p => p.value.Bears Q ∧ Q p) (Property.Bears Q) :=
    h.imp (fun _ => id) (fun _ => And.symm) fun _ _ => id
  intro p hp
  simp only [propertiesWithin, List.mem_append, Option.mem_toList, List.mem_flatMap] at hp
  rcases hp with (hdeclared | hidentifier) | ⟨v, hv, hinside⟩
  · exact (h.properties p hdeclared).1
  · exact (h.identifier p hidentifier).1
  · exact hvalues.value hv p hinside

/-- All properties in a collection have the trait, at any depth. -/
theorem Collection.Bears.forall_within {c : Collection} (h : c.Bears Q) :
    ∀ p ∈ c.propertiesWithin, Q p := by
  intro p hp
  obtain ⟨v, hv, hinside⟩ := List.mem_flatMap.mp hp
  exact h v hv p hinside

/-! ## Single properties -/

namespace Property.Trait

variable (hQ : Trait Q)
include hQ

/-- A mark below a property is kept by a trait, by induction on the path to the member that is
marked. -/
theorem bears_modifyAt (members : List Nat) {p : Property} (h : p.Bears Q) :
    (p.modifyAt markAlternateKey members).Bears Q := by
  induction members generalizing p with
  | nil => exact ⟨hQ.revalue _ h.1, h.2.modifySimple _⟩
  | cons index rest ih =>
    unfold Property.modifyAt
    split
    · next c hc =>
      have hmembers := h.2
      rw [hc, Value.bears_component_iff] at hmembers
      exact ⟨hQ.revalue _ h.1,
        Value.bears_component_iff.mpr (forall_mem_modify (fun _ => ih) hmembers index)⟩
    · exact h

/-- The settings of an element make a property with the trait. -/
theorem bears_of_bindProperty {v : Value} (hv : v.Bears Q) {name : String} {p : Property}
    (h : bindProperty scope node v name = .ok p) : p.Bears Q := by
  obtain rfl := (boundAs_of_bindProperty h).value
  exact ⟨hQ.bound h, hv⟩

/-- A backref shows a value of its collection. -/
theorem bears_backref {c : Collection} (hc : c.Bears Q) {kind : BackrefKind} {target : String}
    {p : Property} (h : c.backref? node kind = some (target, p)) : p.Bears Q := by
  refine ⟨hQ.backref h, hc p.value (Collection.mem_values.mpr ?_)⟩
  exact (Collection.shows_of_backref? h).imp_right fun hindex => .inr (.inl hindex)

end Property.Trait

/-! ## Writes -/

namespace Registry.Bears

variable (hr : r.Bears Q)
include hr

/-- Only new entities and collections have to be looked at. -/
theorem grow
    (hentities : ∀ name e, r'.entity? name = some e →
      r.entity? name = some e ∨ e.name = name ∧ e.Bears Q)
    (hcollections : ∀ role c, r'.collection? role = some c →
      r.collection? role = some c ∨ c.Bears Q) : (bearing Q).Advances r r' where
  keeps := trivial
  invariant :=
    { named := fun name e he => (hentities name e he).elim (hr.named name e) And.left
      entities := fun name e he => (hentities name e he).elim (hr.entities name e) And.right
      collections := fun role c hc => (hcollections role c hc).elim (hr.collections role c) id }

/-- Nothing has to be shown of what concerns neither entities nor collections. -/
theorem of_same (hentities : r'.entities = r.entities)
    (hcollections : r'.collections = r.collections) : (bearing Q).Advances r r' := by
  refine hr.grow (fun _ _ he => .inl ?_) fun _ _ hc => .inl ?_
  · rwa [entity?, hentities] at he
  · rwa [collection?, hcollections] at hc

/-- Quiet writes are of this kind. -/
theorem of_alike (h : Alike r r') : (bearing Q).Advances r r' :=
  hr.of_same h.entities h.collections

/-- An entity may be changed into one with the trait under its name. -/
theorem modifyEntity (name : String) {f : Entity → Entity}
    (h : ∀ e : Entity, e.name = name → e.Bears Q → (f e).name = name ∧ (f e).Bears Q) :
    (bearing Q).Advances r (r.modifyEntity name f) := by
  refine hr.grow (fun name' e' he' => ?_) fun _ _ => .inl
  rw [entity?_modifyEntity] at he'
  obtain ⟨e, he, rfl⟩ := Option.map_eq_some_iff.mp he'
  split
  · next hsame =>
    subst hsame
    exact .inr (h e (hr.named name' e he) (hr.entities name' e he))
  · exact .inl he

/-- An entity with the trait may be registered. -/
theorem addEntity {e : Entity} (he : e.Bears Q) (h : r.addEntity e = .ok r') :
    (bearing Q).Advances r r' := by
  obtain ⟨-, rfl⟩ := addEntity_eq_ok.mp h
  refine hr.grow (fun name e' he' => ?_) fun _ _ => .inl
  rcases eq_or_of_entity?_addEntity h he' with ⟨rfl, rfl⟩ | hold
  · exact .inr ⟨rfl, he⟩
  · exact .inl hold

/-- So may a collection with the trait. -/
theorem addCollection {c : Collection} (hc : c.Bears Q) (h : r.addCollection c = .ok r') :
    (bearing Q).Advances r r' := by
  obtain ⟨-, rfl⟩ := addCollection_eq_ok.mp h
  refine hr.grow (fun _ _ => .inl) fun role c' hc' => ?_
  rcases eq_or_of_collection?_addCollection h hc' with ⟨-, rfl⟩ | hold
  · exact .inr hc
  · exact .inl hold

/-- A collection may be replaced by one with the trait. -/
theorem replaceCollection {c : Collection} (hc : c.Bears Q) :
    (bearing Q).Advances r (r.modifyCollection c.role fun _ => c) := by
  refine hr.grow (fun _ _ => .inl) fun role c' hc' => ?_
  rcases eq_or_of_collection?_replaced hc' with ⟨-, rfl⟩ | hold
  · exact .inr hc
  · exact .inl hold

/-- A property may be marked. -/
theorem mark (hQ : Property.Trait Q) (h : Mark r r') : (bearing Q).Advances r r' := by
  cases h with
  | property place =>
    refine hr.modifyEntity _ fun e hname he => ⟨?_, he.modifySlot place.slot ?_ ?_⟩
    · rw [← hname]
      cases place.slot <;> rfl
    · exact fun p hp => hQ.bears_modifyAt place.members hp
    · intro p hp
      have hmarked := hQ.bears_modifyAt place.members hp.2
      exact ⟨hmarked.2, hmarked⟩

/-- Whatever is stored along a chain of superclasses has the trait. -/
theorem ancestor {name : String} {e : Entity} (h : r.Ancestor name e) {v : Value}
    (hv : v ∈ e.values) : v.Bears Q := by
  obtain ⟨name', hname⟩ := h.registered
  intro p hp
  exact (hr.entities name' e hname).forall_within p
    (List.mem_append_right _ (List.mem_flatMap.mpr ⟨v, hv, hp⟩))

/-- So has what the key of a collection refers to. -/
theorem keyTarget {c : Collection} {owner : Owner} {v : Value}
    (h : r.keyTarget c owner = .ok v) : v.Bears Q := by
  unfold Registry.keyTarget at h
  split at h
  · split at h
    · next hidentifier =>
      cases h
      obtain ⟨e, hancestor, hv⟩ := stored_of_identifierValue? hidentifier
      exact hr.ancestor hancestor hv
    · cases h
  · split at h
    · next hproperty =>
      cases h
      obtain ⟨e, hancestor, ⟨w, hw, hparts⟩, -⟩ := stored_of_referencedProperty? hproperty
      intro p hp
      obtain ⟨c, hc, hmember⟩ := List.mem_flatMap.mp hp
      refine hr.ancestor hancestor hw p (List.mem_flatMap.mpr ⟨c, ?_, hmember⟩)
      obtain ⟨part, hpart, hcomponent⟩ := List.mem_filterMap.mp hc
      exact List.mem_filterMap.mpr ⟨part, hparts hpart, hcomponent⟩
    · cases h

end Registry.Bears

/-! ## Computations -/

/-- What is quiet keeps the trait, whatever value it ends in. -/
theorem bears_yields {α : Type} {m : Binding α} (hm : m.Quiet) {P : α → Prop}
    (hyields : Yields m P) : Upholds (bearing Q) m r fun a _ => P a :=
  .of_makes hm hyields fun _ _ hwrite hr => Registry.Bears.of_alike hr hwrite.alike

/-- Of that value nothing has to be known. -/
theorem bears_quiet {α : Type} {m : Binding α} (hm : m.Quiet) :
    Upholds (bearing Q) m r fun _ _ => True :=
  bears_yields hm (P := fun _ => True) fun _ _ _ _ => trivial

theorem bears_steady {α : Type} {m : Binding α} (hm : m.Steady) :
    Upholds (bearing Q) m r fun _ _ => True := bears_quiet hm.quiet

/-- The value of a simple member has no properties inside it. -/
theorem yields_bindSimpleMember_bears (scope : Scope) (site : ColumnSite) (node : Element)
    (tag : Tag) : Yields (bindSimpleMember scope site node tag)
      fun o => ∀ v, o = some v → v.Bears Q := by
  cases tag with
  | manyToOne | any | property =>
    exact .next fun v => .pure fun _ hv => Option.some.inj hv ▸ Value.bears_of_single rfl rfl
  | _ => exact .pure fun _ hnone => absurd hnone.symm (Option.some_ne_none _)

/-- The key of a secondary table wraps an identifier that is stored. -/
theorem bears_bindDependantKey (table : TableId) (referenced path : String) (node : Element) :
    Upholds (bearing Q) (bindDependantKey table referenced path node) r
      fun v _ => v.Bears Q := by
  unfold bindDependantKey
  refine .of_invariant fun hr => .get_bind (.require_bind fun identifier hidentifier => ?_)
  obtain ⟨e, hancestor, hstored⟩ := stored_of_identifierValue? hidentifier
  have hwrapped := hr.ancestor hancestor hstored
  refine .bind (bears_steady (steady_bindSimpleValue _ _)) fun v r₁ _ _ => ?_
  refine .bind (bears_quiet (quiet_changeTable _ fun t => .setPrimaryKey t _)) fun _ r₂ _ _ => ?_
  refine .bind (.write fun hr => Registry.Bears.of_alike hr
    (quietWrites_constrainTo r₂ _ _).alike) fun _ r₃ _ _ => .pure ?_
  exact Value.bears_dependant_iff.mpr hwrapped

/-- The key of a collection refers to a value that is stored already. -/
theorem bears_bindCollectionKey (c : Collection) (owner : Owner) (node : Element) :
    Upholds (bearing Q) (bindCollectionKey c owner node) r fun v _ => v.Bears Q := by
  unfold bindCollectionKey
  refine .of_invariant fun hr => .get_bind (.ofExcept_bind fun wrapped hwrapped => ?_)
  have htarget := Registry.Bears.keyTarget hr hwrapped
  refine .bind (bears_steady (steady_bindSimpleValue _ _)) fun base r₁ _ _ => ?_
  dsimp only
  refine .ite (fun _ => .pure (Value.bears_dependant_iff.mpr htarget)) fun _ => ?_
  exact .bind (bears_quiet (quiet_changeTable _ fun t => .requireColumns t _))
    fun _ _ _ _ => .pure (Value.bears_dependant_iff.mpr htarget)

/-- A collection is registered with an element that has no properties inside it, and the value that
refers to it has none either. -/
theorem bears_bindCollection (scope : Scope) (node : Element) (kind : CollectionKind)
    (role : String) (owner : Owner) :
    Upholds (bearing Q) (bindCollection scope node kind role owner) r fun v _ => v.Bears Q := by
  unfold bindCollection
  refine .ofExcept_bind fun batchSize _ => .optional (fun _ => ?_) fun r₁ _ => ?_
  · exact .write fun hr => Registry.Bears.modifyEntity hr _ fun e hname he =>
      ⟨hname, he.properties, he.keys, he.kind, he.identifier⟩
  · refine .bind (bears_yields (steady_openElement scope node role owner).quiet
      (yields_openElement scope node role owner)) fun ⟨element, table⟩ r₂ _ helement => ?_
    refine .bind (bears_steady (.mapM steady_bindFilterUse _)) fun filters r₃ _ _ => ?_
    split
    refine .bind (P := fun _ _ => True) (.register fun r₄ hr hadd =>
      ⟨Registry.Bears.addCollection hr ?_ hadd, trivial⟩) fun _ r₄ _ _ => ?_
    · intro v hv
      rcases Collection.mem_values.mp hv with h | h | h | h
      · cases h
      · obtain ⟨target, rfl⟩ := helement v h
        exact Value.bears_of_single rfl rfl
      · cases h
      · cases h
    · refine .bind (.write fun hr => Registry.Bears.of_same hr rfl rfl)
        fun _ r₅ _ _ => .pure ?_
      exact Value.bears_of_single rfl rfl

/-- An owner that is found is the entity of that name. -/
theorem bears_find (name : String) :
    Upholds (bearing Q) (Owner.find name) r fun owner _ => owner.name = name ∧ True := by
  unfold Owner.find
  refine .of_invariant fun hr => .get_bind (.require _ fun owner hfound => ?_)
  obtain ⟨e, he, rfl⟩ := Option.map_eq_some_iff.mp hfound
  exact ⟨hr.named name e he, trivial⟩

namespace Property.Trait

variable (hQ : Trait Q)
include hQ

/-- A property that is created has the trait, as do those inside its value. -/
theorem bears_createProperty {v : Value} (hv : v.Bears Q) (className : Option String)
    (owner : String) : Upholds (bearing Q) (createProperty scope node v className owner) r
      fun p _ => p.Bears Q := by
  have hfinish : ∀ (known : Value) (name : String), known.Bears Q → Upholds (bearing Q) (do
      modify (·.recordReferences owner (node.tag? = some .manyToMany) known)
      modify (·.constrainValue known)
      Binding.ofExcept (bindProperty scope node known name)) r fun p _ => p.Bears Q := by
    intro known name hknown
    refine .bind (.write fun hr => ?_) fun _ r₁ _ _ => ?_
    · obtain ⟨hentities, hcollections⟩ := stored_recordReferences r owner _ known
      exact Registry.Bears.of_same hr hentities hcollections
    refine .bind (.write fun hr => Registry.Bears.of_alike hr
      (quietWrites_constrainValue r₁ known).alike) fun _ r₂ _ _ => .ofExcept fun p hp => ?_
    exact hQ.bears_of_bindProperty hknown hp
  unfold createProperty
  refine .ofExcept_bind fun name _ => .get_bind ?_
  cases className with
  | none => exact hfinish v name hv
  | some className => exact hfinish _ name (hv.reflected _ className name)

/-- A backref may be added to its target. -/
theorem bears_addBackref {c : Collection} (hc : c.Bears Q) (node : Element) (kind : BackrefKind) :
    Upholds (bearing Q) (addBackref node c kind) r fun _ _ => True := by
  unfold addBackref
  split
  · exact .pure trivial
  · next target p hshown =>
    refine .get_bind (.ite (fun _ => ?_) fun _ => .throw _)
    exact .write fun hr => Registry.Bears.modifyEntity hr target fun e hname he =>
      ⟨hname, he.addProperty (hQ.bears_backref hc hshown)⟩

end Property.Trait

/-! ## Entities and contents -/

/-- What has a trait, of values, properties and entities. -/
def bearingStock (Q : Property → Prop) : Stock where
  upkeep := bearing Q
  reads _ _ := True
  value _ _ v := v.Bears Q
  property _ _ p := p.Bears Q
  suits _ _ _ _ v := v.Bears Q
  bound _ _ _ _ p := p.Bears Q
  entity _ := True

/-- Whatever is bound for an entity has the trait. -/
theorem kept_bearingStock (hQ : Property.Trait Q) : (bearingStock Q).Kept where
  child _ _ := trivial
  descend _ _ := trivial
  member _ _ _ := trivial
  value_later _ hv := hv
  property_later _ hp := hp
  suits_later _ hv := hv
  bound_later _ hp := hp
  stored _ hp := ⟨hp.2, hp⟩
  restrict hp hinsertable hupdatable := ⟨hQ.restrict hp.1 hinsertable hupdatable, hp.2⟩
  simple _ := Value.bears_of_single rfl rfl
  suits_simple _ _ := Value.bears_of_single rfl rfl
  component hc := hc
  suits_component _ _ _ hmembers := Value.bears_component_iff.mpr fun p hp => by
    obtain ⟨_, _, hbound⟩ := hmembers p hp
    exact hbound
  component_congr hc hproperties _ := Value.bears_component_iff.mpr
    (hproperties ▸ Value.bears_component_iff.mp hc)
  shadow hc := ⟨hQ.shadow _, hc⟩
  bindProperty _ _ hv _ hp := hQ.bears_of_bindProperty hv hp
  createProperty _ hv className := hQ.bears_createProperty hv className _
  bindCollection _ _ _ owner := bears_bindCollection _ _ _ _ owner
  bindOneToOne _ _ _ _ := (bears_steady (steady_bindOneToOne _ _ _ _)).mono
    fun _ _ _ _ => Value.bears_of_single rfl rfl
  bindSimpleMember _ _ _ _ := bears_yields (steady_bindSimpleMember _ _ _ _).quiet
    (yields_bindSimpleMember_bears _ _ _ _)
  bindDependantKey _ := bears_bindDependantKey
  entity_congr _ _ _ := trivial
  header _ _ _ := trivial
  steady h hr := Registry.Bears.of_alike hr h.quietWrite.alike
  addDenormalizedTable hadd hr := by
    cases eq_of_addDenormalizedTable hadd
    exact Registry.Bears.of_same hr rfl rfl
  addEntity he hadd hr := Registry.Bears.addEntity hr he.stores hadd
  modifyEntity name _ hf hr := Registry.Bears.modifyEntity hr name fun e hname he =>
    ⟨(hf e ⟨hname, trivial, he⟩).name, (hf e ⟨hname, trivial, he⟩).stores⟩

/-- What has a trait, of collections and their contents. -/
def bearingContents (Q : Property → Prop) : (bearingStock Q).Contents where
  collection _ c := c.Bears Q
  content _ _ v := v.Bears Q
  owner _ _ := True

/-- Whatever a pass binds for a collection has the trait. -/
theorem kept_bearingContents (hQ : Property.Trait Q) : (bearingContents Q).Kept where
  toKept := kept_bearingStock hQ
  collection_later _ hc := hc
  content_later _ hv := hv
  owner_later _ _ := trivial
  registered {_ role c} hr hfound := hr.collections role c hfound
  update hc _ _ _ _ _ hvalues _ := fun w hw => (hvalues w hw).elim id (hc w)
  content_simple _ := Value.bears_of_single rfl rfl
  content_any _ := Value.bears_of_single rfl rfl
  content_oneToMany _ := Value.bears_of_single rfl rfl
  content_component hc := hc
  find := bears_find
  bindCollectionKey _ := bears_bindCollectionKey
  bindManyToOne _ _ _ _ _ := (bears_steady (steady_bindManyToOne _ _ _)).mono
    fun _ _ _ _ => Value.bears_of_single rfl rfl
  referTo _ _ := .modify fun hr =>
    ⟨Registry.Bears.of_alike hr (quietWrites_referTo _ _).alike, Value.bears_of_single rfl rfl⟩
  queuePropertyRef v hr := by
    unfold Registry.queuePropertyRef
    split
    · split <;> exact Registry.Bears.of_same hr rfl rfl
    · exact .refl hr
  constrainValue _ hr := Registry.Bears.of_alike hr (quietWrites_constrainValue _ _).alike
  constrainContents _ _ hr := Registry.Bears.of_alike hr (quietWrites_constrainContents _ _ _).alike
  addBackref hc node kind := hQ.bears_addBackref hc node kind
  store hc hr := Registry.Bears.replaceCollection hr hc
  bindPropertyRef pass := bears_quiet (quiet_bindPropertyRef pass)

/-! ## Sessions -/

namespace Session

/-- Documents, passes and references keep a trait. -/
theorem upkept_bearing (hQ : Property.Trait Q) : Upkept (bearing Q) fun _ => True where
  waiting _ _ _ := trivial
  setWaiting hr _ := Registry.Bears.of_same hr rfl rfl
  upholds_bindRoot metas _ := (kept_bearingStock hQ).walked.upholds_bindRoot metas
    (fun _ _ => trivial)
    (.of_writes _ fun hwrite hr => by cases hwrite <;> exact Registry.Bears.of_same hr rfl rfl)
  nextPass {r rest pass} hr hnext := by
    obtain ⟨passes, -, rfl⟩ := nextPass?_eq_some_iff.mp hnext
    have htaken : (bearing Q).Advances r { r with passes } := Registry.Bears.of_same hr rfl rfl
    have hpass : Upholds (bearing Q) pass.run { r with passes } fun _ _ => True :=
      (kept_bearingContents hQ).run fun _ _ _ => trivial
    exact htaken.trans (hpass.advances htaken.invariant)
  applyPropertyReferences hr happlied :=
    .of_steps (fun hmark hr => Registry.Bears.mark hr hQ hmark)
      (marks_of_applyPropertyReferences happlied).1 hr

/-- A trait is had by all properties, at any depth, of every registry that a session is driven
to. -/
theorem bears_of_driven (hQ : Property.Trait Q) {options : RegistryOptions}
    {documents : Document → Prop} (hr : Driven options documents r) :
    (∀ name e, r.entity? name = some e → ∀ p ∈ e.propertiesWithin, Q p) ∧
      ∀ role c, r.collection? role = some c → ∀ p ∈ c.propertiesWithin, Q p := by
  have hempty : Registry.Bears Q { options } :=
    ⟨fun _ e he => absurd he.symm (Option.some_ne_none e),
      fun _ e he => absurd he.symm (Option.some_ne_none e),
      fun _ c hc => absurd hc.symm (Option.some_ne_none c)⟩
  have hbears := ((upkept_bearing hQ).advances_of_any hempty hr).invariant
  exact ⟨fun name e he => (hbears.entities name e he).forall_within,
    fun role c hc => (hbears.collections role c hc).forall_within⟩

end Session

end ObjectMapping
