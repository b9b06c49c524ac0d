import ObjectMapping.Proofs.Stores
import ObjectMapping.Proofs.TableWrites

/-!
# Writes to entities, collections and queues

A registry advances when a grounded entity, collection, pass or document is added to it, when an
entity is changed into one that is grounded and keeps its superclass and its columns, and when
something is written that has to do with neither tables nor values.
-/

namespace ObjectMapping

open Registry

/-! ## Changed entities -/

section

variable {S : Source} {r r' : Registry} {e : Entity}

/-- An entity advances if it keeps its table, superclass and columns and is grounded afterwards. -/
structure Entity.Advances (S : Source) (r : Registry) (e e' : Entity) : Prop where
  included : e.IncludedIn e'
  grounded : e'.Grounded S r

namespace Entity.Grounded

theorem addProperty (h : e.Grounded S r) {p : Property} (hp : p.Grounded S r) :
    e.Advances S r (e.addProperty p) := by
  have hnatural : e.naturalColumns ⊆ (e.addProperty p).naturalColumns :=
    fun _ hin => Entity.mem_naturalColumns_addProperty.mpr (.inl hin)
  refine ⟨⟨rfl, rfl, rfl, e.spans_subset_addProperty p, hnatural⟩, h.table, ?_, h.joins, h.kind⟩
  intro q hq
  rcases List.mem_append.mp hq with hold | hnew
  · exact h.properties q hold
  · exact List.mem_singleton.mp hnew ▸ hp

theorem addJoin (h : e.Grounded S r) {j : Join} (hj : j.Grounded S r) :
    e.Advances S r { e with joins := e.joins ++ [j] } := by
  refine ⟨⟨rfl, rfl, rfl, e.spans_subset_addJoin j, fun _ hin => hin⟩, h.table, h.properties, ?_,
    h.kind⟩
  intro i hi
  rcases List.mem_append.mp hi with hold | hnew
  · exact h.joins i hold
  · exact List.mem_singleton.mp hnew ▸ hj

/-- The values of a root may be replaced by grounded ones. -/
theorem modifyRoot (h : e.Grounded S r) {f : RootData → RootData}
    (hf : ∀ data, e.root? = some data → ∀ v ∈ (f data).values, v.Grounded S r) :
    (e.modifyRoot f).Grounded S r := by
  refine ⟨h.table, h.properties, h.joins, ?_⟩
  obtain ⟨_, _, _, _, kind, _⟩ := e
  cases kind with
  | root data => exact hf data rfl
  | subclass | joinedSubclass | unionSubclass => exact h.kind

/-- Data of a root that store no values may be changed. -/
theorem modifyRoot_of_same (h : e.Grounded S r) {f : RootData → RootData}
    (hidentifier : ∀ data, (f data).identifier = data.identifier)
    (hvalues : ∀ data, (f data).values = data.values) : e.Advances S r (e.modifyRoot f) := by
  refine ⟨⟨rfl, rfl, ?_, ?_, fun _ hin => hin⟩, h.modifyRoot fun data hdata => ?_⟩
  · obtain ⟨_, _, _, _, kind, _⟩ := e
    cases kind <;> rfl
  · have hproperty : (e.modifyRoot f).identifierProperty? = e.identifierProperty? := by
      obtain ⟨_, _, _, _, kind, _⟩ := e
      cases kind with
      | root data =>
        exact congrArg (Option.bind · IdentifierBinding.property?) (hidentifier data)
      | subclass | joinedSubclass | unionSubclass => rfl
    rw [Entity.spans, Entity.spans, hproperty]
    exact fun _ hspan => hspan
  · rw [hvalues]
    obtain ⟨_, _, _, _, kind, _⟩ := e
    cases kind with
    | root data => cases hdata; exact h.kind
    | subclass | joinedSubclass | unionSubclass => cases hdata

end Entity.Grounded

/-! ## Marked properties -/

/-- A change below a property keeps it grounded if the change of the innermost one does. -/
theorem Property.modifyAt_grounded {f : Property → Property}
    (hvalue : ∀ p, p.value.Grounded S r → (f p).value.Grounded S r)
    (hsecured : ∀ p, p.value.Secured r → (f p).value.Secured r) (members : List Nat)
    (p : Property) :
    (p.value.Grounded S r → (p.modifyAt f members).value.Grounded S r) ∧
      (p.value.Secured r → (p.modifyAt f members).value.Secured r) := by
  induction members generalizing p with
  | nil => exact ⟨hvalue p, hsecured p⟩
  | cons index rest ih =>
    unfold Property.modifyAt
    split
    · next c hc =>
      refine ⟨fun hp => ?_, fun _ => trivial⟩
      rw [hc, Value.grounded_component_iff] at hp
      refine Value.grounded_component_iff.mpr ⟨hp.1, ?_⟩
      exact forall_mem_modify (fun q hq => ⟨(ih q).1 hq.1, (ih q).2 hq.2⟩) hp.2 index
    · exact ⟨id, id⟩

/-- Marking a property as an alternate key keeps its value grounded. -/
theorem Registry.grounded_markAlternateKey (p : Property) (h : p.value.Grounded S r) :
    (markAlternateKey p).value.Grounded S r := by
  obtain ⟨name, nodeName, value, _⟩ := p
  have hself : value.Rooted S r := h value value.mem_parts_self
  cases value with
  | component | collection | oneToMany => exact h
  | dependant base wrapped nullable updatable =>
    have hwrapped : wrapped.Grounded S r :=
      fun part hpart => h part (List.mem_cons_of_mem _ hpart)
    have hmarked : SimpleValue.GroundedTo S r { base with alternateUniqueKey := true } none := hself
    exact Value.grounded_dependant hmarked hwrapped nullable updatable
  | simple | any | oneToOne => exact Value.grounded_of_rooted rfl hself
  | manyToOne v => exact Value.grounded_of_rooted rfl ⟨hself.base, hself.nonempty⟩

/-- Marking a property as an alternate key keeps its value secured. -/
theorem Registry.secured_markAlternateKey (p : Property) (h : p.value.Secured r) :
    (markAlternateKey p).value.Secured r := by
  obtain ⟨name, nodeName, value, _⟩ := p
  cases value <;> exact h

/-- Changing a property keeps an entity grounded if it keeps properties so. -/
theorem Entity.Grounded.modifySlot (h : e.Grounded S r) (slot : PropertySlot)
    {f : Property → Property} (hvalue : ∀ p, p.value.Grounded S r → (f p).value.Grounded S r)
    (hsecured : ∀ p, p.value.Secured r → (f p).value.Secured r) :
    (e.modifySlot f slot).Grounded S r := by
  have hf : ∀ p : Property, p.Grounded S r → (f p).Grounded S r :=
    fun p hp => ⟨hvalue p hp.1, hsecured p hp.2⟩
  cases slot with
  | own index => exact ⟨h.table, forall_mem_modify hf h.properties index, h.joins, h.kind⟩
  | joined join index =>
    refine ⟨h.table, h.properties, forall_mem_modify (fun j hj => ?_) h.joins join, h.kind⟩
    exact ⟨hj.table, hj.key, forall_mem_modify hf hj.properties index⟩
  | identifier =>
    refine h.modifyRoot fun data hdata v hv => ?_
    have hold : ∀ v ∈ data.values, v.Grounded S r := by
      obtain ⟨_, _, _, _, kind, _⟩ := e
      cases kind with
      | root data => cases hdata; exact h.kind
      | subclass | joinedSubclass | unionSubclass => cases hdata
    simp only [RootData.values, RootData.identifierValue?, List.mem_append, Option.mem_toList,
      Option.map_map] at hv hold
    rcases hv with (hidentifier | hmapper) | hdiscriminator
    · obtain ⟨binding, hbinding, rfl⟩ := Option.map_eq_some_iff.mp hidentifier
      have hbound := hold binding.value (.inl (.inl (by rw [hbinding]; rfl)))
      cases binding with
      | named p => exact hvalue p hbound
      | unnamed v => exact hbound
    · exact hold v (.inl (.inr hmapper))
    · exact hold v (.inr hdiscriminator)

/-- Changing a property that keeps its spans keeps the spans of the entity. -/
theorem Entity.spans_modifySlot (e : Entity) (slot : PropertySlot) {f : Property → Property}
    (hf : ∀ p, (f p).spans = p.spans) : (e.modifySlot f slot).spans = e.spans := by
  have hmap : ∀ (i : Nat) (ps : List Property),
      (ps.modify i f).map Property.spans = ps.map Property.spans :=
    fun i ps => map_modify_of_eq Property.spans hf ps i
  cases slot with
  | own index =>
    simp only [Entity.modifySlot, Entity.spans, Entity.allProperties, Entity.identifierProperty?,
      Entity.root?, List.flatMap_append]
    rw [List.flatMap_def, hmap, ← List.flatMap_def]
  | joined join index =>
    have hjoin : ∀ j : Join, ({ j with properties := j.properties.modify index f } : Join
        ).properties.flatMap Property.spans = j.properties.flatMap Property.spans := by
      intro j
      rw [List.flatMap_def, hmap, ← List.flatMap_def]
    simp only [Entity.modifySlot, Entity.spans, Entity.allProperties, Entity.identifierProperty?,
      Entity.root?, List.flatMap_append, List.flatMap_assoc]
    rw [List.flatMap_def (f := fun j : Join => j.properties.flatMap Property.spans),
      map_modify_of_eq (fun j : Join => j.properties.flatMap Property.spans) hjoin,
      ← List.flatMap_def]
  | identifier =>
    have hidentifier : ((e.modifySlot f .identifier).identifierProperty?).map Property.spans
        = e.identifierProperty?.map Property.spans := by
      obtain ⟨_, _, _, _, kind, _⟩ := e
      cases kind with
      | root data =>
        obtain ⟨identifier, _⟩ := data
        rcases identifier with _ | (p | v)
        · rfl
        · exact congrArg some (hf p)
        · rfl
      | subclass | joinedSubclass | unionSubclass => rfl
    have hspans : ∀ o : Option Property,
        o.toList.flatMap Property.spans = ((o.map Property.spans).toList).flatten := by
      intro o
      cases o <;> simp
    simp only [Entity.spans, List.flatMap_append, hspans, hidentifier]
    rfl

/-- Changing a property that keeps its flag and its columns keeps the columns of the natural
identifier. -/
theorem Entity.naturalColumns_modifySlot (e : Entity) (slot : PropertySlot)
    {f : Property → Property} (hflag : ∀ p, (f p).naturalIdentifier = p.naturalIdentifier)
    (hcolumns : ∀ p, (f p).value.columnNames = p.value.columnNames) :
    (e.modifySlot f slot).naturalColumns = e.naturalColumns := by
  rw [Entity.naturalColumns, Entity.naturalColumns, List.flatMap_def, List.flatMap_def,
    e.map_naturalIdProperties_modifySlot _ slot hflag hcolumns]

end

/-! ## Writes to a registry -/

namespace Registry

variable {S : Source} {r r' : Registry}

/-- Registries with the same tables, entities, collections and queues, whose names are derived
alike. -/
structure Same (r r' : Registry) : Prop where
  options : r'.options = r.options
  tables : r'.tables = r.tables
  alike : Alike r r'

theorem Same.refl (r : Registry) : Same r r := ⟨rfl, rfl, .refl r⟩

/-- A registry advances if one of its entities does. -/
theorem Grounded.modifyEntity (hr : r.Grounded S) {name : String} {f : Entity → Entity}
    (h : ∀ e, r.entity? name = some e → e.Advances S r (f e)) :
    r.Advances S (r.modifyEntity name f) := by
  have hincluded : r.IncludedIn (r.modifyEntity name f) := by
    refine ⟨rfl, fun {_ t} ht => ⟨t, ht, .refl t⟩, ?_⟩
    intro name' e he
    refine ⟨_, by rw [entity?_modifyEntity, he]; rfl, ?_⟩
    split
    · next heq => exact (h e (heq ▸ he)).included
    · exact .refl e
  refine hr.grow hincluded hr.keyed (fun _ _ => .inl) (fun name' e' he' => ?_) (fun _ _ => .inl)
    (fun _ => .inl) fun _ => .inl
  rw [entity?_modifyEntity] at he'
  obtain ⟨e, he, rfl⟩ := Option.map_eq_some_iff.mp he'
  split
  · next heq =>
    have hadvances := h e (heq ▸ he)
    exact .inr ⟨hadvances.included.name.trans (hr.named name' e he),
      hadvances.grounded.mono hincluded⟩
  · exact .inl he

/-- A grounded entity may be registered, and is then found. -/
theorem Grounded.addEntity (hr : r.Grounded S) {e : Entity} (he : e.Grounded S r)
    (h : r.addEntity e = .ok r') : r.Advances S r' := by
  have hkept : ∀ {name e₀}, r.entity? name = some e₀ → ∃ e', r'.entity? name = some e' ∧
      e₀.IncludedIn e' := fun {_ e₀} he₀ => ⟨e₀, entity?_of_addEntity_of_some h he₀, .refl e₀⟩
  obtain ⟨-, rfl⟩ := addEntity_eq_ok.mp h
  have hincluded : r.IncludedIn { r with entities := r.entities.insert e.name e } :=
    ⟨rfl, fun {_ t} ht => ⟨t, ht, .refl t⟩, hkept⟩
  refine hr.grow hincluded hr.keyed (fun _ _ => .inl) (fun name e' he' => ?_) (fun _ _ => .inl)
    (fun _ => .inl) fun _ => .inl
  rcases eq_or_of_entity?_addEntity h he' with ⟨rfl, rfl⟩ | hold
  · exact .inr ⟨rfl, he.mono hincluded⟩
  · exact .inl hold

/-- Tables and entities that are the same are kept. -/
theorem includedIn_of_same (hoptions : r'.options = r.options) (htables : r'.tables = r.tables)
    (hentities : r'.entities = r.entities) : r.IncludedIn r' := by
  refine ⟨by rw [Registry.naming, Registry.naming, hoptions], ?_, ?_⟩
  · intro id t ht
    exact ⟨t, by rwa [table?, htables], .refl t⟩
  · intro name e he
    exact ⟨e, by rwa [entity?, hentities], .refl e⟩

/-- Collections may be replaced by grounded ones, and passes and documents be queued. -/
theorem Grounded.of_queues (hr : r.Grounded S) (hoptions : r'.options = r.options)
    (htables : r'.tables = r.tables) (hentities : r'.entities = r.entities)
    (hcollections : ∀ role c, r'.collection? role = some c →
      r.collection? role = some c ∨ c.Grounded S r)
    (hpasses : ∀ pass ∈ r'.passes, pass ∈ r.passes ∨ pass.Grounded S r)
    (hwaiting : ∀ pending ∈ r'.waiting, pending ∈ r.waiting ∨ S.documents pending.document) :
    r.Advances S r' := by
  have hincluded := includedIn_of_same hoptions htables hentities
  refine hr.grow hincluded ?_ ?_ ?_ ?_ ?_ hwaiting
  · intro i key t ht
    rw [htables] at ht
    exact hr.keyed i key t ht
  · intro id t ht
    rw [table?, htables] at ht
    exact .inl ht
  · intro name e he
    rw [entity?, hentities] at he
    exact .inl he
  · exact fun role c hc => (hcollections role c hc).imp_right fun hnew => hnew.mono hincluded
  · exact fun pass hpass => (hpasses pass hpass).imp_right fun hnew => hnew.mono hincluded

/-- What has to do with neither tables nor values may be written. -/
theorem Same.advances (h : Same r r') (hr : r.Grounded S) : r.Advances S r' := by
  refine hr.of_queues h.options h.tables h.alike.entities ?_ ?_ ?_
  · intro role c hc
    rw [collection?, h.alike.collections] at hc
    exact .inl hc
  · exact h.alike.passes ▸ fun _ => .inl
  · exact h.alike.waiting ▸ fun _ => .inl

/-- A grounded collection may be registered. -/
theorem Grounded.addCollection (hr : r.Grounded S) {c : Collection} (hc : c.Grounded S r)
    (h : r.addCollection c = .ok r') : r.Advances S r' := by
  obtain ⟨-, rfl⟩ := addCollection_eq_ok.mp h
  refine hr.of_queues rfl rfl rfl (fun role c' hc' => ?_) (fun _ => .inl) fun _ => .inl
  rcases eq_or_of_collection?_addCollection h hc' with ⟨-, rfl⟩ | hold
  · exact .inr hc
  · exact .inl hold

/-- A collection may be replaced by a grounded one. -/
theorem Grounded.replaceCollection (hr : r.Grounded S) {c : Collection} (hc : c.Grounded S r)
    (role : String) : r.Advances S (r.modifyCollection role fun _ => c) := by
  refine hr.of_queues rfl rfl rfl (fun role' c' hc' => ?_) (fun _ => .inl) fun _ => .inl
  rcases eq_or_of_collection?_replaced hc' with ⟨-, rfl⟩ | hold
  · exact .inr hc
  · exact .inl hold

/-- A grounded pass may be queued. -/
theorem Grounded.addPass (hr : r.Grounded S) {pass : DeferredPass} (hpass : pass.Grounded S r) :
    r.Advances S (r.addPass pass) := by
  refine hr.of_queues rfl rfl rfl (fun _ _ => .inl) (fun pass' hpass' => ?_) fun _ => .inl
  rcases List.mem_append.mp hpass' with hold | hnew
  · exact .inl hold
  · cases List.mem_singleton.mp hnew
    exact .inr hpass

/-- The pass that is taken off the queue is grounded. -/
theorem Grounded.nextPass (hr : r.Grounded S) {pass : DeferredPass}
    (h : r.nextPass? = some (pass, r')) : r.Advances S r' ∧ pass.Grounded S r' := by
  obtain ⟨passes, hpasses, rfl⟩ := nextPass?_eq_some_iff.mp h
  have hadvances : r.Advances S { r with passes } :=
    hr.of_queues rfl rfl rfl (fun _ _ => .inl)
      (fun other hother => .inl (hpasses ▸ List.mem_cons_of_mem pass hother)) fun _ => .inl
  exact ⟨hadvances, (hr.passes pass (hpasses ▸ List.mem_cons_self)).mono hadvances.included⟩

/-- The queue of waiting documents may be changed for another queue of documents. -/
theorem Grounded.setWaiting (hr : r.Grounded S) {waiting : List PendingDocument}
    (h : ∀ pending ∈ waiting, S.documents pending.document) :
    r.Advances S { r with waiting } :=
  hr.of_queues rfl rfl rfl (fun _ _ => .inl) (fun _ => .inl) fun pending hpending =>
    .inr (h pending hpending)

/-- A registry stays grounded if a property is marked. -/
theorem Grounded.mark (hr : r.Grounded S) (h : Mark r r') : r.Advances S r' := by
  cases h with
  | property place =>
    refine hr.modifyEntity fun e he => ?_
    set change : Property → Property := (·.modifyAt markAlternateKey place.members)
    have hsame := Property.spans_modifyAt spans_markAlternateKey place.members
    have hspans := e.spans_modifySlot place.slot (f := change) hsame
    have hnatural := e.naturalColumns_modifySlot place.slot (f := change)
      (fun p => Property.naturalIdentifier_modifyAt (f := markAlternateKey) (fun _ => rfl) p
        place.members)
      fun p => Property.columnNames_eq_of_spans (hsame p)
    have hchange := Property.modifyAt_grounded (S := S) (r := r) grounded_markAlternateKey
      secured_markAlternateKey place.members
    have hgrounded := (hr.entities place.entity e he).modifySlot (f := change) place.slot
      (fun p => (hchange p).1) (fun p => (hchange p).2)
    have hskeleton := e.skeleton_modifySlot place.slot (f := change)
      fun p => Property.name_modifyAt (f := markAlternateKey) (fun _ => rfl) p place.members
    exact ⟨⟨congrArg EntitySkeleton.name hskeleton, e.table_modifySlot _ _,
      congrArg EntitySkeleton.superclass hskeleton, hspans ▸ fun _ hspan => hspan,
      hnatural ▸ fun _ hin => hin⟩, hgrounded⟩

/-- Applying all recorded references marks properties at most. -/
theorem Grounded.applyPropertyReferences (hr : r.Grounded S)
    (h : r.applyPropertyReferences = .ok r') : r.Advances S r' := by
  obtain ⟨hmarks, -⟩ := marks_of_applyPropertyReferences h
  clear h
  induction hmarks with
  | refl => exact hr.advances
  | tail _ hmark ih => exact ih.trans (ih.grounded.mark hmark)

end Registry

end ObjectMapping
