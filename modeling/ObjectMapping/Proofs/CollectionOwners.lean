import ObjectMapping.Proofs.CollectionRoles
import ObjectMapping.Proofs.ContentsBinding
import ObjectMapping.Proofs.Driven
import ObjectMapping.Proofs.Enlistment
import ObjectMapping.Proofs.StockingContents
import ObjectMapping.Proofs.Writes

/-!
# Owners of collections

A collection is registered for the owner of the place where it is declared, before the property that
refers to it is there, and sometimes before the owner itself is registered.  Components hand the
owner down to their members, and a deferred pass binds components for the owner of its collection.
So in every registry that a session gets to, the collections that a property of an entity refers to
are registered as collections of that entity, and those that the contents of a collection refer to
have its owner.
-/

namespace ObjectMapping

open Binding Registry

variable {r : Registry} {scope : Scope} {node : Element}

/-! ## Quiet computations -/

/-- A quiet computation keeps collections owned, and yields what it yields. -/
theorem owns_yields {α : Type} {m : Binding α} (hm : m.Quiet) {P : α → Prop}
    (hyields : Yields m P) : Upholds owning m r fun a _ => P a :=
  .of_makes hm hyields fun _ _ hwrite hr => Registry.Owned.of_alike hr hwrite.alike

theorem owns_quiet {α : Type} {m : Binding α} (hm : m.Quiet) :
    Upholds owning m r fun _ _ => True :=
  owns_yields hm (P := fun _ => True) fun _ _ _ _ => trivial

theorem owns_steady {α : Type} {m : Binding α} (hm : m.Steady) :
    Upholds owning m r fun _ _ => True := owns_quiet hm.quiet

/-! ## Properties -/

/-- Recording references may queue a foreign key, and changes neither entities nor collections. -/
theorem stored_recordReferences (r : Registry) (owner : String) (isManyToMany : Bool) (v : Value) :
    (r.recordReferences owner isManyToMany v).entities = r.entities ∧
      (r.recordReferences owner isManyToMany v).collections = r.collections := by
  obtain ⟨_, _, heq⟩ := r.recordReferences_eq owner isManyToMany v
  rw [heq]
  exact ⟨rfl, rfl⟩

/-- The property of a value that belongs to an entity is no backref, and has a value that belongs to
it as well. -/
theorem owns_createProperty {owner : String} {value : Value} (hvalue : value.BelongsTo r owner)
    (className : Option String) : Upholds owning (createProperty scope node value className owner) r
      fun p r' => p.backref = none ∧ p.value.BelongsTo r' owner := by
  have hfinish : ∀ (known : Value) (name : String), known.roles = value.roles →
      Upholds owning (do
        modify (·.recordReferences owner (node.tag? = some .manyToMany) known)
        modify (·.constrainValue known)
        Binding.ofExcept (bindProperty scope node known name)) r
          fun p r' => p.backref = none ∧ p.value.BelongsTo r' owner := by
    intro known name hroles
    refine .bind (.write fun hr => ?_) fun _ r₁ hkeeps _ => ?_
    · obtain ⟨hentities, hcollections⟩ := stored_recordReferences r owner _ known
      exact Registry.Owned.of_same hr hentities hcollections
    refine .bind (.write fun hr => Registry.Owned.of_alike hr
      (quietWrites_constrainValue r₁ known).alike) fun _ r₂ hkeeps' _ => .ofExcept fun p hp => ?_
    have hbound := boundAs_of_bindProperty hp
    obtain rfl := hbound.value
    exact ⟨hbound.backref, (((hvalue.congr hroles).later hkeeps).later hkeeps')⟩
  unfold createProperty
  refine .ofExcept_bind fun name _ => .get_bind ?_
  cases className with
  | none => exact hfinish value name rfl
  | some className => exact hfinish _ name (Value.roles_reflected _ className name value)

/-! ## Values -/

/-- A simple member refers to no collection. -/
theorem yields_bindSimpleMember_roles (scope : Scope) (site : ColumnSite) (node : Element)
    (tag : Tag) : Yields (bindSimpleMember scope site node tag)
      fun o => ∀ v, o = some v → v.roles = [] := by
  cases tag with
  | manyToOne | any | property => exact .next fun v => .pure fun _ hv => Option.some.inj hv ▸ rfl
  | _ => exact .pure fun _ hnone => absurd hnone.symm (Option.some_ne_none _)

/-- A dependent key refers to no collection. -/
theorem yields_bindDependantKey_roles (table : TableId) (referenced path : String)
    (node : Element) : Yields (bindDependantKey table referenced path node) (·.roles = []) :=
  .next fun _ => .next fun _ => .next fun _ => .next fun _ => .next fun _ => .pure rfl

/-- Neither does the key of a collection. -/
theorem yields_bindCollectionKey_roles (c : Collection) (owner : Owner) (node : Element) :
    Yields (bindCollectionKey c owner node) (·.roles = []) := by
  unfold bindCollectionKey
  refine .next fun _ => .next fun _ => .next fun _ => ?_
  exact .ite (fun _ => .pure rfl) fun _ => .next fun _ => .pure rfl

/-- A collection that is registered belongs to its owner, and so does the value that refers to
it. -/
theorem owns_bindCollection (scope : Scope) (node : Element) (kind : CollectionKind)
    (role : String) (owner : Owner) :
    Upholds owning (bindCollection scope node kind role owner) r
      fun v r' => v.BelongsTo r' owner.name := by
  unfold bindCollection
  refine .ofExcept_bind fun batchSize _ => .optional (fun _ => ?_) fun r₁ _ => ?_
  · exact .write fun hr => Registry.Owned.modifyEntity hr _ fun e hname he =>
      ⟨hname, he.properties, he.keys, he.kind, he.identifier⟩
  · refine .bind (owns_yields (steady_openElement scope node role owner).quiet
      (yields_openElement scope node role owner)) fun ⟨element, table⟩ r₂ _ helement => ?_
    refine .bind (owns_steady (.mapM steady_bindFilterUse _)) fun filters r₃ _ _ => ?_
    split
    refine .bind (P := fun _ r' => r'.HasCollection owner.name role) (.register fun r₄ hr hadd =>
      Registry.Owned.addCollection hr ?_ hadd) fun _ r₄ _ hregistered => ?_
    · intro v hv
      rcases Collection.mem_values.mp hv with h | h | h | h
      · cases h
      · obtain ⟨target, rfl⟩ := helement v h
        exact Value.belongsTo_of_roles rfl
      · cases h
      · cases h
    · refine .bind (.write fun hr => Registry.Owned.of_same hr rfl rfl)
        fun _ r₅ hkeeps _ => .pure ?_
      exact Value.belongsTo_collection (hkeeps hregistered)

/-! ## Entities -/

/-- What belongs to entities. -/
def owningStock : Stock where
  upkeep := owning
  reads _ _ := True
  value := Value.BelongsTo
  property := Property.BelongsTo
  suits r owner _ _ v := v.BelongsTo r owner
  bound r owner _ _ p := p.backref = none ∧ p.value.BelongsTo r owner
  entity _ := True

/-- Whatever is bound for an entity belongs to it. -/
theorem kept_owningStock : owningStock.Kept where
  child _ _ := trivial
  descend _ _ := trivial
  member _ _ _ := trivial
  value_later hkeeps hv := Value.BelongsTo.later hkeeps hv
  property_later hkeeps hp := Property.BelongsTo.later hkeeps hp
  suits_later hkeeps hv := Value.BelongsTo.later hkeeps hv
  bound_later hkeeps hp := hp.imp_right (Value.BelongsTo.later hkeeps)
  stored _ hp := ⟨hp.2, Property.belongsTo_of_plain hp.1 hp.2⟩
  restrict hp _ _ := hp
  simple _ := Value.belongsTo_of_roles rfl
  suits_simple _ _ := Value.belongsTo_of_roles rfl
  component hc := hc
  suits_component _ _ _ hmembers := Value.belongsTo_component_iff.mpr fun p hp => by
    obtain ⟨_, _, hbound⟩ := hmembers p hp
    exact hbound.2
  component_congr hc hproperties _ := Value.belongsTo_component_iff.mpr
    (hproperties ▸ Value.belongsTo_component_iff.mp hc)
  shadow hc := Property.belongsTo_of_plain rfl hc
  bindProperty _ _ hv _ hp := by
    have hbound := boundAs_of_bindProperty hp
    obtain rfl := hbound.value
    exact ⟨hbound.backref, hv⟩
  createProperty _ hv className := owns_createProperty hv className
  bindCollection _ _ _ owner := owns_bindCollection _ _ _ _ owner
  bindOneToOne _ _ _ _ := (owns_steady (steady_bindOneToOne _ _ _ _)).mono
    fun _ _ _ _ => Value.belongsTo_of_roles rfl
  bindSimpleMember _ _ _ _ := (owns_yields (steady_bindSimpleMember _ _ _ _).quiet
    (yields_bindSimpleMember_roles _ _ _ _)).mono
      fun _ _ _ hroles v hv => Value.belongsTo_of_roles (hroles v hv)
  bindDependantKey _ _ _ _ _ := (owns_yields (quiet_bindDependantKey _ _ _ _)
    (yields_bindDependantKey_roles _ _ _ _)).mono fun _ _ _ hv => Value.belongsTo_of_roles hv
  entity_congr _ _ _ := trivial
  header _ _ _ := trivial
  steady h hr := Registry.Owned.of_alike hr h.quietWrite.alike
  addDenormalizedTable hadd hr := by
    cases eq_of_addDenormalizedTable hadd
    exact Registry.Owned.of_same hr rfl rfl
  addEntity he hadd hr := Registry.Owned.addEntity hr (he.name ▸ he.stores) hadd
  modifyEntity name _ hf hr := Registry.Owned.modifyEntity hr name fun e hname he =>
    ⟨(hf e ⟨hname, trivial, he⟩).name, (hf e ⟨hname, trivial, he⟩).stores⟩

/-! ## Contents -/

/-- An owner that is found is the entity of that name. -/
theorem owns_find (name : String) :
    Upholds owning (Owner.find name) r fun owner _ => owner.name = name ∧ True := by
  unfold Owner.find
  refine .of_invariant fun hr => .get_bind (.require _ fun owner hfound => ?_)
  obtain ⟨e, he, rfl⟩ := Option.map_eq_some_iff.mp hfound
  exact ⟨(hr.entities name e he).1, trivial⟩

/-- A backref names the owner of its collection. -/
theorem Collection.owner_of_backref? {c : Collection} {kind : BackrefKind} {target : String}
    {p : Property} (h : c.backref? node kind = some (target, p)) (entity : String) :
    p.owner entity = c.ownerEntity := by
  unfold Collection.backref? at h
  split at h
  · split at h
    · cases h
    · obtain ⟨shown, -, hmade⟩ := Option.map_eq_some_iff.mp h
      cases hmade
      rfl
  · cases h

/-- A backref shows a value that belongs to the owner of its collection. -/
theorem owns_addBackref {c : Collection} (hc : c.Consistent r) (node : Element)
    (kind : BackrefKind) : Upholds owning (addBackref node c kind) r fun _ _ => True := by
  unfold addBackref
  split
  · exact .pure trivial
  · next target p hshown =>
    have hvalue := hc p.value <| Collection.mem_values.mpr <|
      (Collection.shows_of_backref? hshown).imp_right fun hindex => .inr (.inl hindex)
    have hp : p.BelongsTo r target := by
      rw [Property.BelongsTo, Collection.owner_of_backref? hshown]
      exact hvalue
    refine .get_bind (.ite (fun _ => ?_) fun _ => .throw _)
    exact .write fun hr => Registry.Owned.modifyEntity hr target fun e hname he =>
      ⟨hname, he.addProperty hp⟩

/-- What belongs to the owners of collections.  The collection that a pass works on has the owner
of the registered one. -/
def owningContents : owningStock.Contents where
  collection r c := r.HasCollection c.ownerEntity c.role ∧ c.Consistent r
  content := Value.BelongsTo
  owner _ _ := True

/-- Whatever a pass binds for a collection belongs to its owner. -/
theorem kept_owningContents : owningContents.Kept where
  toKept := kept_owningStock
  collection_later hkeeps hc := ⟨hkeeps hc.1, Collection.Consistent.later hkeeps hc.2⟩
  content_later hkeeps hv := Value.BelongsTo.later hkeeps hv
  owner_later _ _ := trivial
  registered {_ role c} hr hfound := by
    obtain ⟨hrole, hc⟩ := hr.collections role c hfound
    exact ⟨⟨c, hrole ▸ hfound, rfl⟩, hc⟩
  update hc hrole howner _ _ _ hvalues _ := by
    refine ⟨hrole ▸ howner ▸ hc.1, fun w hw => ?_⟩
    rw [howner]
    exact (hvalues w hw).elim id (hc.2 w)
  content_simple _ := Value.belongsTo_of_roles rfl
  content_any _ := Value.belongsTo_of_roles rfl
  content_oneToMany _ := Value.belongsTo_of_roles rfl
  content_component hc := hc
  find := owns_find
  bindCollectionKey _ c o node := (owns_yields (steady_bindCollectionKey c o node).quiet
    (yields_bindCollectionKey_roles c o node)).mono fun _ _ _ hv => Value.belongsTo_of_roles hv
  bindManyToOne _ _ _ _ _ := (owns_steady (steady_bindManyToOne _ _ _)).mono
    fun _ _ _ _ => Value.belongsTo_of_roles rfl
  referTo _ _ := .modify fun hr =>
    ⟨Registry.Owned.of_alike hr (quietWrites_referTo _ _).alike, Value.belongsTo_of_roles rfl⟩
  queuePropertyRef v hr := by
    unfold Registry.queuePropertyRef
    split
    · split <;> exact Registry.Owned.of_same hr rfl rfl
    · exact .refl hr
  constrainValue _ hr := Registry.Owned.of_alike hr (quietWrites_constrainValue _ _).alike
  constrainContents _ _ hr := Registry.Owned.of_alike hr (quietWrites_constrainContents _ _ _).alike
  addBackref hc node kind := owns_addBackref hc.2 node kind
  store hc hr := Registry.Owned.replaceCollection hr hc.1 hc.2
  bindPropertyRef pass := owns_quiet (quiet_bindPropertyRef pass)

namespace Session

/-! ## Sessions -/

/-- Documents, passes and references keep collections owned. -/
theorem upkept_owning : Upkept owning fun _ => True where
  waiting _ _ _ := trivial
  setWaiting hr _ := Registry.Owned.of_same hr rfl rfl
  upholds_bindRoot metas _ := kept_owningStock.walked.upholds_bindRoot metas (fun _ _ => trivial)
    (.of_writes _ fun hwrite hr => by cases hwrite <;> exact Registry.Owned.of_same hr rfl rfl)
  nextPass {r rest pass} hr hnext := by
    obtain ⟨passes, -, rfl⟩ := nextPass?_eq_some_iff.mp hnext
    have htaken : owning.Advances r { r with passes } := Registry.Owned.of_same hr rfl rfl
    have hpass : Upholds owning pass.run { r with passes } fun _ _ => True :=
      kept_owningContents.run fun _ _ _ => trivial
    exact htaken.trans (hpass.advances htaken.invariant)
  applyPropertyReferences hr happlied :=
    .of_steps (fun hmark hr => Registry.Owned.mark hr hmark)
      (marks_of_applyPropertyReferences happlied).1 hr

/-- After any number of steps of a run, every collection that a property of an entity refers to is
registered as a collection of that entity, whether the property is one of its own, of a join, or of
its identifier, and whether it refers to the collection by itself or through components.  The same
holds for an identifier that is no property.  A collection that the element or the index of another
one refers to has the owner of that one, and so it has where a backref shows the index. -/
theorem collections_owned {options : RegistryOptions} {r : Registry}
    (hr : Relation.ReflTransGen Step { options } r) :
    (∀ name e, r.entity? name = some e → e.name = name ∧
        (∀ p ∈ e.allProperties ++ e.identifierProperty?.toList, p.backref = none →
          p.value.BelongsTo r name) ∧
        (∀ v ∈ e.kind.values, v.BelongsTo r name) ∧
        ∀ p ∈ e.allProperties, ∀ b, p.backref = some b → p.value.BelongsTo r b.entityName) ∧
      ∀ role c, r.collection? role = some c → c.role = role ∧
        ∀ v, c.element = some v ∨ c.index = some v → v.BelongsTo r c.ownerEntity := by
  have hempty : owning.invariant { options } :=
    ⟨fun _ e he => absurd he.symm (Option.some_ne_none e),
      fun _ c hc => absurd hc.symm (Option.some_ne_none c)⟩
  have howned := (upkept_owning.advances_of_steps hempty hr).invariant
  refine ⟨fun name e he => ?_, fun role c hc => ?_⟩
  · obtain ⟨hname, hbelongs⟩ := howned.entities name e he
    have hproperties : ∀ p ∈ e.allProperties ++ e.identifierProperty?.toList,
        p.BelongsTo r name := fun p hp => (List.mem_append.mp hp).elim (hbelongs.properties p)
      fun hidentifier => hbelongs.identifier p (Option.mem_toList.mp hidentifier)
    refine ⟨hname, fun p hp hplain => ?_, hbelongs.kind, fun p hp b hb => ?_⟩
    · have hvalue := hproperties p hp
      rwa [Property.BelongsTo, Property.owner, hplain] at hvalue
    · have hvalue := hbelongs.properties p hp
      rwa [Property.BelongsTo, Property.owner, hb] at hvalue
  · obtain ⟨hrole, hconsistent⟩ := howned.collections role c hc
    refine ⟨hrole, fun v hv => hconsistent v (Collection.mem_values.mpr ?_)⟩
    exact .inr (hv.imp_right .inl)

/-- Orders with a set in a component, and a set of components with sets in them. -/
def nestedOrders : Document := documentOf [identifiedClass "Order" [
  namedElement "component" "shipping" [
    namedElement "set" "parcels" [columnElement "key" "order_id", columnElement "element" "code"]],
  namedElement "set" "lines" [
    columnElement "key" "order_id",
    { name := "composite-element"
      children := [namedElement "set" "tags" [
        columnElement "key" "line_id", columnElement "element" "tag"]] }]]]

/-- The registry at the end of the session of the orders. -/
def nestedRegistry : Registry :=
  Call.finish.run.after ((Call.add nestedOrders .empty).run.after { options := {} })

/-- The set in the component belongs to the orders, and so do the sets in the elements of the other
one, which are only registered when the session is ended. -/
theorem collections_owned_nestedOrders :
    Relation.ReflTransGen Step { options := {} } nestedRegistry ∧
      (∃ e p, nestedRegistry.entity? "Order" = some e ∧ p ∈ e.allProperties ∧
        p.value.roles = ["Order.shipping.parcels"] ∧
        nestedRegistry.HasCollection "Order" "Order.shipping.parcels") ∧
      ∃ c v, nestedRegistry.collection? "Order.lines" = some c ∧ c.element = some v ∧
        c.ownerEntity = "Order" ∧ v.roles = ["Order.lines.element.tags"] ∧
        nestedRegistry.HasCollection "Order" "Order.lines.element.tags" := by
  have hsteps : Relation.ReflTransGen Step { options := {} } nestedRegistry :=
    .tail (.single (.call _ (.add nestedOrders .empty))) (.call _ .finish)
  obtain ⟨hentities, hcollections⟩ := collections_owned hsteps
  refine ⟨hsteps, ?_, ?_⟩
  · have hshipping : ((nestedRegistry.entity? "Order").bind fun e => e.allProperties.head?.map
        fun p => (p.backref.isNone, p.value.roles)) = some (true, ["Order.shipping.parcels"]) := by
      decide +kernel
    obtain ⟨e, he, hfirst⟩ := Option.bind_eq_some_iff.mp hshipping
    obtain ⟨p, hp, hroles⟩ := Option.map_eq_some_iff.mp hfirst
    rw [Prod.mk.injEq, Option.isNone_iff_eq_none] at hroles
    have hstored := List.mem_of_head? hp
    obtain ⟨-, hbelongs, -⟩ := hentities "Order" e he
    refine ⟨e, p, he, hstored, hroles.2, hbelongs p (List.mem_append_left _ hstored) hroles.1 _ ?_⟩
    rw [hroles.2]
    exact List.mem_singleton_self _
  · have hlines : ((nestedRegistry.collection? "Order.lines").bind fun c =>
        c.element.map fun v => (c.ownerEntity, v.roles))
        = some ("Order", ["Order.lines.element.tags"]) := by decide +kernel
    obtain ⟨c, hc, helement⟩ := Option.bind_eq_some_iff.mp hlines
    obtain ⟨v, hv, hroles⟩ := Option.map_eq_some_iff.mp helement
    rw [Prod.mk.injEq] at hroles
    obtain ⟨-, hcontents⟩ := hcollections "Order.lines" c hc
    have hbelongs := hcontents v (.inl hv)
    rw [hroles.1] at hbelongs
    refine ⟨c, v, hc, hv, hroles.1, hroles.2, hbelongs _ ?_⟩
    rw [hroles.2]
    exact List.mem_singleton_self _

end Session

end ObjectMapping
