import ObjectMapping.Proofs.CollectionOwners
import ObjectMapping.Proofs.Fulfilment
import ObjectMapping.Proofs.RootIdentifiers
import ObjectMapping.Proofs.SubselectOwners

/-!
# Loading by subselects

Deferred passes find the owner of a collection before they bind its contents, so the collections
that they register mark it, like those of bodies.  Hence wherever a session gets to, a collection
that is loaded by subselects has marked its owner, or stands in a composite identifier, whose
collections are registered before the class is.  If nothing fails, the owner of every collection is
registered in the end, but the mark that was missed is not made up for.
-/

namespace ObjectMapping

open Binding Registry

section

variable {opens : Scope → Element → Prop} {r r' : Registry}

/-! ## Contents -/

/-- The owner of a collection is registered when it is found. -/
theorem loads_find (name : String) : Upholds (loading opens) (Owner.find name) r
    fun owner r' => r'.hasEntity owner.name = true := by
  refine .of_invariant fun hr => (upholds_findOwner name).mono fun owner r' _ hfound => ?_
  obtain ⟨rfl, e, he, rfl⟩ := hfound
  refine hasEntity_iff_exists.mpr ⟨e, ?_⟩
  rw [Owner.ofEntity, hr.entities name e he]
  exact he

/-- What a collection contains is bound for an owner that is there. -/
theorem loads_bindContent (scope : Scope) {owner : Owner} (howner : r.hasEntity owner.name = true)
    (c : Collection) (node : Element) :
    Upholds (loading opens) (bindContent scope owner c node) r fun _ _ => True := by
  unfold bindContent
  dsimp only
  split
  · exact .bind (loads_steady (steady_bindCollectionKey _ _ _)) fun _ _ _ _ => .pure trivial
  · exact .bind (loads_steady (steady_bindSimpleValue _ _)) fun _ _ _ _ => .pure trivial
  · exact .bind (loads_quiet (quiet_bindManyToMany _ _ _)) fun _ _ _ _ => .pure trivial
  · exact .bind (loads_bindComponent _ _ node (.inl howner)) fun _ _ _ _ => .pure trivial
  · exact .bind (loads_steady (steady_bindAny _ _ _)) fun _ _ _ _ => .pure trivial
  · exact .ofExcept_bind fun _ _ => .pure trivial
  · exact .pure trivial

/-- Contents are bound for an owner that is there. -/
theorem loads_bindContentsOf {r : Registry} (scope : Scope) {owner : Owner}
    (howner : r.hasEntity owner.name = true) (c : Collection) (children : List Element) :
    Upholds (loading opens) (bindContentsOf scope owner c children) r fun _ _ => True := by
  induction children generalizing c r with
  | nil => exact .pure trivial
  | cons node rest ih =>
    exact .bind (loads_bindContent scope howner c node) fun c' r₁ hkeeps _ =>
      ih (hkeeps.hasEntity howner) c'

/-- A back reference changes neither the name nor the mark of an entity. -/
theorem loads_addBackref (node : Element) (c : Collection) (kind : BackrefKind) :
    Upholds (loading opens) (addBackref node c kind) r fun _ _ => True := by
  unfold addBackref
  split
  · exact .pure trivial
  · exact .get_bind (.ite (fun _ => .write fun hr =>
      Registry.OwnNames.modifyEntity hr _ (fun _ => rfl) fun _ => id) fun _ => .throw _)

/-- Nor does the back reference of an index. -/
theorem loads_addIndexBackref (node : Element) (c : Collection) :
    Upholds (loading opens) (addIndexBackref node c) r fun _ _ => True :=
  .ite (fun _ => .pure trivial) fun _ => loads_addBackref node c .index

/-- The key and the element are bound of a collection that is registered, which stays as it was
declared. -/
theorem loads_bindContents (pass : CollectionPass) : Upholds (loading opens) (bindContents pass) r
    fun c _ => ∃ c₀, r.collection? pass.role = some c₀ ∧ c₀.DeclaredAs c := by
  refine Upholds.of_run (P := fun _ _ => True) ?_ fun c r' hrun _ => ?_
  · unfold bindContents
    refine .get_bind (.require_bind fun c hfound => ?_)
    refine .bind (loads_find _) fun owner r₁ _ howner => .get_bind (.ofExcept_bind fun c₁ _ => ?_)
    refine .bind (loads_steady (steady_bindCollectionCheck _ _)) fun c₂ r₂ hkeeps _ => ?_
    refine .bind (loads_bindContentsOf _ (hkeeps.hasEntity howner) _ _) fun c₃ r₃ _ _ => ?_
    refine .bind (.write fun hr => ?_) fun _ r₄ _ _ =>
      .bind (loads_addBackref _ _ _) fun _ _ _ _ => .pure trivial
    exact Registry.OwnNames.of_alike hr (quietWrites_constrainContents r₃ c₃ owner).alike
  · obtain ⟨c₀, _, hfound, hdeclared, -⟩ := of_run_bindContents hrun
    exact ⟨c₀, hfound, hdeclared⟩

/-- A map key is bound in the table of its collection, and marks nothing. -/
theorem loads_bindMapKey (scope : Scope) (c : Collection) (node : Element) :
    Upholds (loading opens) (bindMapKey scope c node) r fun _ _ => True := by
  unfold bindMapKey
  dsimp only
  split
  · exact .bind (loads_steady (steady_bindSimpleValue _ _)) fun _ _ _ _ =>
      .ite (fun _ => .throw_bind _ _) fun _ => .pure trivial
  · refine .bind (loads_steady (steady_bindManyToOne _ _ _)) fun v r₁ _ _ => ?_
    refine .bind (.write fun hr => Registry.OwnNames.of_alike hr (quietWrites_referTo r₁ _).alike)
      fun _ r₂ _ _ => ?_
    refine .bind (.write fun hr => ?_) fun _ r₃ _ _ => ?_
    · unfold Registry.queuePropertyRef
      split
      · split <;> exact Registry.OwnNames.of_same hr rfl rfl
      · exact .refl hr
    · refine .bind (.write fun hr => ?_) fun _ _ _ _ => .pure trivial
      exact Registry.OwnNames.of_alike hr (quietWrites_constrainValue r₃ _).alike
  · exact .bind (loads_find _) fun _ _ _ howner =>
      .bind (loads_bindComponent _ _ node (.inl howner)) fun _ _ _ _ => .pure trivial
  · exact .bind (loads_steady (steady_bindAny _ _ _)) fun _ _ _ _ => .pure trivial
  · exact .pure trivial

/-- So are all children that are map keys. -/
theorem loads_bindMapKeys {r : Registry} (scope : Scope) (c : Collection)
    (children : List Element) :
    Upholds (loading opens) (bindMapKeys scope c children) r fun _ _ => True := by
  induction children generalizing c r with
  | nil => exact .pure trivial
  | cons node rest ih => exact .bind (loads_bindMapKey scope c node) fun c' _ _ _ => ih c'

/-- So does what else a collection has. -/
theorem loads_bindIndexing (kind : PassKind) (pass : CollectionPass) (c : Collection) :
    Upholds (loading opens) (bindIndexing kind pass c) r fun c' _ => c.DeclaredAs c' := by
  refine Upholds.of_run (P := fun _ _ => True) ?_ fun c' r' hrun _ =>
    (of_run_bindIndexing hrun).1.toDeclaredAs
  cases kind with
  | plain => exact .pure trivial
  | identifierBag => exact loads_steady (steady_bindBagIdentifier _ _)
  | list =>
    refine .require_bind fun node _ =>
      .bind (loads_steady (steady_bindSimpleValue _ _)) fun v _ _ _ =>
        .ofExcept_bind fun base _ => ?_
    exact .bind (loads_addIndexBackref _ _) fun _ _ _ _ => .pure trivial
  | map =>
    refine .bind (loads_bindMapKeys _ _ _) fun c₁ _ _ _ =>
      .ite (fun _ => .throw_bind _ _) fun _ => ?_
    exact .bind (loads_addIndexBackref _ _) fun _ _ _ _ => .pure trivial

/-- A deferred pass registers collections for owners that are there, and leaves the declaration of
its own collection alone. -/
theorem loads_run (pass : DeferredPass) :
    Upholds (loading opens) pass.run r fun _ _ => True := by
  cases pass with
  | propertyRef pass => exact loads_quiet (quiet_bindPropertyRef pass)
  | contents kind pass =>
    refine .of_invariant fun hr => .bind (loads_bindContents pass) fun c r₁ hkeeps hbound => ?_
    obtain ⟨c₀, hfound, hdeclared⟩ := hbound
    refine .bind (loads_bindIndexing kind pass c) fun c' r₂ hkeeps₁ hindexed => ?_
    unfold storeCollection
    refine .get_bind (.ite (fun _ => .write fun hr₂ => ?_) fun _ => .throw _)
    have hsame := hdeclared.trans hindexed
    obtain ⟨c₂, hfound₂, hdeclared₂⟩ := (hkeeps.trans hkeeps₁).collections hfound
    have hrole : c'.role = pass.role := hsame.role.trans (hr.collections _ c₀ hfound)
    exact Registry.OwnNames.store hr₂ (hrole ▸ hfound₂) (hdeclared₂.symm.trans hsame)

/-- A mark for an alternate key is none for subselects. -/
theorem Registry.Mark.loads (h : Mark r r') (hr : r.OwnNames) :
    (loading opens).Advances r r' := by
  cases h with
  | property place =>
    refine hr.modifyEntity place.entity (fun e => ?_) fun e => ?_
    · cases place.slot <;> rfl
    · cases place.slot <;> exact id

/-! ## Owners -/

/-- The owner of every collection is registered. -/
def Registry.OwnersKnown (r : Registry) : Prop :=
  ∀ role c, r.collection? role = some c → r.hasEntity c.ownerEntity = true

/-- Owners stay registered, and those of new collections are, if it is so for the collections in
composite identifiers. -/
theorem Registry.LoadsFrom.ownersKnown (h : LoadsFrom opens r r')
    (hkeyed : ∀ role (c : Collection), c.KeyedBy opens role → r'.hasEntity c.ownerEntity = true)
    (hr : r.OwnersKnown) : r'.OwnersKnown := by
  intro role c' hc'
  rcases h.origin hc' with ⟨c, hc, hdeclared⟩ | ⟨e, he, -⟩ | hkey
  · rw [hdeclared.ownerEntity]
    exact h.hasEntity (hr role c hc)
  · exact hasEntity_iff_exists.mpr ⟨e, he⟩
  · exact hkeyed role c' hkey

/-- Skeletons are stored under their own names if entities are. -/
theorem Registry.OwnNames.keyed (hr : r.OwnNames) : Keyed r.skeletons := by
  rintro ⟨name, k⟩ hk
  obtain ⟨e, he, rfl⟩ := entity?_of_mem_skeletons hk
  exact hr.entities name e he

end

namespace Session

variable {options : RegistryOptions} {arrivals : List Arrival} {documents : Document → Prop}
  {r r' : Registry}

/-- When a document is bound without an error, its classes are registered, and with them the owners
of the collections in their composite identifiers. -/
theorem ownersKnown_of_bound {root : Element} {metas : MetaMap} (hr : r.OwnNames)
    (hrun : (bindRoot root metas).run r = .ok () r') (hknown : r.OwnersKnown) :
    r'.OwnersKnown := by
  have hloads := ((loads_bindRoot root metas).of_ok hr hrun).1.keeps
  refine hloads.ownersKnown (fun role c hkey => ?_) hknown
  obtain ⟨_, ⟨_, declared, _, ⟨rfl, hclass⟩, hname, -⟩, -⟩ := hkey
  obtain ⟨k, hk, -⟩ := exists_rootOutline hclass
  have hmem := List.mem_append_right r.outlines hk
  rw [← (registers_bindRoot root metas).outlines hr.keyed hrun] at hmem
  obtain ⟨e, he, -⟩ := Option.map_eq_some_iff.mp (mem_outlines_iff.mp hmem)
  exact hasEntity_iff_exists.mpr ⟨e, hname ▸ he⟩

/-- Entities and collections are stored under their own names and roles if they are owned. -/
theorem ownNames_of_owning (hr : owning.invariant r) : r.OwnNames :=
  ⟨fun name e he => (hr.entities name e he).1, fun role c hc => (hr.collections role c hc).1⟩

/-- Nothing is owned before a session starts. -/
theorem owning_empty : owning.invariant { options } :=
  ⟨fun _ e he => absurd he.symm (Option.some_ne_none e),
    fun _ c hc => absurd hc.symm (Option.some_ne_none c)⟩

/-- Whatever ends well keeps the owners of collections registered. -/
theorem fulfils_ownersKnown :
    Fulfils owning (fun _ _ => True) fun r r' => r.OwnersKnown → r'.OwnersKnown where
  upkept := upkept_owning
  refl _ := id
  trans h h' := h' ∘ h
  kept _ _ := trivial
  setWaiting _ _ := id
  upholds_bindRoot {r} root metas := by
    have hroot : Upholds owning (bindRoot root metas) r fun _ _ => True :=
      @Upkept.upholds_bindRoot _ _ upkept_owning r { root } metas trivial
    exact .of_invariant fun hr => hroot.of_run fun _ _ hrun _ =>
      ⟨ownersKnown_of_bound (ownNames_of_owning hr) hrun, trivial⟩
  nextPass {r rest r' pass} hr hnext hrun hknown := by
    obtain ⟨passes, -, rfl⟩ := nextPass?_eq_some_iff.mp hnext
    have hnames := ownNames_of_owning hr
    have htaken : OwnNames { r with passes } := ⟨hnames.entities, hnames.collections⟩
    have hpass : Upholds (loading fun _ _ => False) pass.run { r with passes } fun _ _ => True :=
      loads_run pass
    have hloads := (hpass.of_ok htaken hrun).1.keeps
    refine hloads.ownersKnown (fun role c hkey => ?_) hknown
    obtain ⟨_, ⟨_, _, _, hnone, -⟩, -⟩ := hkey
    exact hnone.elim
  applyPropertyReferences {r r'} happlied hknown role c hc := by
    have hmarks := (marks_of_applyPropertyReferences happlied).1
    rw [hmarks.sideWrites.hasEntity]
    obtain ⟨entities, rfl⟩ := hmarks.frame
    exact hknown role c hc

/-! ## Sessions -/

/-- Every stage of a session keeps entities marked. -/
theorem Stage.loads (h : Stage documents r r') (hr : r.OwnNames) :
    (loading (ClassIn documents)).Advances r r' := by
  cases h with
  | @bind document metas hdocument =>
    have hbound := (loads_bindRoot (r := r) document.root metas).advances hr
    exact ⟨hbound.keeps.mono fun scope node hclass => ⟨document, metas, hdocument, hclass⟩,
      hbound.invariant⟩
  | waiting => exact hr.of_same rfl rfl
  | @pass rest pass hnext =>
    obtain ⟨passes, -, rfl⟩ := nextPass?_eq_some_iff.mp hnext
    have htaken : (loading (ClassIn documents)).Advances r { r with passes } := hr.of_same rfl rfl
    exact htaken.trans ((loads_run pass).advances htaken.invariant)
  | references h =>
    exact .of_steps (fun hmark hr => hmark.loads hr) (marks_of_applyPropertyReferences h).1 hr

/-- Wherever a session gets to, a collection has its owner registered, and marked if it is loaded by
subselects, or stands in the composite identifier of a class of its documents. -/
theorem recorded_of_driven (hr : Driven options documents r) {role : String} {c : Collection}
    (hc : r.collection? role = some c) :
    c.RecordedIn r ∨ c.KeyedBy (ClassIn documents) role := by
  have hstages : (stages documents).Advances { options } r :=
    upkept_stages.advances_of_driven (fun _ hwaiting => absurd hwaiting List.not_mem_nil) hr
  have hloads : (loading (ClassIn documents)).Advances { options } r :=
    .of_steps (fun hstage hr => hstage.loads hr) hstages.keeps (ownNames_of_owning owning_empty)
  rcases hloads.keeps.origin hc with ⟨c₀, hc₀, -⟩ | hnew
  · cases hc₀
  · exact hnew

/-- In a session in which nothing fails, the owner of every collection is registered, and it is
marked if the collection is loaded by subselects, unless that one stands in the composite identifier
of its class. -/
theorem subselects_recorded (hr : Flawless options arrivals r) {role : String} {c : Collection}
    (hc : r.collection? role = some c) : ∃ e, r.entity? c.ownerEntity = some e ∧
      (c.subselectLoadable = true → e.subselectLoadableCollections = true ∨
        c.KeyedBy (ClassIn (Arrives arrivals)) role) := by
  rcases recorded_of_driven hr.driven hc with ⟨e, he, hmarked⟩ | hkeyed
  · exact ⟨e, he, fun hloadable => .inl (hmarked hloadable)⟩
  · have hknown := fulfils_ownersKnown.later_of_flawless owning_empty hr fun _ c hnone =>
      absurd hnone.symm (Option.some_ne_none c)
    obtain ⟨e, he⟩ := hasEntity_iff_exists.mp (hknown role c hc)
    exact ⟨e, he, fun _ => .inr hkeyed⟩

/-- A set of strings that is loaded by subselects. -/
def subselectSet (name keyColumn : String) : Element where
  name := "set"
  attributes := .ofList [("name", name), ("fetch", "subselect")]
  children := [columnElement "key" keyColumn, columnElement "element" "value"]

/-- Orders with such a set in their composite identifier, and invoices with one in their body. -/
def taggedOrders : Document := documentOf [
  { name := "class"
    attributes := .ofList [("name", "Order")]
    children := [{
      name := "composite-id"
      children := [
        { name := "key-property"
          attributes := .ofList [("name", "number"), ("type", "long")] },
        subselectSet "tags" "order_number"] }] },
  identifiedClass "Invoice" [subselectSet "remarks" "invoice_id"]]

/-- The registry that is built from them. -/
def taggedRegistry : Registry :=
  finish.after ((addAll [⟨taggedOrders, .empty⟩]).after { options := {} })

/-- The registry of orders is built from their document. -/
theorem built_taggedOrders : Built {} [⟨taggedOrders, .empty⟩] taggedRegistry :=
  built_of_succeeds (by decide +kernel) (by decide +kernel)

/-- The set of an invoice is recorded, since the identifier of invoices is not composite. -/
theorem subselects_recorded_taggedOrders :
    Flawless {} [⟨taggedOrders, .empty⟩] taggedRegistry ∧
      ∃ c, taggedRegistry.collection? "Invoice.remarks" = some c ∧ c.subselectLoadable = true ∧
        ∃ e, taggedRegistry.entity? c.ownerEntity = some e ∧
          e.subselectLoadableCollections = true := by
  have hflawless := built_taggedOrders.flawless
  have hremarks : (taggedRegistry.collection? "Invoice.remarks").map
      (fun c => (c.ownerEntity, c.subselectLoadable)) = some ("Invoice", true) := by decide +kernel
  obtain ⟨c, hc, hset⟩ := Option.map_eq_some_iff.mp hremarks
  obtain ⟨howner, hloadable⟩ := Prod.mk.inj hset
  obtain ⟨e, he, hmarked⟩ := subselects_recorded hflawless hc
  refine ⟨hflawless, c, hc, hloadable, e, he, (hmarked hloadable).resolve_right ?_⟩
  rintro ⟨_, ⟨_, declared, id, ⟨_, _, ⟨arrival, harrival, rfl⟩, rfl, hclass⟩, hdeclared⟩, -⟩
  obtain ⟨hname, hid, htag, -⟩ := hdeclared
  cases List.mem_singleton.mp harrival
  have hsimple : ∀ declared ∈ taggedOrders.root.childrenNamed "class",
      entityNameIn (.ofRoot taggedOrders.root) declared = "Invoice" →
        ∀ id ∈ declared.children, id.tag? ≠ some .compositeId := by decide +kernel
  exact hsimple declared hclass (hname.trans howner) id hid htag

/-- The set in the identifier of an order has not marked its owner. -/
theorem subselects_not_recorded : ¬ ∀ (options : RegistryOptions) (arrivals : List Arrival)
    (r : Registry), Flawless options arrivals r → ∀ role c, r.collection? role = some c →
      c.subselectLoadable = true → ∃ e, r.entity? c.ownerEntity = some e ∧
        e.subselectLoadableCollections = true := by
  intro hclaim
  have htags : (taggedRegistry.collection? "Order.id.tags").map
      (fun c => (c.ownerEntity, c.subselectLoadable)) = some ("Order", true) := by decide +kernel
  obtain ⟨c, hc, hset⟩ := Option.map_eq_some_iff.mp htags
  obtain ⟨howner, hloadable⟩ := Prod.mk.inj hset
  obtain ⟨e, he, hmarked⟩ := hclaim {} _ _ built_taggedOrders.flawless _ c hc hloadable
  have hunmarked : (taggedRegistry.entity? "Order").map Entity.subselectLoadableCollections
      = some false := by decide +kernel
  rw [← howner, he, Option.map_some, hmarked] at hunmarked
  cases hunmarked

end Session

end ObjectMapping
