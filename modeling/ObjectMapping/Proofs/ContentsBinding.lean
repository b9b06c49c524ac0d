import ObjectMapping.Proofs.BodyBinding

/-!
# Binding contents

A deferred pass completes a registered collection, or makes a foreign key that had to wait.  By
the time that its contents are bound, a collection has a table, since the entities of a
one-to-many have one; everything in the collection is stored there.  The key and the index of a
collection are grounded and secured, so showing them as properties of its elements keeps the
entities grounded.
-/

namespace ObjectMapping

open Binding Registry

variable {S : Source} {r : Registry} {id : TableId} {c c' : Collection}

/-! ## Collections in a table -/

/-- A collection is grounded, and its table is known. -/
structure Collection.StoredIn (S : Source) (r : Registry) (id : TableId) (c : Collection) :
    Prop where
  table : c.table = some id
  grounded : c.Grounded S r

namespace Collection.StoredIn

theorem mono {r' : Registry} (h : r.IncludedIn r') (hc : c.StoredIn S r id) :
    c.StoredIn S r' id := ⟨hc.table, hc.grounded.mono h⟩

theorem holds (h : c.StoredIn S r id) : r.Holds id := h.grounded.table id h.table

/-- A collection may get further grounded values, if a new key or index is secured. -/
theorem update (h : c.StoredIn S r id) (htable : c'.table = c.table)
    (hkey : ∀ v, c'.key = some v → c.key = some v ∨ v.Grounded S r ∧ v.Secured r)
    (helement : ∀ v, c'.element = some v → c.element = some v ∨ v.Grounded S r)
    (hindex : ∀ v, c'.index = some v → c.index = some v ∨ v.Grounded S r ∧ v.Secured r)
    (hidentifier : ∀ v, c'.identifier = some v → c.identifier = some v ∨ v.Grounded S r) :
    c'.StoredIn S r id := by
  have hvalues : ∀ v, c.key = some v ∨ c.element = some v ∨ c.index = some v ∨
      c.identifier = some v → v.Grounded S r :=
    fun v hv => h.grounded.values v (mem_values.mpr hv)
  have htable' := htable.trans h.table
  refine ⟨htable', fun id' hid' => ?_, fun hnone => ?_, fun v hv => ?_, fun v hv => ?_⟩
  · cases htable'.symm.trans hid'
    exact h.holds
  · cases htable'.symm.trans hnone
  · rcases mem_values.mp hv with hv | hv | hv | hv
    · exact (hkey v hv).elim (fun hold => hvalues v (.inl hold)) fun hnew => hnew.1
    · exact (helement v hv).elim (fun hold => hvalues v (.inr (.inl hold))) fun hnew => hnew
    · exact (hindex v hv).elim (fun hold => hvalues v (.inr (.inr (.inl hold)))) fun hnew => hnew.1
    · exact (hidentifier v hv).elim (fun hold => hvalues v (.inr (.inr (.inr hold))))
        fun hnew => hnew
  · rcases hv with hv | hv
    · exact (hkey v hv).elim (fun hold => h.grounded.shown v (.inl hold)) fun hnew => hnew.2
    · exact (hindex v hv).elim (fun hold => h.grounded.shown v (.inr hold)) fun hnew => hnew.2

/-- The key of a collection may be set to a grounded and secured one. -/
theorem setKey (h : c.StoredIn S r id) {v : Value} (hv : v.Grounded S r ∧ v.Secured r) :
    ({ c with key := some v } : Collection).StoredIn S r id :=
  h.update rfl (fun _ hw => .inr (Option.some.inj hw ▸ hv)) (fun _ => .inl) (fun _ => .inl)
    fun _ => .inl

/-- The index of a collection may be set to a grounded and secured one. -/
theorem setIndex (h : c.StoredIn S r id) {v : Value} (hv : v.Grounded S r ∧ v.Secured r)
    (htable : c'.table = c.table) (hkey : c'.key = c.key) (helement : c'.element = c.element)
    (hindex : c'.index = some v) (hidentifier : c'.identifier = c.identifier) :
    c'.StoredIn S r id := by
  refine h.update htable (hkey ▸ fun _ => .inl) (helement ▸ fun _ => .inl) ?_
    (hidentifier ▸ fun _ => .inl)
  intro w hw
  rw [hindex] at hw
  exact .inr (Option.some.inj hw ▸ hv)

/-- The element of a collection may be set to a grounded one. -/
theorem setElement (h : c.StoredIn S r id) {v : Value} (hv : v.Grounded S r)
    (htable : c'.table = c.table) (hkey : c'.key = c.key) (helement : c'.element = some v)
    (hindex : c'.index = c.index) (hidentifier : c'.identifier = c.identifier) :
    c'.StoredIn S r id := by
  refine h.update htable (hkey ▸ fun _ => .inl) ?_ (hindex ▸ fun _ => .inl)
    (hidentifier ▸ fun _ => .inl)
  intro w hw
  rw [helement] at hw
  exact .inr (Option.some.inj hw ▸ hv)

/-- The row identifiers of a collection may be set to grounded ones. -/
theorem setIdentifier (h : c.StoredIn S r id) {v : Value} (hv : v.Grounded S r) :
    ({ c with identifier := some v } : Collection).StoredIn S r id :=
  h.update rfl (fun _ => .inl) (fun _ => .inl) (fun _ => .inl)
    fun _ hw => .inr (Option.some.inj hw ▸ hv)

/-- What has to do with neither tables nor values may be changed. -/
theorem relabel (h : c.StoredIn S r id) (htable : c'.table = c.table) (hkey : c'.key = c.key)
    (helement : c'.element = c.element) (hindex : c'.index = c.index)
    (hidentifier : c'.identifier = c.identifier) : c'.StoredIn S r id :=
  h.update htable (hkey ▸ fun _ => .inl) (helement ▸ fun _ => .inl) (hindex ▸ fun _ => .inl)
    (hidentifier ▸ fun _ => .inl)

end Collection.StoredIn

/-- Once the target of a one-to-many is known, every collection has a table. -/
theorem Collection.Grounded.resolveTarget (hr : r.Grounded S) (hc : c.Grounded S r)
    (h : c.resolveTarget r = .ok c') : ∃ id, c'.StoredIn S r id := by
  unfold Collection.resolveTarget at h
  split at h
  · next v helement =>
    dsimp only at h
    split at h
    · next e hfound =>
      cases h
      obtain ⟨name, -, he⟩ := Option.bind_eq_some_iff.mp hfound
      have htable := (hr.entities name e he).table
      refine ⟨e.table, rfl, fun _ hid => Option.some.inj hid ▸ htable, nofun, ?_, hc.shown⟩
      intro w hw
      rcases Collection.mem_values.mp hw with hw | hw | hw | hw
      · exact hc.values w (Collection.mem_values.mpr (.inl hw))
      · cases hw
        intro part hpart
        cases List.mem_singleton.mp hpart
        exact fun _ hid => Option.some.inj hid ▸ htable
      · exact hc.values w (Collection.mem_values.mpr (.inr (.inr (.inl hw))))
      · exact hc.values w (Collection.mem_values.mpr (.inr (.inr (.inr hw))))
    · cases h
  · next hother =>
    cases h
    cases htable : c.table with
    | some id => exact ⟨id, htable, hc⟩
    | none =>
      obtain ⟨v, hv⟩ := Collection.isOneToMany_iff.mp (hc.located htable)
      exact absurd hv (hother v)

/-! ## Keys and elements -/

theorem leads_bindCollectionCheck (hc : c.StoredIn S r id) (node : Element) :
    Leads S (bindCollectionCheck c node) r fun c' r' => c'.StoredIn S r' id := by
  unfold bindCollectionCheck
  split
  · rw [hc.table]
    refine .bind (.writeTable fun t _ ht => ht.relabel rfl rfl rfl rfl rfl rfl rfl)
      fun _ r' hincluded _ => .pure ?_
    exact (hc.mono hincluded).relabel hc.table.symm rfl rfl rfl rfl
  · exact .pure hc

/-- What the key of a collection refers to is grounded. -/
theorem Registry.Grounded.keyTarget (hr : r.Grounded S) {owner : Owner} {v : Value}
    (h : r.keyTarget c owner = .ok v) : v.Grounded S r := by
  unfold Registry.keyTarget at h
  split at h
  · split at h
    · next hidentifier =>
      cases h
      exact hr.identifierValue hidentifier
    · cases h
  · split at h
    · next hproperty =>
      cases h
      exact (hr.referencedProperty hproperty).1
    · cases h

/-- The nullability of columns does not change where a value is stored. -/
theorem SimpleValue.GroundedBy.withNullable {v : SimpleValue} {P : Element → Prop}
    (h : v.GroundedBy S r P) (nullable : Bool) :
    (v.withNullable nullable).GroundedBy S r P := by
  unfold SimpleValue.GroundedBy SimpleValue.DescribedBy
  rw [SimpleValue.columnNames_withNullable, SimpleValue.hasFormula_withNullable]
  exact h

/-- The key of a collection is grounded, and it is no association. -/
theorem leads_bindCollectionKey (hc : c.StoredIn S r id) (owner : Owner) {node : Element}
    (hnode : S.Has node) (hkey : node.tag? = some .key) :
    Leads S (bindCollectionKey c owner node) r fun v r' => v.Grounded S r' ∧ v.Secured r' := by
  unfold bindCollectionKey
  refine .of_grounded fun hr => .get_bind (.ofExcept_bind fun wrapped hwrapped => ?_)
  have hwrapped := hr.keyTarget hwrapped
  refine .bind (leads_bindSimpleValue hc.table hc.holds hnode) fun base r₁ hincluded hbase => ?_
  have hgrounded : SimpleValue.GroundedTo S r₁
      { base with cascadeDelete := node.attributeIs "on-delete" "cascade" } none :=
    Element.referredProperty?_of_key hkey ▸ hbase.1.congr rfl rfl rfl
  dsimp only
  refine .ite (fun _ => .pure ?_) fun _ => ?_
  · exact ⟨Value.grounded_dependant hgrounded (hwrapped.mono hincluded) _ _, trivial⟩
  · rw [hc.table]
    refine .bind (.writeTable fun t _ ht => ht.requireColumns _) fun _ r₂ hincluded₁ _ =>
      .pure ⟨?_, trivial⟩
    exact Value.grounded_dependant ((hgrounded.mono hincluded₁).withNullable false)
      (hwrapped.mono (hincluded.trans hincluded₁)) _ _

/-- The element of a many-to-many is in the table of the collection. -/
theorem leads_bindManyToMany (scope : Scope) (hc : c.StoredIn S r id) {node : Element}
    (hnode : S.Has node) (hkey : node.tag? ≠ some .key) :
    Leads S (bindManyToMany scope c node) r fun c' r' => c'.StoredIn S r' id := by
  unfold bindManyToMany
  refine .bind (leads_bindManyToOne scope hc.table hc.holds hnode hkey)
    fun v r₁ hincluded hv => ?_
  refine .bind (.write fun hr => (same_referTo _ _).advances hr) fun _ r₂ hincluded₁ _ => ?_
  refine .bind (.of_same (.mapM same_bindFilterUse _))
    fun filters r₃ hincluded₂ _ => .ite (fun _ => .throw_bind _ _) fun _ => .pure ?_
  have hincluded₃ := hincluded₁.trans hincluded₂
  exact (hc.mono (hincluded.trans hincluded₃)).setElement (hv.1.mono hincluded₃) rfl rfl rfl rfl rfl

/-- A component that belongs to a collection is in its table. -/
theorem leads_bindContentsComponent (scope : Scope) (hc : c.StoredIn S r id) (owner : Owner)
    (part : String) (nullable : Bool) {node : Element} (hnode : S.Has node) (hinner : S.Inner node)
    {tag : Tag} (htag : node.tag? = some tag) (hcomponent : tag.isComponent) :
    Leads S (bindComponent scope (contentsSite c owner part nullable) node) r fun v r' =>
      (Value.component v).Grounded S r' := by
  have hplace := Element.isComponent_of_tag htag hcomponent
  exact (leads_bindComponent scope hc.table hc.holds node hnode (.inr ⟨hinner, hplace⟩)).mono
    fun _ _ _ hv => hv.1

/-- A child of a collection adds grounded contents to it at most. -/
theorem leads_bindContent (scope : Scope) (owner : Owner) (hc : c.StoredIn S r id)
    {node : Element} (hnode : S.Has node) (hinner : S.Inner node) :
    Leads S (bindContent scope owner c node) r fun c' r' => c'.StoredIn S r' id := by
  unfold bindContent
  dsimp only
  split
  · refine .bind (leads_bindCollectionKey hc owner hnode ‹_›) fun v r' hincluded hv => .pure ?_
    exact (hc.mono hincluded).setKey hv
  · refine .bind (leads_bindSimpleValue hc.table hc.holds hnode) fun v r' hincluded hv => .pure ?_
    exact (hc.mono hincluded).setElement (Value.grounded_simple hv.1) rfl rfl rfl rfl rfl
  · next htag =>
    have hkey : node.tag? ≠ some .key := by rw [htag]; nofun
    refine .bind (leads_bindManyToMany scope hc hnode hkey) fun c' r' _ hc' => .pure ?_
    exact hc'.relabel rfl rfl rfl rfl rfl
  · refine .bind (leads_bindContentsComponent scope hc owner "element" true hnode hinner ‹_› rfl)
      fun v r' hincluded hv => .pure ?_
    exact (hc.mono hincluded).setElement hv rfl rfl rfl rfl rfl
  · refine .bind (leads_bindAny scope hc.table hc.holds hnode) fun v r' hincluded hv => .pure ?_
    exact (hc.mono hincluded).setElement hv.1 rfl rfl rfl rfl rfl
  · exact .ofExcept_bind fun _ _ => .pure (hc.relabel rfl rfl rfl rfl rfl)
  · exact .pure hc

/-- The children of a collection add grounded contents to it. -/
theorem leads_bindContentsOf (scope : Scope) (owner : Owner) {children : List Element}
    (hchildren : ∀ node ∈ children, S.Has node ∧ S.Inner node) (hc : c.StoredIn S r id) :
    Leads S (bindContentsOf scope owner c children) r fun c' r' => c'.StoredIn S r' id := by
  induction children generalizing r c with
  | nil => exact .pure hc
  | cons node rest ih =>
    rw [List.forall_mem_cons] at hchildren
    exact .bind (leads_bindContent scope owner hc hchildren.1.1 hchildren.1.2) fun c' r' _ hc' =>
      ih hchildren.2 hc'

/-- Making the foreign keys of a grounded collection keeps the registry grounded. -/
theorem Registry.Grounded.constrainContents (hr : r.Grounded S) (hc : c.Grounded S r)
    (owner : Owner) : r.Advances S (r.constrainContents c owner) := by
  unfold Registry.constrainContents
  split
  · exact hr.advances
  · extract_lets keyed
    have hkeyed : r.Advances S keyed := by
      unfold keyed
      split
      · next base _ _ _ hkey =>
        have hgrounded := hc.values _ (Collection.mem_values.mpr (.inl hkey))
        exact (hr.constrainTo hgrounded.base owner.name).1
      · exact hr.advances
    clear_value keyed
    split
    · next v helement =>
      have hgrounded := hc.values v (Collection.mem_values.mpr (.inr (.inl helement)))
      exact hkeyed.trans (hkeyed.grounded.constrainValue v (hgrounded.mono hkeyed.included)).1
    · exact hkeyed

/-! ## Backrefs -/

/-- A backref shows the key or the index of its collection. -/
theorem Collection.shows_of_backref? {node : Element} {kind : BackrefKind} {target : String}
    {p : Property} (h : c.backref? node kind = some (target, p)) :
    c.key = some p.value ∨ c.index = some p.value := by
  unfold Collection.backref? at h
  split at h
  · next key _ hkey =>
    split at h
    · cases h
    · dsimp only at h
      obtain ⟨⟨name, access, value⟩, hshown, hmade⟩ := Option.map_eq_some_iff.mp h
      cases hmade
      cases kind with
      | collection =>
        cases hshown
        exact .inl hkey
      | index =>
        obtain ⟨index, hindex, hsame⟩ := Option.map_eq_some_iff.mp hshown
        cases hsame
        exact .inr hindex
  · cases h

/-- A backref is marked as one, cascades nothing and has no meta attributes. -/
theorem Collection.synthetic_of_backref? {node : Element} {kind : BackrefKind} {target : String}
    {p : Property} (h : c.backref? node kind = some (target, p)) :
    p.cascade = "none" ∧ p.backref.isSome = true ∧ p.metas = .empty := by
  unfold Collection.backref? at h
  split at h
  · split at h
    · cases h
    · obtain ⟨shown, -, hmade⟩ := Option.map_eq_some_iff.mp h
      cases hmade
      exact ⟨rfl, rfl, rfl⟩
  · cases h

/-- A property that shows the key or the index of a grounded collection may be added. -/
theorem leads_addBackref (node : Element) (hc : c.Grounded S r) (kind : BackrefKind) :
    Leads S (addBackref node c kind) r fun _ _ => True := by
  unfold addBackref
  split
  · exact .pure trivial
  · next target p hshown =>
    have hshows := Collection.shows_of_backref? hshown
    have hgrounded : p.value.Grounded S r := hc.values _ (Collection.mem_values.mpr <|
      hshows.imp id fun hindex => .inr (.inl hindex))
    refine .get_bind (.ite (fun _ => ?_) fun _ => .throw _)
    refine .write fun hr => hr.modifyEntity fun e he => ?_
    exact (hr.entities target e he).addProperty ⟨hgrounded, hc.shown _ hshows⟩

theorem leads_addIndexBackref (node : Element) (hc : c.Grounded S r) :
    Leads S (addIndexBackref node c) r fun _ _ => True :=
  .ite (fun _ => .pure trivial) fun _ => leads_addBackref node hc .index

/-! ## Passes -/

section

variable {pass : CollectionPass} (hnode : S.Has pass.node) (hopens : pass.node.OpensTable)
include hnode

include hopens in
/-- The key and element of a collection are in its table. -/
theorem leads_bindContents :
    Leads S (bindContents pass) r fun c r' => ∃ id, c.StoredIn S r' id := by
  unfold bindContents
  refine .of_grounded fun hr => .get_bind (.require_bind fun c hfound => ?_)
  have hc := hr.collections pass.role c hfound
  refine .bind (leads_find c.ownerEntity) fun owner r₁ hincluded _ => ?_
  refine .of_grounded fun hr₁ => .get_bind (.ofExcept_bind fun c₁ hresolved => ?_)
  obtain ⟨id, hc₁⟩ := Collection.Grounded.resolveTarget hr₁ (hc.mono hincluded) hresolved
  refine .bind (leads_bindCollectionCheck hc₁ pass.node) fun c₂ r₂ _ hc₂ => ?_
  refine .bind (leads_bindContentsOf pass.scope owner
    (fun node hin => ⟨hnode.child hin, .of_opensTable hnode hopens hin⟩) hc₂) fun c₃ r₃ _ hc₃ => ?_
  refine .bind (.write fun hr => hr.constrainContents hc₃.grounded owner)
    fun _ r₄ hincluded₃ _ => ?_
  have hc₄ := hc₃.mono hincluded₃
  exact .bind (leads_addBackref pass.node hc₄.grounded .collection) fun _ r₅ hincluded₄ _ =>
    .pure ⟨id, hc₄.mono hincluded₄⟩

/-- The row identifier of a bag is in its table. -/
theorem leads_bindBagIdentifier (hc : c.StoredIn S r id) :
    Leads S (bindBagIdentifier pass c) r fun c' r' => c'.StoredIn S r' id := by
  unfold bindBagIdentifier
  refine .require_bind fun node hfound => ?_
  have hhas := hnode.child (Element.mem_children_of_child? hfound)
  refine .bind (leads_bindSimpleValue hc.table hc.holds hhas) fun v r₁ hincluded hv => ?_
  refine .ofExcept_bind fun v' hv' => .pure ?_
  obtain ⟨htable, hselectables, hforeignKey⟩ := SimpleValue.storage_of_asIdentifier hv'
  have hgrounded := hv.1.congr htable hselectables hforeignKey
  exact (hc.mono hincluded).setIdentifier (Value.grounded_simple hgrounded)

/-- The positions of a list are in its table. -/
theorem leads_bindListIndex (hc : c.StoredIn S r id) :
    Leads S (bindListIndex pass c) r fun c' r' => c'.StoredIn S r' id := by
  unfold bindListIndex
  refine .require_bind fun node hfound => ?_
  have hhas : S.Has node := by
    rcases Option.or_eq_some_iff.mp hfound with hlist | ⟨-, hindex⟩
    · exact hnode.child (Element.mem_children_of_child? hlist)
    · exact hnode.child (Element.mem_children_of_child? hindex)
  refine .bind (leads_bindSimpleValue hc.table hc.holds hhas) fun v r₁ hincluded hv => ?_
  refine .ofExcept_bind fun base _ => ?_
  have hposition : SimpleValue.Grounded S r₁ { v with typeName := some "integer" } :=
    hv.1.grounded.congr rfl rfl rfl
  have hindexed : Collection.StoredIn S r₁ id { c with
      index := some (.simple { v with typeName := some "integer" })
      baseIndex := base.getD 0
      indexNodeName := node.attribute? "node" } :=
    (hc.mono hincluded).setIndex ⟨Value.grounded_simple hposition, trivial⟩ rfl rfl rfl rfl rfl
  exact .bind (leads_addIndexBackref pass.node hindexed.grounded) fun _ r₂ hincluded₁ _ =>
    .pure (hindexed.mono hincluded₁)

omit hnode in
/-- A child of a map that describes its keys sets them to grounded and secured ones. -/
theorem leads_bindMapKey (scope : Scope) (hc : c.StoredIn S r id) {node : Element}
    (hnode : S.Has node) (hinner : S.Inner node) :
    Leads S (bindMapKey scope c node) r fun c' r' => c'.StoredIn S r' id := by
  unfold bindMapKey
  dsimp only
  split
  · refine .bind (leads_bindSimpleValue hc.table hc.holds hnode) fun v r₁ hincluded hv => ?_
    refine .ite (fun _ => .throw_bind _ _) fun _ => .pure ?_
    exact (hc.mono hincluded).setIndex ⟨Value.grounded_simple hv.1, trivial⟩ rfl rfl rfl rfl rfl
  · next htag =>
    have hkey : node.tag? ≠ some .key := by rw [htag]; nofun
    refine .bind (leads_bindManyToOne scope hc.table hc.holds hnode hkey)
      fun v r₁ hincluded hv => ?_
    refine .bind (.write fun hr => (same_referTo _ _).advances hr) fun _ r₂ hincluded₁ _ => ?_
    have hv₂ := hv.1.mono hincluded₁
    refine .bind (.write fun hr => hr.queuePropertyRef hv₂) fun _ r₃ hincluded₂ _ => ?_
    have hv₃ := hv₂.mono hincluded₂
    have hconstrain : Leads S (modify (·.constrainValue (.manyToOne v)) : Binding PUnit) r₃
        fun _ r' => (Value.manyToOne v).Secured r' := .modify fun hr => hr.constrainValue _ hv₃
    refine .bind hconstrain fun _ r₄ hincluded₃ hsecured => .pure ?_
    have hc₄ := hc.mono (hincluded.trans (hincluded₁.trans (hincluded₂.trans hincluded₃)))
    exact hc₄.setIndex ⟨hv₃.mono hincluded₃, hsecured⟩ rfl rfl rfl rfl rfl
  · refine .bind (leads_find c.ownerEntity) fun owner r₁ hincluded _ => ?_
    refine .bind (leads_bindContentsComponent scope (hc.mono hincluded) owner "index" _ hnode hinner
      ‹_› rfl) fun v r₂ hincluded₁ hv => .pure ?_
    exact (hc.mono (hincluded.trans hincluded₁)).setIndex ⟨hv, trivial⟩ rfl rfl rfl rfl rfl
  · refine .bind (leads_bindAny scope hc.table hc.holds hnode) fun v r₁ hincluded hv => .pure ?_
    exact (hc.mono hincluded).setIndex ⟨hv.1, trivial⟩ rfl rfl rfl rfl rfl
  · exact .pure hc

omit hnode in
/-- The children of a map set its keys to grounded and secured ones. -/
theorem leads_bindMapKeys (scope : Scope) {children : List Element}
    (hchildren : ∀ node ∈ children, S.Has node ∧ S.Inner node) (hc : c.StoredIn S r id) :
    Leads S (bindMapKeys scope c children) r fun c' r' => c'.StoredIn S r' id := by
  induction children generalizing r c with
  | nil => exact .pure hc
  | cons node rest ih =>
    rw [List.forall_mem_cons] at hchildren
    exact .bind (leads_bindMapKey scope hc hchildren.1.1 hchildren.1.2) fun c' r' _ hc' =>
      ih hchildren.2 hc'

include hopens in
/-- What a collection has besides its key and element is in its table. -/
theorem leads_bindIndexing (kind : PassKind) (hc : c.StoredIn S r id) :
    Leads S (bindIndexing kind pass c) r fun c' r' => c'.StoredIn S r' id := by
  cases kind with
  | plain => exact .pure hc
  | identifierBag => exact leads_bindBagIdentifier hnode hc
  | list => exact leads_bindListIndex hnode hc
  | map =>
    unfold bindIndexing bindMapIndex
    refine .bind (leads_bindMapKeys pass.scope
      (fun node hin => ⟨hnode.child hin, .of_opensTable hnode hopens hin⟩) hc) fun c' r₁ _ hc' => ?_
    refine .ite (fun _ => .throw_bind _ _) fun _ => ?_
    exact .bind (leads_addIndexBackref pass.node hc'.grounded) fun _ r₂ hincluded _ =>
      .pure (hc'.mono hincluded)

include hopens in
/-- A pass for the contents of a collection replaces it by a grounded one. -/
theorem leads_bindCollectionPass (kind : PassKind) :
    Leads S (bindCollectionPass kind pass) r fun _ _ => True := by
  unfold bindCollectionPass storeCollection
  refine .bind (leads_bindContents hnode hopens) fun c r₁ _ hc => ?_
  obtain ⟨id, hc⟩ := hc
  refine .bind (leads_bindIndexing hnode hopens kind hc) fun c' r₂ _ hc' => .get_bind ?_
  refine .ite (fun _ => ?_) fun _ => .throw _
  exact .write fun hr => hr.replaceCollection hc'.grounded _

end

/-- The foreign key of an association to a property references the columns of that property. -/
theorem leads_bindPropertyRef {pass : PropertyRefPass} (hpass : pass.Grounded S r) :
    Leads S (bindPropertyRef pass) r fun _ _ => True := by
  unfold bindPropertyRef
  refine .of_grounded fun hr => .get_bind (.require_bind fun entity _ => ?_)
  refine .require_bind fun p hp => .ite (fun _ => .pure trivial) fun hmade => ?_
  simp only [Bool.or_eq_true, not_or, Bool.not_eq_true] at hmade
  obtain ⟨⟨id, htable, hcolumns⟩, node, hnode, hnames, hforeignKey, hproperty⟩ := hpass
  obtain ⟨hsome, hnames⟩ := hnames hmade.1
  rw [htable]
  refine .writeTable fun t ht hgrounded => hgrounded.addForeignKey ?_
  refine ⟨hcolumns.subset ht, hsome, node, hnode, ⟨hnames, ?_⟩, fun hnone => ?_,
    fun path hpath => ?_⟩
  · cases hname : pass.foreignKeyName with
    | none => exact .inl rfl
    | some name => exact .inr (hforeignKey name hname)
  · rw [hproperty] at hnone
    cases hnone
  · cases hproperty.symm.trans hpath
    exact (hr.referencedProperty hp).2

/-- A deferred pass that is grounded keeps the registry grounded. -/
theorem leads_run {pass : DeferredPass} (hpass : pass.Grounded S r) :
    Leads S pass.run r fun _ _ => True := by
  cases pass with
  | contents kind pass => exact leads_bindCollectionPass hpass.1 hpass.2 kind
  | propertyRef pass => exact leads_bindPropertyRef hpass

end ObjectMapping
