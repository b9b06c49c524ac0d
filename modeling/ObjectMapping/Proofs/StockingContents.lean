import ObjectMapping.Proofs.Stocking

/-!
# Stocking collections

A deferred pass works on a copy of a registered collection, adds contents to it, and writes it back.
What is asked of the collection, of its contents and of its owner is a part of a stock of its own:
`Stock.Contents.Kept` lists what has to be shown of single contents, and of the few writes that a
pass makes besides.  The pass as a whole then keeps the stock.
-/

namespace ObjectMapping

open Binding Registry

namespace Stock

/-- What is asked of collections while their contents are bound. -/
structure Contents (T : Stock) where
  collection : Registry → Collection → Prop
  /-- Of a value among the contents of a collection that belongs to an entity. -/
  content : Registry → String → Value → Prop
  /-- Of the owner of a collection. -/
  owner : Registry → Owner → Prop

variable {T : Stock}

namespace Contents

/-- A collection that belongs to an entity meets what is asked of it. -/
structure Holds (C : T.Contents) (r : Registry) (owner : String) (c : Collection) : Prop where
  ownerEntity : c.ownerEntity = owner
  own : C.collection r c

/-- What has to be shown of single contents. -/
structure Kept (C : T.Contents) : Prop extends T.Kept where
  collection_later : ∀ {r r' : Registry} {c : Collection}, T.upkeep.keeps r r' →
    C.collection r c → C.collection r' c
  content_later : ∀ {r r' : Registry} {owner : String} {v : Value}, T.upkeep.keeps r r' →
    C.content r owner v → C.content r' owner v
  owner_later : ∀ {r r' : Registry} {o : Owner}, T.upkeep.keeps r r' → C.owner r o → C.owner r' o
  registered : ∀ {r : Registry} {role : String} {c : Collection}, T.upkeep.invariant r →
    r.collection? role = some c → C.collection r c
  /-- A collection may get further contents.  An index that is a simple value has a type. -/
  update : ∀ {r : Registry} {c c' : Collection}, C.collection r c → c'.role = c.role →
    c'.ownerEntity = c.ownerEntity → c'.kind = c.kind → c'.metas = c.metas →
    c'.orphanDelete = c.orphanDelete →
    (∀ w ∈ c'.values, C.content r c.ownerEntity w ∨ w ∈ c.values) →
    (∀ s, c'.index = some (.simple s) → s.typeName.isSome ∨ c.index = some (.simple s)) →
      C.collection r c'
  content_simple : ∀ {r : Registry} {owner : String} (v : SimpleValue),
    C.content r owner (.simple v)
  content_any : ∀ {r : Registry} {owner : String} (v : AnyValue), C.content r owner (.any v)
  content_oneToMany : ∀ {r : Registry} {owner : String} (v : OneToMany),
    C.content r owner (.oneToMany v)
  content_component : ∀ {r : Registry} {owner : String} {c : Component},
    T.value r owner (.component c) → C.content r owner (.component c)
  find : ∀ {r : Registry} (name : String), Upholds T.upkeep (Owner.find name) r
    fun o r' => o.name = name ∧ C.owner r' o
  bindCollectionKey : ∀ {r : Registry} (owner : String) (c : Collection) (o : Owner)
    (node : Element), Upholds T.upkeep (bindCollectionKey c o node) r
      fun v r' => C.content r' owner v
  bindManyToOne : ∀ {r : Registry} {scope : Scope} {node : Element} {tag : Tag},
    T.reads scope node → node.tag? = some tag → tag = .manyToMany ∨ tag = .indexManyToMany →
      ∀ (owner : String) (site : ColumnSite), Upholds T.upkeep (bindManyToOne scope site node) r
        fun v r' => T.suits r' owner scope node (.manyToOne v)
  /-- An association may be among the contents once its reference is recorded. -/
  referTo : ∀ {r : Registry} {owner : String} {scope : Scope} {node : Element} {v : ManyToOne},
    T.reads scope node → T.suits r owner scope node (.manyToOne v) →
      Upholds T.upkeep (modify (·.referTo v.toOne)) r fun _ r' => C.content r' owner (.manyToOne v)
  queuePropertyRef : ∀ {r : Registry} (v : ManyToOne), T.upkeep.invariant r →
    T.upkeep.Advances r (r.queuePropertyRef v)
  constrainValue : ∀ {r : Registry} {owner : String} {v : Value}, C.content r owner v →
    T.upkeep.invariant r →
    T.upkeep.Advances r (r.constrainValue v)
  constrainContents : ∀ {r : Registry} {c : Collection} {o : Owner}, C.collection r c →
    C.owner r o → T.upkeep.invariant r → T.upkeep.Advances r (r.constrainContents c o)
  addBackref : ∀ {r : Registry} {c : Collection}, C.collection r c → ∀ (node : Element)
    (kind : BackrefKind), Upholds T.upkeep (addBackref node c kind) r fun _ _ => True
  store : ∀ {r : Registry} {c : Collection}, C.collection r c → T.upkeep.invariant r →
    T.upkeep.Advances r (r.modifyCollection c.role fun _ => c)
  bindPropertyRef : ∀ {r : Registry} (pass : PropertyRefPass),
    Upholds T.upkeep (bindPropertyRef pass) r fun _ _ => True

namespace Kept

variable {C : T.Contents} (h : C.Kept) {r : Registry} {owner : String} {scope : Scope}
  {node : Element} {c c' : Collection}
include h

/-- A collection in progress stays as it was asked for. -/
theorem holds_later {r' : Registry} (hkeeps : T.upkeep.keeps r r') (hc : C.Holds r owner c) :
    C.Holds r' owner c :=
  ⟨hc.ownerEntity, h.collection_later hkeeps hc.own⟩

/-! ## Collections in progress -/

/-- Settings that are no values may be changed. -/
theorem relabel (hc : C.Holds r owner c) (hrole : c'.role = c.role)
    (howner : c'.ownerEntity = c.ownerEntity) (hkind : c'.kind = c.kind)
    (hmetas : c'.metas = c.metas) (horphans : c'.orphanDelete = c.orphanDelete)
    (hvalues : c'.values = c.values) (hindex : c'.index = c.index) : C.Holds r owner c' :=
  ⟨howner.trans hc.ownerEntity, h.update hc.own hrole howner hkind hmetas horphans
    (fun _ hw => .inr (hvalues ▸ hw)) fun _ hs => .inr (hindex ▸ hs)⟩

/-- A collection may get one further value. -/
theorem insert (hc : C.Holds r owner c) {v : Value} (hv : C.content r owner v)
    (hrole : c'.role = c.role) (howner : c'.ownerEntity = c.ownerEntity) (hkind : c'.kind = c.kind)
    (hmetas : c'.metas = c.metas) (horphans : c'.orphanDelete = c.orphanDelete)
    (hvalues : ∀ w ∈ c'.values, w = v ∨ w ∈ c.values)
    (htyped : ∀ s, c'.index = some (.simple s) →
      s.typeName.isSome ∨ c.index = some (.simple s)) : C.Holds r owner c' := by
  refine ⟨howner.trans hc.ownerEntity,
    h.update hc.own hrole howner hkind hmetas horphans (fun w hw => ?_) htyped⟩
  rcases hvalues w hw with rfl | hold
  · exact .inl (hc.ownerEntity ▸ hv)
  · exact .inr hold

/-- The key of a collection may be set. -/
theorem setKey (hc : C.Holds r owner c) {v : Value} (hv : C.content r owner v) :
    C.Holds r owner { c with key := some v } :=
  h.insert hc hv rfl rfl rfl rfl rfl (fun _ => Collection.mem_values_setKey) fun _ => .inr

/-- So may its element. -/
theorem setElement (hc : C.Holds r owner c) {v : Value} (hv : C.content r owner v) :
    C.Holds r owner { c with element := some v } :=
  h.insert hc hv rfl rfl rfl rfl rfl (fun _ => Collection.mem_values_setElement) fun _ => .inr

/-- So may its index, which has a type if it is simple. -/
theorem setIndex (hc : C.Holds r owner c) {v : Value} (hv : C.content r owner v)
    (htyped : ∀ s, v = .simple s → s.typeName.isSome) :
    C.Holds r owner { c with index := some v } :=
  h.insert hc hv rfl rfl rfl rfl rfl (fun _ => Collection.mem_values_setIndex)
    fun s hs => .inl (htyped s (Option.some.inj hs))

/-- So may the identifier of its rows. -/
theorem setIdentifier (hc : C.Holds r owner c) {v : Value} (hv : C.content r owner v) :
    C.Holds r owner { c with identifier := some v } :=
  h.insert hc hv rfl rfl rfl rfl rfl (fun _ => Collection.mem_values_setIdentifier) fun _ => .inr

/-! ## Keys and elements -/

/-- The target of a one-to-many may be resolved. -/
theorem resolveTarget (hc : C.Holds r owner c) (hresolved : c.resolveTarget r = .ok c') :
    C.Holds r owner c' := by
  unfold Collection.resolveTarget at hresolved
  split at hresolved
  · dsimp only at hresolved
    split at hresolved
    · cases hresolved
      exact h.relabel (h.setElement hc (h.content_oneToMany _)) rfl rfl rfl rfl rfl rfl rfl
    · cases hresolved
  · cases hresolved
    exact hc

/-- A check constraint is no value. -/
theorem bindCollectionCheck (hc : C.Holds r owner c) (node : Element) :
    Upholds T.upkeep (bindCollectionCheck c node) r fun c' r' => C.Holds r' owner c' := by
  unfold ObjectMapping.bindCollectionCheck
  split
  · refine .bind (h.ofSteady (steady_changeTable _ (f := (·.addCheck _)) (fun _ => rfl)
      fun t => .addCheck t _)) fun _ r' hkeeps _ => .pure ?_
    exact h.relabel (h.holds_later hkeeps hc) rfl rfl rfl rfl rfl rfl rfl
  · exact .pure hc

/-- A many-to-many becomes the element once its reference is recorded. -/
theorem bindManyToMany (hc : C.Holds r owner c) (hnode : T.reads scope node)
    (htag : node.tag? = some .manyToMany) :
    Upholds T.upkeep (bindManyToMany scope c node) r fun c' r' => C.Holds r' owner c' := by
  unfold ObjectMapping.bindManyToMany
  refine .bind (h.bindManyToOne hnode htag (.inl rfl) owner _) fun v r₁ hkeeps hv => ?_
  refine .bind (h.referTo hnode hv) fun _ r₂ hkeeps₁ hcontent => ?_
  refine .bind (h.ofSteady (.mapM steady_bindFilterUse _)) fun filters r₃ hkeeps₂ _ => ?_
  refine .ite (fun _ => .throw_bind _ _) fun _ => .pure ?_
  have hc₃ := h.holds_later hkeeps₂ (h.holds_later hkeeps₁ (h.holds_later hkeeps hc))
  exact h.relabel (h.setElement hc₃ (h.content_later hkeeps₂ hcontent)) rfl rfl rfl rfl rfl rfl rfl

/-- A component among the contents of a collection is bound for its owner. -/
theorem bindContentsComponent {o : Owner} (ho : o.name = owner) (hnode : T.reads scope node)
    (hcomposite : node.IsComposite) (c : Collection) (part : String) (nullable : Bool) :
    Upholds T.upkeep (bindComponent scope (contentsSite c o part nullable) node) r
      fun v r' => C.content r' owner (.component v) := by
  subst ho
  exact (h.bindComponent scope (contentsSite c o part nullable) node hnode hcomposite).mono
    fun _ _ _ hv => h.content_component (h.component hv)

/-- A child of a collection adds contents to it at most. -/
theorem bindContent {o : Owner} (ho : o.name = owner) (hc : C.Holds r owner c)
    (hnode : T.reads scope node) :
    Upholds T.upkeep (bindContent scope o c node) r fun c' r' => C.Holds r' owner c' := by
  unfold ObjectMapping.bindContent
  dsimp only
  split
  · exact .bind (h.bindCollectionKey owner c o node) fun v r' hkeeps hv =>
      .pure (h.setKey (h.holds_later hkeeps hc) hv)
  · refine .bind (h.ofSteady (steady_bindSimpleValue _ _)) fun v r' hkeeps _ => .pure ?_
    have hset := h.setElement (h.holds_later hkeeps hc) (h.content_simple v)
    exact h.relabel hset rfl rfl rfl rfl rfl rfl rfl
  · exact .bind (h.bindManyToMany hc hnode ‹_›) fun c' r' _ hc' =>
      .pure (h.relabel hc' rfl rfl rfl rfl rfl rfl rfl)
  · have hcomposite := Element.isComposite_of_tag ‹_› rfl
    refine .bind (h.bindContentsComponent ho hnode hcomposite c _ _)
      fun v r' hkeeps hv => .pure ?_
    have hset := h.setElement (h.holds_later hkeeps hc) hv
    exact h.relabel hset rfl rfl rfl rfl rfl rfl rfl
  · refine .bind (h.ofSteady (steady_bindAny _ _ _)) fun v r' hkeeps _ => .pure ?_
    have hset := h.setElement (h.holds_later hkeeps hc) (h.content_any v)
    exact h.relabel hset rfl rfl rfl rfl rfl rfl rfl
  · exact .ofExcept_bind fun _ _ => .pure (h.relabel hc rfl rfl rfl rfl rfl rfl rfl)
  · exact .pure hc

/-- The children of a collection are bound one after another. -/
theorem bindContentsOf {o : Owner} {children : List Element}
    (hchildren : ∀ node ∈ children, T.reads scope node) (ho : o.name = owner)
    (hc : C.Holds r owner c) :
    Upholds T.upkeep (bindContentsOf scope o c children) r fun c' r' => C.Holds r' owner c' := by
  induction children generalizing r c with
  | nil => exact .pure hc
  | cons node rest ih =>
    rw [List.forall_mem_cons] at hchildren
    exact .bind (h.bindContent ho hc hchildren.1) fun c' r' _ hc' => ih hchildren.2 hc'

/-- A backref for an index is added as any other. -/
theorem addIndexBackref (hc : C.Holds r owner c) (node : Element) :
    Upholds T.upkeep (addIndexBackref node c) r fun _ _ => True :=
  .ite (fun _ => .pure trivial) fun _ => h.addBackref hc.own node .index

/-! ## Passes -/

section

variable {pass : CollectionPass} (hnode : T.reads pass.scope pass.node)

include hnode in
/-- The key and the element of a registered collection are bound. -/
theorem bindContents :
    Upholds T.upkeep (bindContents pass) r fun c r' => C.Holds r' c.ownerEntity c := by
  unfold ObjectMapping.bindContents
  refine .of_invariant fun hr => .get_bind (.require_bind fun c hfound => ?_)
  have hc : C.Holds r c.ownerEntity c := ⟨rfl, h.registered hr hfound⟩
  refine .bind (h.find c.ownerEntity) fun o r₁ hkeeps ⟨hname, ho⟩ => .get_bind ?_
  refine .ofExcept_bind fun c₁ hresolved => ?_
  have hc₁ := h.resolveTarget (h.holds_later hkeeps hc) hresolved
  refine .bind (h.bindCollectionCheck hc₁ pass.node) fun c₂ r₂ hkeeps₁ hc₂ => ?_
  refine .bind (h.bindContentsOf (fun _ hin => h.child hnode hin) hname hc₂)
    fun c₃ r₃ hkeeps₂ hc₃ => ?_
  have ho₃ := h.owner_later hkeeps₂ (h.owner_later hkeeps₁ ho)
  refine .bind (.write (h.constrainContents hc₃.own ho₃)) fun _ r₄ hkeeps₃ _ => ?_
  have hc₄ := h.collection_later hkeeps₃ hc₃.own
  exact .bind (h.addBackref hc₄ pass.node .collection) fun _ r₅ hkeeps₄ _ =>
    .pure ⟨rfl, h.collection_later hkeeps₄ hc₄⟩

/-- The rows of a bag are identified by a simple value. -/
theorem bindBagIdentifier (hc : C.Holds r owner c) :
    Upholds T.upkeep (bindBagIdentifier pass c) r fun c' r' => C.Holds r' owner c' := by
  unfold ObjectMapping.bindBagIdentifier
  refine .require_bind fun node _ => .bind (h.ofSteady (steady_bindSimpleValue _ _))
    fun v r₁ hkeeps _ => .ofExcept_bind fun v' _ => .pure ?_
  exact h.setIdentifier (h.holds_later hkeeps hc) (h.content_simple v')

/-- The positions of a list are integers. -/
theorem bindListIndex (hc : C.Holds r owner c) :
    Upholds T.upkeep (bindListIndex pass c) r fun c' r' => C.Holds r' owner c' := by
  unfold ObjectMapping.bindListIndex
  refine .require_bind fun node _ => .bind (h.ofSteady (steady_bindSimpleValue _ _))
    fun v r₁ hkeeps _ => .ofExcept_bind fun base _ => ?_
  have hset := h.setIndex (h.holds_later hkeeps hc)
    (h.content_simple { v with typeName := some "integer" }) fun s hs => by cases hs; rfl
  have hindexed : C.Holds r₁ owner { c with
      index := some (.simple { v with typeName := some "integer" })
      baseIndex := base.getD 0
      indexNodeName := node.attribute? "node" } := h.relabel hset rfl rfl rfl rfl rfl rfl rfl
  exact .bind (h.addIndexBackref hindexed pass.node) fun _ r₂ hkeeps₁ _ =>
    .pure (h.holds_later hkeeps₁ hindexed)

/-- The keys of a map are set by the child that describes them. -/
theorem bindMapKey (hc : C.Holds r owner c) (hnode : T.reads scope node) :
    Upholds T.upkeep (bindMapKey scope c node) r fun c' r' => C.Holds r' owner c' := by
  unfold ObjectMapping.bindMapKey
  dsimp only
  split
  · refine .bind (h.ofSteady (steady_bindSimpleValue _ _)) fun v r₁ hkeeps _ => ?_
    refine .ite (fun _ => .throw_bind _ _) fun htyped => .pure ?_
    have hset := h.setIndex (h.holds_later hkeeps hc) (h.content_simple v) fun s hs => by
      cases hs
      exact Option.isSome_iff_ne_none.mpr fun hnone => htyped (Option.isNone_iff_eq_none.mpr hnone)
    exact h.relabel hset rfl rfl rfl rfl rfl rfl rfl
  · refine .bind (h.bindManyToOne hnode ‹_› (.inr rfl) owner _) fun v r₁ hkeeps hv => ?_
    refine .bind (h.referTo hnode hv) fun _ r₂ hkeeps₁ hcontent => ?_
    refine .bind (.write (h.queuePropertyRef v)) fun _ r₃ hkeeps₂ _ => ?_
    have hcontent₃ := h.content_later hkeeps₂ hcontent
    refine .bind (.write (h.constrainValue hcontent₃)) fun _ r₄ hkeeps₃ _ => .pure ?_
    have hc₂ := h.holds_later hkeeps₁ (h.holds_later hkeeps hc)
    have hc₄ := h.holds_later hkeeps₃ (h.holds_later hkeeps₂ hc₂)
    exact h.setIndex hc₄ (h.content_later hkeeps₃ hcontent₃) nofun
  · refine .bind (h.find c.ownerEntity) fun o r₁ hkeeps ⟨ho, _⟩ => ?_
    have hcomposite := Element.isComposite_of_tag ‹_› rfl
    refine .bind (h.bindContentsComponent (ho.trans hc.ownerEntity) hnode hcomposite c _ _)
      fun v r₂ hkeeps₁ hv => .pure ?_
    exact h.setIndex (h.holds_later hkeeps₁ (h.holds_later hkeeps hc)) hv nofun
  · exact .bind (h.ofSteady (steady_bindAny _ _ _)) fun v r₁ hkeeps _ =>
      .pure (h.setIndex (h.holds_later hkeeps hc) (h.content_any v) nofun)
  · exact .pure hc

/-- The children of a map are bound one after another. -/
theorem bindMapKeys {children : List Element}
    (hchildren : ∀ node ∈ children, T.reads scope node) (hc : C.Holds r owner c) :
    Upholds T.upkeep (bindMapKeys scope c children) r fun c' r' => C.Holds r' owner c' := by
  induction children generalizing r c with
  | nil => exact .pure hc
  | cons node rest ih =>
    rw [List.forall_mem_cons] at hchildren
    exact .bind (h.bindMapKey hc hchildren.1) fun c' r' _ hc' => ih hchildren.2 hc'

include hnode in
/-- So is what the collection has besides. -/
theorem bindIndexing (kind : PassKind) (hc : C.Holds r owner c) :
    Upholds T.upkeep (bindIndexing kind pass c) r fun c' r' => C.Holds r' owner c' := by
  cases kind with
  | plain => exact .pure hc
  | identifierBag => exact h.bindBagIdentifier hc
  | list => exact h.bindListIndex hc
  | map =>
    unfold ObjectMapping.bindIndexing bindMapIndex
    refine .bind (h.bindMapKeys (fun node hin => h.child hnode hin) hc) fun c' r₁ _ hc' => ?_
    refine .ite (fun _ => .throw_bind _ _) fun _ => ?_
    exact .bind (h.addIndexBackref hc' pass.node) fun _ r₂ hkeeps _ =>
      .pure (h.holds_later hkeeps hc')

include hnode in
/-- The collection is written back. -/
theorem bindCollectionPass (kind : PassKind) :
    Upholds T.upkeep (bindCollectionPass kind pass) r fun _ _ => True := by
  unfold ObjectMapping.bindCollectionPass storeCollection
  refine .bind (h.bindContents hnode) fun c r₁ _ hc => ?_
  refine .bind (h.bindIndexing hnode kind hc) fun c' r₂ _ hc' => .get_bind ?_
  exact .ite (fun _ => .write (h.store hc'.own)) fun _ => .throw _

end

/-- A deferred pass keeps the stock if its element is met in its scope. -/
theorem run {pass : DeferredPass}
    (hpass : ∀ kind contents, pass = .contents kind contents →
      T.reads contents.scope contents.node) :
    Upholds T.upkeep pass.run r fun _ _ => True := by
  cases pass with
  | contents kind pass => exact h.bindCollectionPass (hpass kind pass rfl) kind
  | propertyRef pass => exact h.bindPropertyRef pass

end Kept

end Contents

end Stock

end ObjectMapping
