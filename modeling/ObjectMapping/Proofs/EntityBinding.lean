import ObjectMapping.Proofs.ComponentBinding

/-!
# Binding entities

An entity is grounded by the time that it is registered: its table exists, and so do the columns
of its identifier, its version, its discriminator and the key that it is joined by.  While a
root is being prepared, the columns of its identifier are those of its table, so that they can
become its primary key.
-/

namespace ObjectMapping

open Binding Registry

variable {S : Source} {r : Registry} {id : TableId}

/-! ## Stored values -/

/-- Every value that a grounded entity stores is grounded. -/
theorem Entity.Grounded.value {e : Entity} (h : e.Grounded S r) {v : Value} (hv : v ∈ e.values) :
    v.Grounded S r := by
  rcases Entity.mem_values.mp hv with ⟨p, hp, rfl⟩ | ⟨j, hj, hkey⟩ | hkind
  · rcases List.mem_append.mp hp with hown | hjoined
    · exact (h.properties p hown).1
    · obtain ⟨j, hj, hin⟩ := List.mem_flatMap.mp hjoined
      exact ((h.joins j hj).properties p hin).1
  · exact (h.joins j hj).key v hkey
  · exact h.kind v hkind

namespace Registry.Grounded

/-- The identifier of a registered hierarchy is grounded. -/
theorem identifierValue (hr : r.Grounded S) {name : String} {v : Value}
    (h : r.identifierValue? name = some v) : v.Grounded S r := by
  obtain ⟨e, hancestor, hv⟩ := stored_of_identifierValue? h
  obtain ⟨name', hname⟩ := hancestor.registered
  exact (hr.entities name' e hname).value hv

/-- A property that is referred to is grounded, and its path leads to it from the entity or from
a superclass. -/
theorem referencedProperty (hr : r.Grounded S) {entity path : String} {p : Property}
    (h : r.referencedProperty? entity path = some p) :
    p.value.Grounded S r ∧ ∃ e, r.Ancestor entity e ∧
      ((pathSteps path).1 :: (pathSteps path).2, p.value.columnNames) ∈ e.spans := by
  obtain ⟨e, hancestor, ⟨v, hv, hparts⟩, hspan⟩ := stored_of_referencedProperty? h
  obtain ⟨name', hname⟩ := hancestor.registered
  have hgrounded := (hr.entities name' e hname).value hv
  exact ⟨fun part hpart => hgrounded part (hparts hpart), e, hancestor, hspan⟩

end Registry.Grounded

/-! ## Entities in preparation -/

/-- The columns of the identifier of a root. -/
def Entity.keyColumns (e : Entity) : List String :=
  ((e.root?.bind RootData.identifierValue?).map Value.columnNames).getD []

/-- An entity in preparation is grounded, and its table has the columns of its identifier. -/
structure Entity.PreparedIn (S : Source) (r : Registry) (id : TableId) (e : Entity) : Prop where
  table : e.table = id
  grounded : e.Grounded S r
  key : r.HasColumns id e.keyColumns

namespace Entity.PreparedIn

variable {e : Entity}

/-- What is prepared stays prepared. -/
theorem mono {r' : Registry} (h : r.IncludedIn r') (he : e.PreparedIn S r id) :
    e.PreparedIn S r' id := ⟨he.table, he.grounded.mono h, he.key.mono h⟩

/-- A grounded property may be added to a prepared entity. -/
theorem addProperty (h : e.PreparedIn S r id) {p : Property} (hp : p.Grounded S r) :
    (e.addProperty p).PreparedIn S r id :=
  ⟨h.table, (h.grounded.addProperty hp).grounded, h.key⟩

/-- The data of a root may be changed if its new values are grounded, and a new identifier has
its columns in the table. -/
theorem modifyRoot (h : e.PreparedIn S r id) {f : RootData → RootData}
    (hidentifier : ∀ data, (f data).identifier = data.identifier ∨
      ∃ binding, (f data).identifier = some binding ∧ r.HasColumns id binding.value.columnNames)
    (hvalues : ∀ data, ∀ v ∈ (f data).values, v ∈ data.values ∨ v.Grounded S r) :
    (e.modifyRoot f).PreparedIn S r id := by
  refine ⟨h.table, h.grounded.modifyRoot fun data hdata v hv => ?_, ?_⟩
  · rcases hvalues data v hv with hold | hnew
    · exact h.grounded.kind v (Entity.values_of_root? hdata ▸ hold)
    · exact hnew
  · have hkey := h.key
    obtain ⟨_, _, _, _, kind, _⟩ := e
    cases kind with
    | root data =>
      have hcolumns : ∀ data : RootData,
          ((some data).bind RootData.identifierValue?).map Value.columnNames
            = data.identifier.map fun binding => binding.value.columnNames := by
        intro data
        cases hbinding : data.identifier <;> simp [RootData.identifierValue?, hbinding]
      simp only [Entity.keyColumns, Entity.modifyRoot, Entity.root?, EntityKind.modifyRoot,
        EntityKind.root?, hcolumns] at hkey ⊢
      rcases hidentifier data with hsame | ⟨binding, hnew, hin⟩
      · rwa [hsame]
      · rwa [hnew]
    | subclass | joinedSubclass | unionSubclass => exact hkey

/-- The data of a root may be changed if neither the identifier nor any value is. -/
theorem modifyRoot_of_same (h : e.PreparedIn S r id) {f : RootData → RootData}
    (hidentifier : ∀ data, (f data).identifier = data.identifier)
    (hvalues : ∀ data, (f data).values = data.values) : (e.modifyRoot f).PreparedIn S r id :=
  h.modifyRoot (fun data => .inl (hidentifier data)) fun data _ hv => .inl (hvalues data ▸ hv)

/-- The identifier of a root may be set to one in its table. -/
theorem setIdentifier (h : e.PreparedIn S r id) {binding : IdentifierBinding}
    (hbinding : binding.value.GroundedIn S r id) {f : RootData → RootData}
    (hidentifier : ∀ data, (f data).identifier = some binding)
    (hmapper : ∀ data, (f data).identifierMapper = data.identifierMapper)
    (hdiscriminator : ∀ data, (f data).discriminator = data.discriminator) :
    (e.modifyRoot f).PreparedIn S r id := by
  refine h.modifyRoot (fun data => .inr ⟨binding, hidentifier data, hbinding.2⟩) ?_
  intro data v hv
  rw [RootData.values, RootData.identifierValue?, hidentifier, hmapper, hdiscriminator] at hv
  rcases List.mem_append.mp hv with hv | hlast
  · rcases List.mem_append.mp hv with hfirst | hmiddle
    · cases List.mem_singleton.mp hfirst
      exact .inr hbinding.1
    · exact .inl (List.mem_append_left _ (List.mem_append_right _ hmiddle))
  · exact .inl (List.mem_append_right _ hlast)

end Entity.PreparedIn

/-- The data of the root of a hierarchy may be changed; it is an error if there are none. -/
theorem leads_changeRoot {e : Entity} {f : RootData → RootData}
    (h : (e.modifyRoot f).PreparedIn S r id) :
    Leads S (changeRoot e f) r fun e' r' => e'.PreparedIn S r' id :=
  .ite (fun _ => .pure h) fun _ => .throw _

/-! ## Identifiers, versions and discriminators -/

/-- Whether a simple value is grounded depends on its storage only. -/
theorem SimpleValue.GroundedBy.congr {v v' : SimpleValue} {P : Element → Prop}
    (h : v.GroundedBy S r P) (htable : v'.table = v.table)
    (hselectables : v'.selectables = v.selectables)
    (hforeignKey : v'.foreignKeyName = v.foreignKeyName) : v'.GroundedBy S r P := by
  unfold SimpleValue.GroundedBy SimpleValue.DescribedBy SimpleValue.columnNames SimpleValue.columns
    SimpleValue.hasFormula
  rw [htable, hselectables, hforeignKey]
  exact h

/-- Turning a value into an identifier keeps its storage. -/
theorem SimpleValue.storage_of_asIdentifier {v v' : SimpleValue} {scope : Scope} {node : Element}
    (h : v.asIdentifier scope node = .ok v') : v'.table = v.table ∧
      v'.selectables = v.selectables ∧ v'.foreignKeyName = v.foreignKeyName := by
  unfold SimpleValue.asIdentifier at h
  obtain ⟨_, -, h⟩ := except_bind_eq_ok.mp h
  cases h
  exact ⟨rfl, rfl, rfl⟩

/-- A grounded simple value is a grounded value in its table. -/
theorem SimpleValue.GroundedBy.groundedIn {v : SimpleValue} {P : Element → Prop}
    (h : v.GroundedBy S r P) (htable : v.table = some id) : (Value.simple v).GroundedIn S r id :=
  ⟨Value.grounded_simple h, h.hasColumns htable⟩

section

variable {e : Entity} (he : e.PreparedIn S r id) (hid : r.Holds id) (scope : Scope)
  {node : Element} (hnode : S.Has node)
include he hid hnode

/-- A simple identifier is a value or a property of the entity. -/
theorem leads_bindSimpleId :
    Leads S (bindSimpleId scope e node) r fun e' r' => e'.PreparedIn S r' id := by
  unfold bindSimpleId
  refine .bind (leads_bindSimpleValue (congrArg some he.table) hid hnode)
    fun v r₁ hincluded hv => ?_
  have he₁ := he.mono hincluded
  refine .get_bind (.ite (fun _ => .throw_bind _ _) fun _ => .ofExcept_bind fun v' hv' => ?_)
  obtain ⟨htable, hselectables, hforeignKey⟩ := SimpleValue.storage_of_asIdentifier hv'
  have hin := (hv.1.congr htable hselectables hforeignKey).groundedIn (htable.trans hv.2)
  split
  · refine .bind (P := fun binding r' => r' = r₁ ∧ binding.value = .simple v')
      (.map (P := fun p r' => r' = r₁ ∧ p.value = .simple v')
        (.ofExcept fun p hp => ⟨rfl, (boundAs_of_bindProperty hp).value⟩) fun _ _ _ hp => hp) ?_
    rintro binding r₂ - ⟨rfl, hbinding⟩
    exact leads_changeRoot (he₁.setIdentifier (hbinding ▸ hin) (fun _ => rfl) (fun _ => rfl)
      fun _ => rfl)
  · have hunnamed : (IdentifierBinding.unnamed (.simple v')).value.GroundedIn S r₁ id := hin
    exact leads_changeRoot (he₁.setIdentifier hunnamed (fun _ => rfl) (fun _ => rfl) fun _ => rfl)

/-- The shadow of a composite identifier is in the table of its entity. -/
theorem leads_bindIdentifierMapper (path : String) :
    Leads S (bindIdentifierMapper scope e path node) r fun e' r' => e'.PreparedIn S r' id := by
  unfold bindIdentifierMapper
  refine .bind (leads_bindComponent scope (congrArg some he.table) hid node hnode (.inl he.table))
    fun mapper r' hincluded hmapper => ?_
  have he' := (he.mono hincluded).addProperty (p := {
    name := identifierMapperName
    nodeName := some "id"
    value := .component mapper
    access := "embedded"
    insertable := false
    updatable := false }) ⟨hmapper.1, trivial⟩
  refine leads_changeRoot (he'.modifyRoot (fun _ => .inl rfl) fun data v hv => ?_)
  rcases List.mem_append.mp hv with hv | hlast
  · rcases List.mem_append.mp hv with hfirst | hmiddle
    · exact .inl (List.mem_append_left _ (List.mem_append_left _ hfirst))
    · cases List.mem_singleton.mp hmiddle
      exact .inr hmapper.1
  · exact .inl (List.mem_append_right _ hlast)

/-- A composite identifier is in the table of its entity. -/
theorem leads_bindCompositeId :
    Leads S (bindCompositeId scope e node) r fun e' r' => e'.PreparedIn S r' id := by
  unfold bindCompositeId
  refine .ite (fun _ => .throw_bind _ _) fun _ => .bind
    (leads_bindComponent scope (congrArg some he.table) hid node hnode (.inl he.table)) ?_
  intro key r₁ hincluded hkey
  have he₁ := he.mono hincluded
  have hid₁ := hid.mono hincluded
  extract_lets key' finish
  have hfinish : ∀ e₁ r', r₁.IncludedIn r' → e₁.PreparedIn S r' id →
      Leads S (finish e₁) r' fun e' r' => e'.PreparedIn S r' id := by
    intro e₁ r' hincluded' hprepared
    have hkey₁ := hkey.mono hincluded'
    unfold finish
    dsimp only
    split
    · refine .ofExcept_bind fun p hp => ?_
      have hvalue : (IdentifierBinding.named p).value.GroundedIn S r' id := by
        rw [IdentifierBinding.value, (boundAs_of_bindProperty hp).value]
        exact hkey₁.component_congr rfl rfl
      exact leads_changeRoot (hprepared.setIdentifier hvalue (fun _ => rfl) (fun _ => rfl)
        fun _ => rfl)
    · refine leads_changeRoot (hprepared.setIdentifier ?_ (fun _ => rfl) (fun _ => rfl)
        fun _ => rfl)
      split <;> exact hkey₁.component_congr rfl rfl
  clear_value finish
  refine .ite (fun _ => ?_) fun _ => hfinish e r₁ (.refl r₁) he₁
  exact .bind (leads_bindIdentifierMapper he₁ hid₁ scope hnode _) fun e' r₂ hincluded' he' =>
    hfinish e' r₂ hincluded' he'

/-- A version is a property of the entity. -/
theorem leads_bindVersion :
    Leads S (bindVersion scope e node) r fun e' r' => e'.PreparedIn S r' id := by
  unfold bindVersion
  refine .ofExcept_bind fun name _ => .bind
    (leads_bindSimpleValue (congrArg some he.table) hid hnode) fun v r₁ hincluded hv => ?_
  have he₁ := he.mono hincluded
  refine .ofExcept_bind fun p hp => .ite (fun _ => .throw_bind _ _) fun _ => ?_
  refine .bind (leads_changeRoot (he₁.modifyRoot_of_same (fun _ => rfl) fun _ => rfl))
    fun e' r₂ hincluded' he' => .pure (he'.addProperty ?_)
  have hvalue := (boundAs_of_bindProperty hp).value
  have hgrounded : p.value.Grounded S r₁ := hvalue ▸ Value.grounded_simple (hv.1.congr rfl rfl rfl)
  exact ⟨hgrounded.mono hincluded', by rw [hvalue]; trivial⟩

/-- The discriminator is a value of the entity. -/
theorem leads_bindDiscriminator :
    Leads S (bindDiscriminator e node) r fun e' r' => e'.PreparedIn S r' id := by
  unfold bindDiscriminator
  refine .bind (leads_bindSimpleValue (congrArg some he.table) hid hnode)
    fun v r₁ hincluded hv => ?_
  refine leads_changeRoot ((he.mono hincluded).modifyRoot (fun _ => .inl rfl) fun data w hw => ?_)
  rcases List.mem_append.mp hw with hold | hnew
  · exact .inl (List.mem_append_left _ hold)
  · cases List.mem_singleton.mp hnew
    exact .inr (Value.grounded_simple (hv.1.congr rfl rfl rfl))

omit hid hnode in
/-- A cache holds no value. -/
theorem leads_bindCache (node : Element) :
    Leads S (bindCache e node) r fun e' r' => e'.PreparedIn S r' id := by
  unfold bindCache
  exact .ofExcept_bind fun _ _ => .pure (he.modifyRoot_of_same (fun _ => rfl) fun _ => rfl)

/-- A child of a class that describes its rows keeps the entity in preparation. -/
theorem leads_bindRowChild :
    Leads S (bindRowChild scope e node) r fun e' r' => e'.PreparedIn S r' id := by
  unfold bindRowChild
  split
  · exact leads_bindSimpleId he hid scope hnode
  · exact leads_bindCompositeId he hid scope hnode
  · exact leads_bindVersion he hid scope hnode
  · exact leads_bindVersion he hid scope hnode
  · exact leads_bindDiscriminator he hid hnode
  · exact leads_bindCache he node
  · exact .pure he

end

/-- The children of a class that describe its rows keep the entity in preparation. -/
theorem leads_bindRow (scope : Scope) {e : Entity} (he : e.PreparedIn S r id) (hid : r.Holds id)
    {children : List Element} (hchildren : ∀ c ∈ children, S.Has c) :
    Leads S (bindRow scope e children) r fun e' r' => e'.PreparedIn S r' id := by
  induction children generalizing r e with
  | nil => exact .pure he
  | cons node rest ih =>
    rw [List.forall_mem_cons] at hchildren
    refine .bind (leads_bindRowChild he hid scope hchildren.1) fun e' r' hincluded he' => ?_
    exact ih he' (hid.mono hincluded) hchildren.2

/-! ## Keys and headers -/

/-- The key of a joined table is grounded in it. -/
theorem leads_bindDependantKey (hid : r.Holds id) (referenced path : String) {node : Element}
    (hnode : S.Has node) (hkey : node.tag? = some .key) :
    Leads S (bindDependantKey id referenced path node) r fun v r' => v.Grounded S r' := by
  unfold bindDependantKey
  refine .of_grounded fun hr => .get_bind (.require_bind fun identifier hidentifier => ?_)
  have hwrapped := hr.identifierValue hidentifier
  refine .bind (leads_bindSimpleValue rfl hid hnode) fun v r₁ hincluded hv => ?_
  have hbase : SimpleValue.GroundedTo S r₁
      { v with cascadeDelete := node.attributeIs "on-delete" "cascade" } none :=
    Element.referredProperty?_of_key hkey ▸ hv.1.congr rfl rfl rfl
  refine .bind (.writeTable fun t ht hgrounded => hgrounded.setPrimaryKey
    ((hbase.hasColumns hv.2).subset ht)) fun _ r₂ hincluded' _ => ?_
  have hbase₂ := hbase.mono hincluded'
  refine .bind (.write fun hr => (hr.constrainTo hbase₂ _).1) fun _ r₃ hincluded'' _ => .pure ?_
  exact Value.grounded_dependant (hbase₂.mono hincluded'')
    (hwrapped.mono (hincluded.trans (hincluded'.trans hincluded''))) false true

/-- A check changes neither columns nor keys. -/
theorem leads_checkTable (id : TableId) (node : Element) :
    Leads S (checkTable id node) r fun _ _ => True := by
  unfold checkTable
  split
  · exact .writeTable fun t _ hgrounded => hgrounded.relabel rfl rfl rfl rfl rfl rfl rfl
  · exact .pure trivial

/-- A header is grounded if its table exists and the values of its kind are grounded. -/
theorem leads_bindHeader (scope : Scope) (node : Element) (name : String) {kind : EntityKind}
    {table : TableId} (htable : r.Holds table) (hkind : ∀ v ∈ kind.values, v.Grounded S r) :
    Leads S (bindHeader scope node name kind table) r fun e r' =>
      e.table = table ∧ e.kind = kind ∧ e.Grounded S r' := by
  unfold bindHeader
  refine .bind (.of_same (same_importEntity scope name))
    fun _ r' hincluded _ => .ofExcept_bind fun _ _ => .ofExcept_bind fun _ _ => .pure ?_
  refine ⟨rfl, rfl, htable.mono hincluded, ?_, ?_, fun v hv => (hkind v hv).mono hincluded⟩
  · exact fun _ hp => absurd hp List.not_mem_nil
  · exact fun _ hj => absurd hj List.not_mem_nil

/-! ## Opening entities -/

/-- A request for a table changes nothing that is grounded. -/
theorem leads_requestTable (scope : Scope) (node : Element) (entity : String) (isAbstract : Bool) :
    Leads S (requestTable scope node entity isAbstract) r fun _ _ => True :=
  .of_same (same_requestTable scope node entity isAbstract)

/-- The table of a registered superclass exists. -/
theorem leads_superclassTable (superclass : String) :
    Leads S (superclassTable superclass) r fun id r' => r'.Holds id := by
  unfold superclassTable
  refine .of_grounded fun hr => .get_bind (.require _ fun id hfound => ?_)
  obtain ⟨e, he, rfl⟩ := Option.map_eq_some_iff.mp hfound
  exact (hr.entities superclass e he).table

/-- A subclass is grounded by the time that it can be registered. -/
theorem leads_prepareSubclass (kind : SubclassKind) (scope : Scope) (superclass : String)
    {node : Element} (hnode : S.Has node) :
    Leads S (prepareSubclass kind scope superclass node) r fun e r' => e.Grounded S r' := by
  have hno : ∀ v ∈ ([] : List Value), v.Grounded S r := fun _ hv => absurd hv List.not_mem_nil
  cases kind with
  | plain =>
    refine .bind (leads_superclassTable superclass) fun table r₁ _ htable => ?_
    refine .ofExcept_bind fun name _ => ?_
    exact (leads_bindHeader scope node name htable fun _ hv => absurd hv List.not_mem_nil).mono
      fun _ _ _ he => he.2.2
  | joined =>
    refine .ofExcept_bind fun name _ => .bind (leads_requestTable _ _ _ _) fun q r₁ _ _ => ?_
    refine .bind (leads_openTable q) fun table r₂ _ htable => ?_
    refine .bind (leads_commentTable table node) fun _ r₃ hincluded _ => ?_
    refine .require_bind fun keyNode hkeyNode => ?_
    have hkeyHas := hnode.child (Element.mem_children_of_child? hkeyNode)
    have htable₃ := htable.mono hincluded
    refine .bind (leads_bindDependantKey htable₃ _ _ hkeyHas
      (Element.tag?_of_child?_key hkeyNode)) fun key r₄ hincluded' hkey => ?_
    refine .bind (leads_checkTable table node) fun _ r₅ hincluded'' _ => ?_
    refine (leads_bindHeader scope node name ((htable₃.mono hincluded').mono hincluded'') ?_).mono
      fun _ _ _ he => he.2.2
    intro v hv
    cases List.mem_singleton.mp hv
    exact hkey.mono hincluded''
  | union =>
    refine .bind (leads_superclassTable superclass) fun parent r₁ _ hparent => ?_
    refine .ofExcept_bind fun name _ => .bind (leads_requestTable _ _ _ _)
      fun q r₂ hincluded _ => ?_
    refine .get_bind (.ofExcept_bind fun ⟨r₃, table⟩ hadd => ?_)
    -- The registry that is written back is the one that the new table was added to.
    have hset : Leads S (set r₃ : Binding PUnit) r₂ fun _ r' => r'.Holds table :=
      .modify fun hr => hr.addDenormalizedTable (hparent.mono hincluded) hadd
    refine .bind hset fun _ r₄ _ htable => ?_
    exact (leads_bindHeader scope node name htable fun _ hv => absurd hv List.not_mem_nil).mono
      fun _ _ _ he => he.2.2

/-- The registration of a subclass keeps all entities grounded. -/
theorem leads_registerSubclass {e : Entity} (he : e.Grounded S r) (superclass : String)
    (strategy : PersisterStrategy) :
    Leads S (registerSubclass e superclass strategy) r fun _ _ => True := by
  unfold registerSubclass
  refine .bind (.register fun r' hr hadd => hr.addEntity he hadd) fun _ r₁ _ _ => ?_
  refine .bind (.writeEntity fun s hs => ?_) fun _ r₂ _ _ => ?_
  · exact ⟨⟨rfl, rfl, rfl, fun _ h => h, fun _ h => h⟩, hs.table, hs.properties, hs.joins, hs.kind⟩
  · refine .write fun hr => ?_
    split
    · exact hr.advances
    · unfold Registry.modifyRootOf
      split
      · next root _ =>
        refine hr.modifyEntity fun e' he' => ?_
        exact (hr.entities root.name e' he').modifyRoot_of_same (fun _ => rfl) fun _ => rfl
      · exact hr.advances

/-- A subclass is opened grounded, with its key if it has a table of its own. -/
theorem leads_openSubclass (kind : SubclassKind) (scope : Scope) (superclass : String)
    {node : Element} (hnode : S.Has node) :
    Leads S (openSubclass kind scope superclass node) r fun _ _ => True := by
  unfold openSubclass
  refine .bind (leads_prepareSubclass kind scope superclass hnode) fun e r₁ _ he => ?_
  exact .bind (leads_registerSubclass he superclass _) fun _ _ _ _ => .pure trivial

/-- A root class is grounded by the time that it can be registered. -/
theorem leads_prepareRootClass (scope : Scope) {node : Element} (hnode : S.Has node) :
    Leads S (prepareRootClass scope node) r fun e r' => e.Grounded S r' := by
  unfold prepareRootClass
  refine .ofExcept_bind fun name _ => .bind (leads_requestTable _ _ _ _) fun q r₁ _ _ => ?_
  refine .bind (leads_openTable q) fun table r₂ _ htable => ?_
  refine .bind (leads_commentTable table node) fun _ r₃ hincluded _ => ?_
  have htable₃ := htable.mono hincluded
  refine .bind (leads_bindHeader scope node name htable₃ fun _ hv => absurd hv List.not_mem_nil)
    fun e r₄ hincluded₃ he => ?_
  refine .bind (leads_checkTable table node) fun _ r₅ hincluded₄ _ => ?_
  have hprepared : e.PreparedIn S r₅ table := by
    obtain ⟨hetable, hkind, hgrounded⟩ := he
    refine ⟨hetable, hgrounded.mono hincluded₄, ?_⟩
    rw [Entity.keyColumns, Entity.root?, hkind]
    exact ((htable₃.mono hincluded₃).mono hincluded₄).hasColumns_nil
  extract_lets rows
  have hrows : ∀ u r', r₅.IncludedIn r' → Leads S (rows u) r' fun e r' => e.Grounded S r' := by
    intro u r₆ hincluded₅
    have htable₆ := ((htable₃.mono hincluded₃).mono hincluded₄).mono hincluded₅
    refine .bind (leads_bindRow _ (hprepared.mono hincluded₅) htable₆ fun c hc => hnode.child hc)
      fun e' r₇ _ he' => ?_
    refine .ite (fun _ => .pure he'.grounded) fun _ => ?_
    exact .bind (.writeTable fun t ht hgrounded => hgrounded.setPrimaryKey (he'.key.subset ht))
      fun _ r₈ hincluded₇ _ => .pure (he'.grounded.mono hincluded₇)
  clear_value rows
  split
  · exact .bind (.writeTable fun t _ hgrounded => hgrounded.relabel rfl rfl rfl rfl rfl rfl rfl)
      fun _ r₆ hincluded₅ _ => hrows _ r₆ hincluded₅
  · exact hrows _ r₅ (.refl r₅)

/-- A root class is opened grounded, with its table and its row. -/
theorem leads_openRootClass (scope : Scope) {node : Element} (hnode : S.Has node) :
    Leads S (openRootClass scope node) r fun _ _ => True := by
  unfold openRootClass
  refine .bind (leads_prepareRootClass scope hnode) fun e r₁ _ he => ?_
  exact .bind (.register fun r' hr hadd => hr.addEntity he hadd) fun _ _ _ _ => .pure trivial

/-- An owner is a registered entity, in a table that exists. -/
structure Owner.RegisteredIn (r : Registry) (owner : Owner) : Prop where
  table : r.Holds owner.table
  entity : ∃ e, r.entity? owner.name = some e ∧ e.table = owner.table

/-- Registered owners stay registered. -/
theorem Owner.RegisteredIn.mono {r' : Registry} (h : r.IncludedIn r') {owner : Owner}
    (howner : owner.RegisteredIn r) : owner.RegisteredIn r' := by
  obtain ⟨e, he, htable⟩ := howner.entity
  obtain ⟨e', he', hincluded⟩ := h.entities he
  exact ⟨howner.table.mono h, e', he', hincluded.table.trans htable⟩

/-- An owner that is found is registered. -/
theorem leads_find (name : String) :
    Leads S (Owner.find name) r fun owner r' => owner.RegisteredIn r' := by
  unfold Owner.find
  refine .of_grounded fun hr => .get_bind (.require _ fun owner hfound => ?_)
  obtain ⟨e, he, rfl⟩ := Option.map_eq_some_iff.mp hfound
  obtain rfl : e.name = name := hr.named name e he
  exact ⟨(hr.entities _ e he).table, e, he, rfl⟩

end ObjectMapping
