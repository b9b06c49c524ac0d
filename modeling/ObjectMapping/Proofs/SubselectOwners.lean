import ObjectMapping.Proofs.RootOrigins

/-!
# Owners of collections that are loaded by subselects

A collection that is loaded by subselects marks its owner before it is registered, if the owner is
registered by then; otherwise nothing is marked and nothing is said.  Bodies are bound for owners
that were looked up, and components hand their owner down to their members, so the collections in
them mark it wherever they stand.  Only the collections in a composite identifier are registered
before the class that owns them.

Marks stay, and so do the settings that a collection is declared with.  Hence every collection that
is new in a later registry is recorded with its owner or stands in the composite identifier of a
class (`Registry.LoadsFrom`), whether a document ends well or in an error.
-/

namespace ObjectMapping

open Binding Registry

/-! ## Collections in components -/

namespace Element

mutual

/-- The collections that a component declares below a path, with their roles. -/
def collectionsIn (path : String) : Element → List (String × Element)
  | ⟨_, _, children, _⟩ => collectionsAmong path children

/-- The collections among the members of a component, and in the components among these. -/
def collectionsAmong (path : String) : List Element → List (String × Element)
  | [] => []
  | node :: rest =>
    let inner := qualify path ((node.attribute? "name").getD "")
    let first := match node.tag? with
      | some (.collection _) => [(inner, node)]
      | some .component | some .dynamicComponent | some .nestedCompositeElement =>
        collectionsIn inner node
      | _ => []
    first ++ collectionsAmong path rest

end

end Element

/-- An element declares a collection under a role in the composite identifier of a class. -/
def DeclaredInKey (opens : Scope → Element → Prop) (owner role : String) (node : Element) : Prop :=
  ∃ scope declared id, opens scope declared ∧ entityNameIn scope.defaults declared = owner ∧
    id ∈ declared.children ∧ id.tag? = some .compositeId ∧
    (role, node) ∈ id.collectionsIn (qualify owner ((id.attribute? "name").getD "id"))

namespace Collection

/-- The owner of a collection is registered, and marked if the collection is loaded by
subselects. -/
def RecordedIn (r : Registry) (c : Collection) : Prop :=
  ∃ e, r.entity? c.ownerEntity = some e ∧
    (c.subselectLoadable = true → e.subselectLoadableCollections = true)

/-- A collection stands in the composite identifier of its owner, and is loaded as its element
says. -/
def KeyedBy (opens : Scope → Element → Prop) (role : String) (c : Collection) : Prop :=
  ∃ node, DeclaredInKey opens c.ownerEntity role node ∧
    c.subselectLoadable = node.attributeIs "fetch" "subselect"

variable {opens : Scope → Element → Prop} {r : Registry} {role : String} {c c' : Collection}

/-- What is recorded of a collection depends on what it was declared with. -/
theorem RecordedIn.congr (h : c.RecordedIn r) (hdeclared : c.DeclaredAs c') : c'.RecordedIn r := by
  rw [RecordedIn, hdeclared.ownerEntity, hdeclared.subselectLoadable]
  exact h

/-- So does what its element says. -/
theorem KeyedBy.congr (h : c.KeyedBy opens role) (hdeclared : c.DeclaredAs c') :
    c'.KeyedBy opens role := by
  rw [KeyedBy, hdeclared.ownerEntity, hdeclared.subselectLoadable]
  exact h

/-- A collection in the composite identifier of one of some classes is in that of any to which these
belong. -/
theorem KeyedBy.mono {opens' : Scope → Element → Prop} (h : c.KeyedBy opens role)
    (hmono : ∀ scope node, opens scope node → opens' scope node) : c.KeyedBy opens' role := by
  obtain ⟨node, ⟨scope, declared, id, hopens, hplace⟩, hloaded⟩ := h
  exact ⟨node, ⟨scope, declared, id, hmono scope declared hopens, hplace⟩, hloaded⟩

end Collection

/-! ## Later registries -/

namespace Registry

/-- Entities and collections are stored under their own names and roles. -/
structure OwnNames (r : Registry) : Prop where
  entities : ∀ name e, r.entity? name = some e → e.name = name
  collections : ∀ role c, r.collection? role = some c → c.role = role

/-- Entities keep their marks, collections stay as they were declared, and every new one is recorded
or stands in the composite identifier of a class. -/
structure LoadsFrom (opens : Scope → Element → Prop) (r r' : Registry) : Prop where
  entities : ∀ {name e}, r.entity? name = some e → ∃ e', r'.entity? name = some e' ∧
    (e.subselectLoadableCollections = true → e'.subselectLoadableCollections = true)
  collections : ∀ {role c}, r.collection? role = some c → ∃ c', r'.collection? role = some c' ∧
    c.DeclaredAs c'
  origin : ∀ {role c'}, r'.collection? role = some c' →
    (∃ c, r.collection? role = some c ∧ c.DeclaredAs c') ∨ c'.RecordedIn r' ∨
      c'.KeyedBy opens role

variable {opens : Scope → Element → Prop} {r r' r'' : Registry}

namespace LoadsFrom

/-- An entity that is registered stays so. -/
theorem hasEntity (h : LoadsFrom opens r r') {name : String} (hname : r.hasEntity name = true) :
    r'.hasEntity name = true := by
  obtain ⟨e, he⟩ := hasEntity_iff_exists.mp hname
  obtain ⟨e', he', -⟩ := h.entities he
  exact hasEntity_iff_exists.mpr ⟨e', he'⟩

/-- A collection that is recorded stays so. -/
theorem recordedIn (h : LoadsFrom opens r r') {c : Collection} (hc : c.RecordedIn r) :
    c.RecordedIn r' := by
  obtain ⟨e, he, hmarked⟩ := hc
  obtain ⟨e', he', hkept⟩ := h.entities he
  exact ⟨e', he', hkept ∘ hmarked⟩

/-- New collections of the first of two runs are recorded after the second. -/
theorem trans (h : LoadsFrom opens r r') (h' : LoadsFrom opens r' r'') : LoadsFrom opens r r'' where
  entities he := by
    obtain ⟨e', he', hfirst⟩ := h.entities he
    obtain ⟨e'', he'', hsecond⟩ := h'.entities he'
    exact ⟨e'', he'', hsecond ∘ hfirst⟩
  collections hc := by
    obtain ⟨c', hc', hfirst⟩ := h.collections hc
    obtain ⟨c'', hc'', hsecond⟩ := h'.collections hc'
    exact ⟨c'', hc'', hfirst.trans hsecond⟩
  origin {role c''} hc'' := by
    rcases h'.origin hc'' with ⟨c', hc', hsecond⟩ | hnew
    · rcases h.origin hc' with ⟨c, hc, hfirst⟩ | hrecorded | hkeyed
      · exact .inl ⟨c, hc, hfirst.trans hsecond⟩
      · exact .inr (.inl ((h'.recordedIn hrecorded).congr hsecond))
      · exact .inr (.inr (hkeyed.congr hsecond))
    · exact .inr hnew

/-- The classes may be any to which those of the run belong. -/
theorem mono {opens' : Scope → Element → Prop} (h : LoadsFrom opens r r')
    (hmono : ∀ scope node, opens scope node → opens' scope node) : LoadsFrom opens' r r' :=
  ⟨h.entities, h.collections, fun hc => (h.origin hc).imp_right (.imp_right (·.mono hmono))⟩

/-- Nothing happens to entities and collections that are left alone. -/
theorem of_same (hentities : r'.entities = r.entities)
    (hcollections : r'.collections = r.collections) : LoadsFrom opens r r' where
  entities {name e} he := ⟨e, by rwa [entity?, hentities], id⟩
  collections {role c} hc := ⟨c, by rwa [collection?, hcollections], .refl c⟩
  origin {role c'} hc' := .inl ⟨c', by rwa [collection?, ← hcollections], .refl c'⟩

end LoadsFrom

end Registry

/-- The collections of a later registry are accounted for, and what is registered is stored under
its own name. -/
def loading (opens : Scope → Element → Prop) : Upkeep where
  invariant := OwnNames
  keeps := LoadsFrom opens
  refl _ := .of_same rfl rfl
  trans := .trans

section

variable {opens : Scope → Element → Prop} {r r' : Registry}

/-! ## Writes -/

/-- Nothing has to be shown of what concerns neither entities nor collections. -/
theorem Registry.OwnNames.of_same (hr : r.OwnNames) (hentities : r'.entities = r.entities)
    (hcollections : r'.collections = r.collections) : (loading opens).Advances r r' := by
  refine ⟨.of_same hentities hcollections, fun name e he => ?_, fun role c hc => ?_⟩
  · exact hr.entities name e (by rwa [entity?, ← hentities])
  · exact hr.collections role c (by rwa [collection?, ← hcollections])

/-- Quiet writes are of this kind. -/
theorem Registry.OwnNames.of_alike (hr : r.OwnNames) (h : Alike r r') :
    (loading opens).Advances r r' :=
  hr.of_same h.entities h.collections

/-- An entity may be changed if it keeps its name and its mark. -/
theorem Registry.OwnNames.modifyEntity (hr : r.OwnNames) (name : String) {f : Entity → Entity}
    (hname : ∀ e, (f e).name = e.name)
    (hmark : ∀ e, e.subselectLoadableCollections = true →
      (f e).subselectLoadableCollections = true) :
    (loading opens).Advances r (r.modifyEntity name f) := by
  refine ⟨⟨fun {name' e} he => ?_, fun {role c} hc => ⟨c, hc, .refl c⟩,
    fun {role c'} hc' => .inl ⟨c', hc', .refl c'⟩⟩, fun name' e' he' => ?_, hr.collections⟩
  · refine ⟨_, by rw [entity?_modifyEntity, he, Option.map_some], ?_⟩
    split
    · exact hmark e
    · exact id
  · rw [entity?_modifyEntity] at he'
    obtain ⟨e, he, rfl⟩ := Option.map_eq_some_iff.mp he'
    have hold := hr.entities name' e he
    split
    · rw [hname, hold]
    · exact hold

/-- A new entity owns no collection yet, or only those in its composite identifier. -/
theorem Registry.OwnNames.addEntity (hr : r.OwnNames) {e : Entity} (hadd : r.addEntity e = .ok r') :
    (loading opens).Advances r r' := by
  have hkept : ∀ {name e₀}, r.entity? name = some e₀ → r'.entity? name = some e₀ :=
    entity?_of_addEntity_of_some hadd
  obtain ⟨-, rfl⟩ := addEntity_eq_ok.mp hadd
  refine ⟨⟨fun {name e₀} he₀ => ⟨e₀, hkept he₀, id⟩, fun {role c} hc => ⟨c, hc, .refl c⟩,
    fun {role c'} hc' => .inl ⟨c', hc', .refl c'⟩⟩, fun name e' he' => ?_, hr.collections⟩
  rcases eq_or_of_entity?_addEntity hadd he' with ⟨rfl, rfl⟩ | hold
  · rfl
  · exact hr.entities name e' hold

/-- A collection may be registered if it is recorded or stands in a composite identifier. -/
theorem Registry.OwnNames.addCollection (hr : r.OwnNames) {c : Collection}
    (hadd : r.addCollection c = .ok r') (hc : c.RecordedIn r ∨ c.KeyedBy opens c.role) :
    (loading opens).Advances r r' := by
  have hkept : ∀ {role c₀}, r.collection? role = some c₀ → r'.collection? role = some c₀ :=
    collection?_of_addCollection_of_some hadd
  obtain ⟨-, rfl⟩ := addCollection_eq_ok.mp hadd
  refine ⟨⟨fun {name e} he => ⟨e, he, id⟩, fun {role c₀} hc₀ => ⟨c₀, hkept hc₀, .refl c₀⟩,
    fun {role c'} hc' => ?_⟩, hr.entities, fun role c' hc' => ?_⟩
  · rcases eq_or_of_collection?_addCollection hadd hc' with ⟨rfl, rfl⟩ | hold
    · exact .inr hc
    · exact .inl ⟨c', hold, .refl c'⟩
  · rcases eq_or_of_collection?_addCollection hadd hc' with ⟨rfl, rfl⟩ | hold
    · rfl
    · exact hr.collections role c' hold

/-- A collection may be written back if it is declared as the one that is there. -/
theorem Registry.OwnNames.store (hr : r.OwnNames) {c₀ c : Collection}
    (hfound : r.collection? c.role = some c₀) (hdeclared : c₀.DeclaredAs c) :
    (loading opens).Advances r (r.modifyCollection c.role fun _ => c) := by
  refine ⟨⟨fun {name e} he => ⟨e, he, id⟩, fun {role c₁} hc₁ => ?_, fun {role c'} hc' => .inl ?_⟩,
    hr.entities, fun role c' hc' => ?_⟩
  · refine ⟨_, by rw [collection?_modifyCollection, hc₁, Option.map_some], ?_⟩
    split
    · next hrole =>
      cases (hrole ▸ hc₁).symm.trans hfound
      exact hdeclared
    · exact .refl c₁
  · rcases eq_or_of_collection?_replaced hc' with ⟨rfl, rfl⟩ | hold
    · exact ⟨c₀, hfound, hdeclared⟩
    · exact ⟨c', hold, .refl c'⟩
  · rcases eq_or_of_collection?_replaced hc' with ⟨rfl, rfl⟩ | hold
    · rfl
    · exact hr.collections role c' hold

/-! ## Computations that register no collection -/

/-- What is quiet registers no collection, whatever value it ends in. -/
theorem loads_yields {α : Type} {m : Binding α} (hm : m.Quiet) {P : α → Prop}
    (hyields : Yields m P) : Upholds (loading opens) m r fun a _ => P a :=
  .of_makes hm hyields fun _ _ hwrite hr => Registry.OwnNames.of_alike hr hwrite.alike

/-- Of that value nothing has to be known. -/
theorem loads_quiet {α : Type} {m : Binding α} (hm : m.Quiet) :
    Upholds (loading opens) m r fun _ _ => True :=
  loads_yields hm (P := fun _ => True) fun _ _ _ _ => trivial

theorem loads_steady {α : Type} {m : Binding α} (hm : m.Steady) :
    Upholds (loading opens) m r fun _ _ => True := loads_quiet hm.quiet

/-- An entity may be changed if it keeps its name and its mark. -/
theorem loads_changeEntity (name : String) {f : Entity → Entity} (hname : ∀ e, (f e).name = e.name)
    (hmark : ∀ e, e.subselectLoadableCollections = true →
      (f e).subselectLoadableCollections = true) :
    Upholds (loading opens) (changeEntity name f) r fun _ _ => True := by
  unfold changeEntity
  refine .get_bind (.ite (fun _ => .write fun hr => ?_) fun _ => .throw _)
  exact Registry.OwnNames.modifyEntity hr name hname hmark

/-- Making a property records references and makes foreign keys at most. -/
theorem loads_createProperty (scope : Scope) (node : Element) (value : Value)
    (className : Option String) (owner : String) :
    Upholds (loading opens) (createProperty scope node value className owner) r
      fun _ _ => True := by
  unfold createProperty
  refine .ofExcept_bind fun name _ => .get_bind (.bind (.write fun hr => ?_) fun _ r₁ _ _ => ?_)
  · obtain ⟨_, _, heq⟩ := r.recordReferences_eq owner (node.tag? = some .manyToMany) _
    rw [heq]
    exact Registry.OwnNames.of_same hr rfl rfl
  · refine .bind (.write fun hr => ?_) fun _ _ _ _ => .ofExcept fun _ _ => trivial
    exact Registry.OwnNames.of_alike hr (quietWrites_constrainValue r₁ _).alike

/-! ## Collections and components -/

/-- Some collections may be registered for an owner: it is there to be marked, or they all stand in
its composite identifier. -/
def Registry.Admits (opens : Scope → Element → Prop) (r : Registry) (owner : String)
    (declared : List (String × Element)) : Prop :=
  r.hasEntity owner = true ∨ ∀ p ∈ declared, DeclaredInKey opens owner p.1 p.2

namespace Registry.Admits

variable {owner : String} {declared declared' : List (String × Element)}

/-- What may be registered may be registered later. -/
theorem later (h : r.Admits opens owner declared) (hkeeps : LoadsFrom opens r r') :
    r'.Admits opens owner declared :=
  h.imp_left hkeeps.hasEntity

/-- If some collections may be registered, so may fewer. -/
theorem subset (h : r.Admits opens owner declared) (hsubset : declared' ⊆ declared) :
    r.Admits opens owner declared' :=
  h.imp_right fun hkey p hp => hkey p (hsubset hp)

end Registry.Admits

/-- A collection marks its owner and is registered, or stands in a composite identifier. -/
theorem loads_bindCollection (scope : Scope) (node : Element) (kind : CollectionKind)
    (role : String) (owner : Owner) (h : r.Admits opens owner.name [(role, node)]) :
    Upholds (loading opens) (bindCollection scope node kind role owner) r fun _ _ => True := by
  have hkeyed : (∀ p ∈ [(role, node)], DeclaredInKey opens owner.name p.1 p.2) →
      DeclaredInKey opens owner.name role node := fun hall => hall _ (List.mem_singleton_self _)
  -- The owner is marked some steps before the collection is registered, and stays so in between.
  unfold bindCollection
  refine .ofExcept_bind fun batchSize _ => .either (P := fun r' =>
    (∃ e, r'.entity? owner.name = some e ∧ (node.attributeIs "fetch" "subselect" = true →
      e.subselectLoadableCollections = true)) ∨ DeclaredInKey opens owner.name role node)
    (fun _ => .modify fun hr => ⟨?_, ?_⟩) (fun hplain => ?_) fun r₁ _ hplaced => ?_
  · exact Registry.OwnNames.modifyEntity hr _ (fun _ => rfl) fun _ _ => rfl
  · refine h.imp (fun howner => ?_) hkeyed
    obtain ⟨e, he⟩ := hasEntity_iff_exists.mp howner
    refine ⟨{ e with subselectLoadableCollections := true }, ?_, fun _ => rfl⟩
    rw [entity?_modifyEntity, he, Option.map_some, if_pos rfl]
  · refine h.imp (fun howner => ?_) hkeyed
    obtain ⟨e, he⟩ := hasEntity_iff_exists.mp howner
    exact ⟨e, he, fun hmarks => absurd hmarks hplain⟩
  · refine .bind (loads_steady (steady_openElement scope node role owner))
      fun opened r₂ hkeeps _ => ?_
    obtain ⟨element, table⟩ := opened
    refine .bind (loads_steady (.mapM steady_bindFilterUse _)) fun filters r₃ hkeeps₁ _ => ?_
    have hlater := hkeeps.trans hkeeps₁
    refine .bind (P := fun _ _ => True) (.register fun r₄ hr hadd => ⟨?_, trivial⟩) fun _ r₄ _ _ =>
      .bind (.write fun hr => Registry.OwnNames.of_same hr rfl rfl) fun _ _ _ _ => .pure trivial
    refine Registry.OwnNames.addCollection hr hadd (hplaced.imp (fun hmarked => ?_) fun hkey => ?_)
    · obtain ⟨e, he, hmark⟩ := hmarked
      obtain ⟨e', he', hkept⟩ := hlater.entities he
      exact ⟨e', he', hkept ∘ hmark⟩
    · exact ⟨node, hkey, rfl⟩

mutual

/-- A component is bound for its owner, down through nested components. -/
theorem loads_bindComponent {r : Registry} (scope : Scope) (site : ComponentSite) : ∀ node,
    r.Admits opens site.owner.name (node.collectionsIn site.path) →
      Upholds (loading opens) (bindComponent scope site node) r fun _ _ => True
  | ⟨name, attributes, children, text⟩, hdeclared => by
    rw [Element.collectionsIn] at hdeclared
    rw [bindComponent]
    refine .get_bind ?_
    split
    refine .bind (loads_bindMembers _ _ _ children hdeclared) fun properties r₁ _ _ => ?_
    exact .optional (fun _ => loads_quiet (quiet_changeTable _ fun t => .createUniqueKey t _))
      fun _ _ => .pure trivial

/-- So are the members of a component. -/
theorem loads_bindMembers {r : Registry} (scope : Scope) (site : ComponentSite)
    (className : Option String) : ∀ children,
      r.Admits opens site.owner.name (Element.collectionsAmong site.path children) →
        Upholds (loading opens) (bindMembers scope site className children) r fun _ _ => True
  | [], _ => by
    rw [bindMembers]
    exact .pure trivial
  | node :: rest, hdeclared => by
    rw [Element.collectionsAmong] at hdeclared
    have hfirst := hdeclared.subset (List.subset_append_left _ _)
    have hothers := hdeclared.subset (List.subset_append_right _ _)
    unfold bindMembers
    extract_lets name rest'
    have hrest : ∀ value r', LoadsFrom opens r r' →
        Upholds (loading opens) (rest' value) r' fun _ _ => True := by
      intro value r' hkeeps
      cases value with
      | none => exact loads_bindMembers _ _ _ rest (hothers.later hkeeps)
      | some value =>
        refine .bind (loads_createProperty _ _ _ _ _) fun _ r₁ hkeeps₁ _ => ?_
        exact .bind (loads_bindMembers _ _ _ rest (hothers.later (hkeeps.trans hkeeps₁)))
          fun _ _ _ _ => .pure trivial
    clear_value rest'
    have hvalue : ∀ {α : Type} {m : Binding α} {f : α → Option Value},
        Upholds (loading opens) m r (fun _ _ => True) →
          Upholds (loading opens) (m >>= fun a => pure (f a) >>= rest') r fun _ _ => True :=
      fun hm => .bind hm fun _ r₁ hkeeps _ => .bind (P := fun _ _ => True) (.pure trivial)
        fun _ r₂ hkeeps₁ _ => hrest _ r₂ (hkeeps.trans hkeeps₁)
    split
    · next htag =>
      rw [htag] at hfirst
      exact hvalue (loads_bindCollection _ _ _ _ _ hfirst)
    · next htag =>
      rw [htag] at hfirst
      exact hvalue (loads_bindComponent _ _ node hfirst)
    · next htag =>
      rw [htag] at hfirst
      exact hvalue (loads_bindComponent _ _ node hfirst)
    · next htag =>
      rw [htag] at hfirst
      exact hvalue (loads_bindComponent _ _ node hfirst)
    · exact hvalue (loads_steady (steady_bindOneToOne _ _ _ _))
    · exact .bind (loads_steady (steady_bindSimpleMember _ _ _ _)) fun _ r₁ hkeeps _ =>
        hrest _ r₁ hkeeps
    · exact .bind (P := fun _ _ => True) (.pure trivial) fun _ r₁ hkeeps _ => hrest _ r₁ hkeeps

end

/-! ## Identifiers -/

/-- The shadow of a composite identifier registers nothing but the collections declared there. -/
theorem loads_bindIdentifierMapper (scope : Scope) (e : Entity) (path : String) (node : Element)
    (hkey : ∀ p ∈ node.collectionsIn path, DeclaredInKey opens e.name p.1 p.2) :
    Upholds (loading opens) (bindIdentifierMapper scope e path node) r fun _ _ => True := by
  unfold bindIdentifierMapper
  exact .bind (loads_bindComponent _ _ node (.inr hkey)) fun _ r₁ _ _ =>
    loads_steady (steady_changeRoot _ _)

/-- Neither does the composite identifier. -/
theorem loads_bindCompositeId (scope : Scope) (e : Entity) (node : Element)
    (hkey : ∀ p ∈ node.collectionsIn (qualify e.name ((node.attribute? "name").getD "id")),
      DeclaredInKey opens e.name p.1 p.2) :
    Upholds (loading opens) (bindCompositeId scope e node) r fun _ _ => True := by
  unfold bindCompositeId
  refine .ite (fun _ => .throw_bind _ _) fun _ =>
    .bind (loads_bindComponent _ _ node (.inr hkey)) fun id r₁ _ _ => ?_
  extract_lets key finish
  have hfinish : ∀ e r', Upholds (loading opens) (finish e) r' fun _ _ => True := by
    intro e r'
    unfold finish
    dsimp only
    split
    · exact .ofExcept_bind fun _ _ => loads_steady (steady_changeRoot _ _)
    · exact loads_steady (steady_changeRoot _ _)
  clear_value finish
  exact .ite (fun _ => .bind (loads_bindIdentifierMapper _ _ _ _ hkey) fun e r₂ _ _ => hfinish e r₂)
    fun _ => .bind (P := fun _ _ => True) (.pure trivial) fun e r₂ _ _ => hfinish e r₂

/-- Of the children that describe rows only a composite identifier registers collections. -/
theorem loads_bindRowChild (scope : Scope) (e : Entity) (node : Element)
    (hkey : node.tag? = some .compositeId →
      ∀ p ∈ node.collectionsIn (qualify e.name ((node.attribute? "name").getD "id")),
        DeclaredInKey opens e.name p.1 p.2) :
    Upholds (loading opens) (bindRowChild scope e node) r fun _ _ => True := by
  unfold bindRowChild
  split
  · exact loads_steady (steady_bindSimpleId _ _ _)
  · exact loads_bindCompositeId _ _ _ (hkey ‹_›)
  · exact loads_steady (steady_bindVersion _ _ _)
  · exact loads_steady (steady_bindVersion _ _ _)
  · exact loads_steady (steady_bindDiscriminator _ _)
  · exact loads_steady (steady_bindCache _ _)
  · exact .pure trivial

/-- The children of a class are bound one after the other, and none of them changes its name. -/
theorem loads_bindRow {r : Registry} (scope : Scope) {name : String} {children : List Element}
    (hkey : ∀ id ∈ children, id.tag? = some .compositeId →
      ∀ p ∈ id.collectionsIn (qualify name ((id.attribute? "name").getD "id")),
        DeclaredInKey opens name p.1 p.2) {e : Entity} (he : e.name = name) :
    Upholds (loading opens) (bindRow scope e children) r fun _ _ => True := by
  induction children generalizing e r with
  | nil => exact .pure trivial
  | cons node rest ih =>
    rw [List.forall_mem_cons] at hkey
    have hchild := (loads_bindRowChild (r := r) scope e node (he ▸ hkey.1)).of_run
      fun e' _ hrun _ => congrArg EntitySkeleton.name (yields_bindRowChild scope e node r e' _ hrun)
    exact .bind hchild fun e₁ r₁ _ he₁ => ih hkey.2 (he₁.trans he)

/-! ## Joins and bodies -/

section

variable {scope : Scope} {owner : Owner} (howner : r.hasEntity owner.name = true)
include howner

/-- The components in a join register their collections for its owner. -/
theorem loads_bindJoinedValue (table : TableId) (node : Element) :
    Upholds (loading opens) (bindJoinedValue scope owner table node) r fun _ _ => True := by
  unfold bindJoinedValue
  dsimp only
  split
  · exact .bind (loads_bindComponent _ _ node (.inl howner)) fun _ _ _ _ => .pure trivial
  · exact .bind (loads_bindComponent _ _ node (.inl howner)) fun _ _ _ _ => .pure trivial
  · exact loads_steady (steady_bindSimpleMember _ _ _ _)
  · exact .pure trivial

omit howner in
/-- So do the properties of a join, one after another. -/
theorem loads_bindJoinedProperties {r : Registry} (howner : r.hasEntity owner.name = true)
    (table : TableId) (isOptional : Bool) (children : List Element) :
    Upholds (loading opens) (bindJoinedProperties scope owner table isOptional children) r
      fun _ _ => True := by
  induction children generalizing r with
  | nil => exact .pure trivial
  | cons node rest ih =>
    rw [bindJoinedProperties]
    refine .bind (loads_bindJoinedValue howner table node) fun value r₁ hkeeps _ => ?_
    cases value with
    | none => exact ih (hkeeps.hasEntity howner)
    | some value =>
      refine .bind (loads_createProperty _ _ _ _ _) fun _ r₂ hkeeps₁ _ => ?_
      exact .bind (ih ((hkeeps.trans hkeeps₁).hasEntity howner)) fun _ _ _ _ => .pure trivial

/-- And so does the join, which is bound for a registered owner. -/
theorem loads_bindJoin (node : Element) :
    Upholds (loading opens) (bindJoin scope owner node) r fun _ _ => True := by
  unfold bindJoin
  refine .bind (loads_steady (steady_requestTable _ _ _ _)) fun _ r₁ hkeeps _ => ?_
  refine .bind (loads_steady (steady_openTable _)) fun _ r₂ hkeeps₁ _ => ?_
  refine .bind (loads_steady (steady_commentTable _ _)) fun _ r₃ hkeeps₂ _ => ?_
  refine .require_bind fun keyNode _ => ?_
  refine .bind (loads_quiet (quiet_bindDependantKey _ _ _ _)) fun _ r₄ hkeeps₃ _ => ?_
  have hlater := ((hkeeps.trans hkeeps₁).trans hkeeps₂).trans hkeeps₃
  exact .bind (loads_bindJoinedProperties (hlater.hasEntity howner) _ _ _) fun _ _ _ _ =>
    .pure trivial

/-- A property of a body registers its collections for the owner of the body. -/
theorem loads_bindBodyValue (walk : BodyWalk) (node : Element) :
    Upholds (loading opens) (bindBodyValue scope owner walk node) r fun _ _ => True := by
  unfold bindBodyValue
  dsimp only
  split
  · exact .bind (loads_bindCollection _ _ _ _ _ (.inl howner)) fun _ _ _ _ => .pure trivial
  · exact .bind (loads_steady (steady_bindOneToOne _ _ _ _)) fun _ _ _ _ => .pure trivial
  · exact .bind (loads_bindComponent _ _ node (.inl howner)) fun _ _ _ _ => .pure trivial
  · exact .bind (loads_bindComponent _ _ node (.inl howner)) fun _ _ _ _ => .pure trivial
  · exact .bind (loads_bindComponent _ _ node (.inl howner)) fun _ _ _ _ => .pure trivial
  · exact loads_steady (steady_bindSimpleMember _ _ _ _)
  · exact .pure trivial

/-- The owner keeps its mark as it gets the property. -/
theorem loads_bindBodyProperty (walk : BodyWalk) (node : Element) :
    Upholds (loading opens) (bindBodyProperty scope owner walk node) r fun _ _ => True := by
  unfold bindBodyProperty
  refine .bind (loads_bindBodyValue howner walk node) fun value r₁ _ _ => ?_
  cases value with
  | none => exact .pure trivial
  | some value =>
    refine .bind (loads_createProperty _ _ _ _ _) fun p r₂ _ _ => ?_
    exact .bind (loads_changeEntity _ (fun _ => rfl) fun _ => id) fun _ _ _ _ => .pure trivial

theorem loads_bindBodyExtra (node : Element) (tag : Tag) :
    Upholds (loading opens) (bindBodyExtra scope owner node tag) r fun _ _ => True := by
  unfold bindBodyExtra
  split
  · exact .bind (loads_bindJoin howner node) fun _ _ _ _ =>
      loads_changeEntity _ (fun _ => rfl) fun _ => id
  · exact .bind (loads_steady (steady_bindFilterUse _)) fun _ _ _ _ =>
      loads_changeEntity _ (fun _ => rfl) fun _ => id
  · exact loads_steady (steady_bindNamedQuery _ _)
  · exact loads_steady (steady_bindNamedSqlQuery _ _ _)
  · exact loads_steady (steady_bindResultSet _ _ _)
  · exact .pure trivial

end

/-! ## Classes -/

/-- Registering an entity registers no collection. -/
theorem loads_addEntity (e : Entity) :
    Upholds (loading opens) (Binding.register (·.addEntity e)) r fun _ _ => True :=
  .register fun _ hr hadd => ⟨Registry.OwnNames.addEntity hr hadd, trivial⟩

/-- Neither does opening a subclass. -/
theorem loads_openSubclass (kind : SubclassKind) (scope : Scope) (superclass : String)
    (node : Element) :
    Upholds (loading opens) (openSubclass kind scope superclass node) r fun _ _ => True := by
  have hregister : ∀ e r₁, Upholds (loading opens) (registerSubclass e superclass kind.strategy) r₁
      fun _ _ => True := by
    intro e r₁
    unfold registerSubclass
    refine .bind (loads_addEntity e) fun _ r₂ _ _ =>
      .bind (loads_changeEntity _ (fun _ => rfl) fun _ => id) fun _ r₃ _ _ => .write fun hr => ?_
    split
    · exact .refl hr
    · unfold Registry.modifyRootOf
      split
      · exact Registry.OwnNames.modifyEntity hr _ (fun _ => rfl) fun _ => id
      · exact .refl hr
  unfold openSubclass
  exact .bind (loads_quiet (quiet_prepareSubclass _ _ _ _)) fun e r₁ _ _ =>
    .bind (hregister e r₁) fun _ _ _ _ => .pure trivial

/-- The collections in the composite identifier of a class are registered before the class. -/
theorem loads_openRootClass {scope : Scope} {node : Element} (hopens : opens scope node) :
    Upholds (loading opens) (openRootClass scope node) r fun _ _ => True := by
  unfold openRootClass
  refine .bind (P := fun _ _ => True) ?_ fun e r₁ _ _ => .bind (loads_addEntity e)
    fun _ _ _ _ => .pure trivial
  unfold prepareRootClass
  refine .ofExcept_bind fun name hname => ?_
  refine .bind (loads_steady (steady_requestTable _ _ _ _)) fun _ r₁ _ _ => ?_
  refine .bind (loads_steady (steady_openTable _)) fun table r₂ _ _ => ?_
  refine .bind (loads_steady (steady_commentTable _ _)) fun _ r₃ _ _ => ?_
  refine .bind (loads_yields (steady_bindHeader _ _ _ _ _).quiet (yields_bindHeader _ _ _ _ _))
    fun e r₄ _ he => .bind (loads_steady (steady_checkTable _ _)) fun _ r₅ _ _ => ?_
  extract_lets rows
  have hrows : ∀ u r', Upholds (loading opens) (rows u) r' fun _ _ => True := by
    intro u r'
    have hnamed : entityNameIn scope.defaults node = name := entityNameIn_of_entityNameOf hname
    refine .bind (loads_bindRow _ (fun id hid htag p hp => ?_) (congrArg EntitySkeleton.name he))
      fun e' r₆ _ _ => .ite (fun _ => .pure trivial) fun _ =>
        .bind (loads_quiet (quiet_changeTable _ fun t => .setPrimaryKey t _)) fun _ _ _ _ =>
          .pure trivial
    exact ⟨scope, node, id, hopens, hnamed, hid, htag, hp⟩
  clear_value rows
  split
  · exact .bind (loads_quiet (quiet_changeTable _ fun t => .setRowId t _)) fun u r' _ _ =>
      hrows u r'
  · exact hrows _ _

/-! ## Documents -/

/-- The owner of a body is registered as long as the body is bound. -/
theorem hasEntity_of_met {reads : Scope → Element → Prop} {scope : Scope} {owner : Owner}
    {group : Option Element} {node : Element}
    (h : Met (loading opens) reads r scope owner group node) : r.hasEntity owner.name = true := by
  obtain ⟨-, body, ⟨outer, r₀, e, -, -, hr₀, he, rfl, hkeeps⟩, -⟩ := h
  refine hkeeps.hasEntity (hasEntity_iff_exists.mpr ⟨e, ?_⟩)
  rw [Owner.ofEntity, hr₀.entities _ e he]
  exact he

/-- Bodies are bound for owners that are there. -/
theorem walked_loading : BodyWalked (loading opens) fun _ _ => True where
  child _ _ := trivial
  descend _ _ := trivial
  steady h hr := Registry.OwnNames.of_alike hr h.quietWrite.alike
  openSubclass kind _ superclass _ _ := loads_openSubclass kind _ superclass _
  bindBodyProperty _ _ _ hmet := loads_bindBodyProperty (hasEntity_of_met hmet) _ _
  bindBodyExtra _ _ tag hmet := loads_bindBodyExtra (hasEntity_of_met hmet) _ tag

/-- The new collections of a document are recorded, or stand in the composite identifiers of its
classes, whether it ends well or not. -/
theorem loads_bindRoot (root : Element) (metas : MetaMap) :
    Upholds (loading (ClassOf root metas)) (bindRoot root metas) r fun _ _ => True :=
  walked_loading.upholds_document metas (fun _ hnode _ => loads_openRootClass ⟨rfl, hnode⟩)
    (fun _ _ => trivial) (.of_writes root fun h hr => by
      cases h <;> exact Registry.OwnNames.of_same hr rfl rfl)

end

end ObjectMapping
