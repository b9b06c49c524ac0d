import ObjectMapping.Proofs.Definitions
import ObjectMapping.Proofs.Face

/-!
# What a pass for contents does

A pass for the contents of a collection that ends well does so in five steps.  It binds the
key and the element, which is preparation; it shows the collection to the entity of its
elements; it binds what else the collection has, which is preparation again; it shows the
index; and it writes the collection back.  `ContentsRun` says so of the registries before and
after, and of the collection that is written back.
-/

namespace ObjectMapping

open Binding Registry

/-! ## Filling a collection -/

namespace Collection

/-- If the elements of a collection are entities that hold the key themselves, their entity is
known. -/
def Targeted (c : Collection) : Prop :=
  ∀ v, c.element = some (.oneToMany v) → ∃ target, v.referencedEntity = some target

/-- If the elements of a collection are entities that hold the key themselves, their entity is
registered, and the collection is in the table of that entity. -/
def SettledIn (r : Registry) (c : Collection) : Prop :=
  ∀ v, c.element = some (.oneToMany v) → ∃ name e, r.entity? name = some e ∧
    v.referencedEntity = some e.name ∧ v.associatedTable = some e.table ∧ c.table = some e.table

/-- A settled collection has a target. -/
theorem SettledIn.targeted {r : Registry} {c : Collection} (h : c.SettledIn r) : c.Targeted := by
  intro v hv
  obtain ⟨_, e, -, htarget, -⟩ := h v hv
  exact ⟨e.name, htarget⟩

/-- Collections of one role that are declared alike. -/
structure DeclaredAs (c c' : Collection) : Prop where
  role : c'.role = c.role
  ownerEntity : c'.ownerEntity = c.ownerEntity
  kind : c'.kind = c.kind
  inverse : c'.inverse = c.inverse
  subselectLoadable : c'.subselectLoadable = c.subselectLoadable

/-- A collection with its key and element bound.  It stays in its table, and what its elements are
may be changed, but not to another entity that holds the key itself. -/
structure Filled (c c' : Collection) : Prop extends DeclaredAs c c' where
  table : c'.table = c.table
  target : ∀ v, c'.element = some (.oneToMany v) → c.element = some (.oneToMany v)

/-- A collection with more than its key and element bound. -/
structure Indexed (c c' : Collection) : Prop extends DeclaredAs c c' where
  table : c'.table = c.table
  key : c'.key = c.key
  element : c'.element = c.element

/-- A collection is declared as itself. -/
theorem DeclaredAs.refl (c : Collection) : DeclaredAs c c := ⟨rfl, rfl, rfl, rfl, rfl⟩

/-- Declarations agree in both directions. -/
theorem DeclaredAs.symm {c c' : Collection} (h : DeclaredAs c c') : DeclaredAs c' c :=
  ⟨h.role.symm, h.ownerEntity.symm, h.kind.symm, h.inverse.symm, h.subselectLoadable.symm⟩

/-- Declarations agree along a chain. -/
theorem DeclaredAs.trans {c c' c'' : Collection} (h : DeclaredAs c c') (h' : DeclaredAs c' c'') :
    DeclaredAs c c'' :=
  ⟨h'.role.trans h.role, h'.ownerEntity.trans h.ownerEntity, h'.kind.trans h.kind,
    h'.inverse.trans h.inverse, h'.subselectLoadable.trans h.subselectLoadable⟩

/-- A collection that is left alone may count as filled. -/
theorem Filled.refl (c : Collection) : Filled c c := ⟨.refl c, rfl, fun _ h => h⟩

/-- One filling may follow another. -/
theorem Filled.trans {c c' c'' : Collection} (h : Filled c c') (h' : Filled c' c'') :
    Filled c c'' :=
  ⟨h.toDeclaredAs.trans h'.toDeclaredAs, h'.table.trans h.table,
    fun v hv => h.target v (h'.target v hv)⟩

/-- A collection stays settled while it is filled. -/
theorem Filled.settledIn {r : Registry} {c c' : Collection} (h : Filled c c')
    (hc : c.SettledIn r) : c'.SettledIn r := by
  intro v hv
  rw [h.table]
  exact hc v (h.target v hv)

/-- A collection that is left alone may count as indexed. -/
theorem Indexed.refl (c : Collection) : Indexed c c := ⟨.refl c, rfl, rfl, rfl⟩

/-- One index may follow another. -/
theorem Indexed.trans {c c' c'' : Collection} (h : Indexed c c') (h' : Indexed c' c'') :
    Indexed c c'' :=
  ⟨h.toDeclaredAs.trans h'.toDeclaredAs, h'.table.trans h.table, h'.key.trans h.key,
    h'.element.trans h.element⟩

/-- What is bound after the key and element of a collection leaves it filled. -/
theorem Indexed.filled {c c' : Collection} (h : Indexed c c') : Filled c c' :=
  ⟨h.toDeclaredAs, h.table, fun _ hv => h.element ▸ hv⟩

/-- Whether a collection is shown does not depend on what is bound after its key and element. -/
theorem Indexed.backref? {c c' : Collection} (h : Indexed c c') (node : Element) :
    c'.backref? node .collection = c.backref? node .collection := by
  unfold Collection.backref? Collection.propertyName
  rw [h.key, h.element, h.inverse, h.role, h.ownerEntity]

end Collection

open Collection

/-- Resolving the target of a collection settles it. -/
theorem settledIn_resolveTarget {r : Registry} {c c' : Collection}
    (h : c.resolveTarget r = .ok c') : c.DeclaredAs c' ∧ c'.SettledIn r := by
  unfold Collection.resolveTarget at h
  split at h
  · dsimp only at h
    split at h
    · next e hfound =>
      cases h
      obtain ⟨name, -, he⟩ := Option.bind_eq_some_iff.mp hfound
      refine ⟨⟨rfl, rfl, rfl, rfl, rfl⟩, fun v hv => ?_⟩
      cases hv
      exact ⟨name, e, he, rfl, rfl, rfl⟩
    · cases h
  · next hother =>
    cases h
    exact ⟨.refl c, fun v hv => absurd hv (hother v)⟩

/-- Resolving the target of a collection looks up no definition. -/
theorem reading_resolveTarget {r : Registry} {c c' : Collection}
    (h : c.resolveTarget r = .ok c') : c'.reading = c.reading := by
  unfold Collection.resolveTarget at h
  split at h
  · next v helement =>
    dsimp only at h
    split at h
    · cases h
      simp only [Collection.reading, helement, Option.bind_some, Value.type?]
    · cases h
  · cases h
    rfl

/-- Adding a check constraint fills a collection further. -/
theorem yields_bindCollectionCheck (c : Collection) (node : Element) :
    Yields (bindCollectionCheck c node) fun c' => c.Filled c' ∧ c'.reading = c.reading := by
  unfold bindCollectionCheck
  split
  · exact .next fun _ => .pure ⟨⟨⟨rfl, rfl, rfl, rfl, rfl⟩, rfl, fun _ h => h⟩, rfl⟩
  · exact .pure ⟨.refl c, rfl⟩

/-- Binding a child that describes the contents of a collection fills it further. -/
theorem yields_bindContent (scope : Scope) (owner : Owner) (c : Collection) (node : Element) :
    Yields (bindContent scope owner c node) c.Filled := by
  unfold bindContent
  dsimp only
  split
  · exact .next fun _ => .pure ⟨⟨rfl, rfl, rfl, rfl, rfl⟩, rfl, fun _ h => h⟩
  · exact .next fun _ => .pure ⟨⟨rfl, rfl, rfl, rfl, rfl⟩, rfl, nofun⟩
  · refine .bind (P := c.Filled) ?_ fun c' h =>
      .pure ⟨⟨h.role, h.ownerEntity, h.kind, h.inverse, h.subselectLoadable⟩, h.table, h.target⟩
    unfold bindManyToMany
    refine .next fun _ => .next fun _ => .next fun _ =>
      .ite (fun _ => .throw_bind _ _ _) fun _ => ?_
    exact .pure ⟨⟨rfl, rfl, rfl, rfl, rfl⟩, rfl, nofun⟩
  · exact .next fun _ => .pure ⟨⟨rfl, rfl, rfl, rfl, rfl⟩, rfl, nofun⟩
  · exact .next fun _ => .pure ⟨⟨rfl, rfl, rfl, rfl, rfl⟩, rfl, nofun⟩
  · exact .next fun _ => .pure ⟨⟨rfl, rfl, rfl, rfl, rfl⟩, rfl, fun _ h => h⟩
  · exact .pure (.refl c)

/-- By induction on the children; an element may be replaced by a later child. -/
theorem yields_bindContentsOf (scope : Scope) (owner : Owner) (c : Collection)
    (children : List Element) : Yields (bindContentsOf scope owner c children) c.Filled := by
  induction children generalizing c with
  | nil => exact .pure (.refl c)
  | cons node rest ih =>
    exact .bind (yields_bindContent scope owner c node) fun c₁ hc₁ =>
      (ih c₁).mono fun _ => hc₁.trans

/-! ## Indexing a collection -/

/-- A collection has what its kind requires besides its key and element: the rows of a bag are
identified by a simple value, a list has positions that are integers, and a map has keys. -/
def Collection.CompletedAs (c : Collection) : PassKind → Prop
  | .plain => True
  | .identifierBag => ∃ v, c.identifier = some (.simple v)
  | .list => ∃ v, c.index = some (.simple v) ∧ v.typeName = some "integer"
  | .map => c.index.isSome

/-- Binding the row identifier of a bag leaves the rest of it alone. -/
theorem yields_bindBagIdentifier (pass : CollectionPass) (c : Collection) :
    Yields (bindBagIdentifier pass c) fun c' =>
      c.Indexed c' ∧ c'.CompletedAs .identifierBag ∧ c'.reading = c.reading := by
  unfold bindBagIdentifier
  exact .next fun _ => .next fun _ => .next fun v =>
    .pure ⟨⟨⟨rfl, rfl, rfl, rfl, rfl⟩, rfl, rfl, rfl⟩, ⟨v, rfl⟩, rfl⟩

/-- A map key changes nothing but the index. -/
theorem yields_bindMapKey (scope : Scope) (c : Collection) (node : Element) :
    Yields (bindMapKey scope c node) c.Indexed := by
  unfold bindMapKey
  dsimp only
  split
  · exact .next fun _ => .ite (fun _ => .throw_bind _ _ _) fun _ =>
      .pure ⟨⟨rfl, rfl, rfl, rfl, rfl⟩, rfl, rfl, rfl⟩
  · exact .next fun _ => .next fun _ => .next fun _ => .next fun _ =>
      .pure ⟨⟨rfl, rfl, rfl, rfl, rfl⟩, rfl, rfl, rfl⟩
  · exact .next fun _ => .next fun _ => .pure ⟨⟨rfl, rfl, rfl, rfl, rfl⟩, rfl, rfl, rfl⟩
  · exact .next fun _ => .pure ⟨⟨rfl, rfl, rfl, rfl, rfl⟩, rfl, rfl, rfl⟩
  · exact .pure (.refl c)

/-- Binding the keys of a map leaves the rest of it alone. -/
theorem yields_bindMapKeys (scope : Scope) (c : Collection) (children : List Element) :
    Yields (bindMapKeys scope c children) c.Indexed := by
  induction children generalizing c with
  | nil => exact .pure (.refl c)
  | cons node rest ih =>
    exact .bind (yields_bindMapKey scope c node) fun c₁ hc₁ => (ih c₁).mono fun _ => hc₁.trans

/-! ## Showing a collection -/

/-- The backref that shows the index of a collection, if its index is bound and has no
formula. -/
def Collection.indexBackref? (c : Collection) (kind : PassKind) (node : Element) :
    Option (String × Property) :=
  match kind with
  | .list | .map => if c.index.any Value.hasFormula then none else c.backref? node .index
  | .plain | .identifierBag => none

namespace Registry

/-- The registry after a backref is added, if there is one to add. -/
def display (r : Registry) : Option (String × Property) → Registry
  | none => r
  | some (target, p) => r.modifyEntity target (·.addProperty p)

/-- A backref that is there can be added. -/
def Displays (r : Registry) (shown : Option (String × Property)) : Prop :=
  ∀ target p, shown = some (target, p) → r.hasEntity target = true

/-- Backrefs are no collections. -/
@[simp] theorem collections_display (r : Registry) (shown : Option (String × Property)) :
    (r.display shown).collections = r.collections := by
  cases shown <;> rfl

/-- Backrefs are no passes. -/
@[simp] theorem passes_display (r : Registry) (shown : Option (String × Property)) :
    (r.display shown).passes = r.passes := by
  cases shown <;> rfl

/-- Backrefs are no definitions. -/
theorem sameDefinitions_display (r : Registry) (shown : Option (String × Property)) :
    SameDefinitions r (r.display shown) := by
  cases shown <;> exact ⟨rfl, rfl⟩

end Registry

/-- A backref is added if there is one, and then its entity is registered. -/
theorem of_run_addBackref {node : Element} {c : Collection} {kind : BackrefKind}
    {r r' : Registry} (h : (addBackref node c kind).run r = .ok () r') :
    r.Displays (c.backref? node kind) ∧ r' = r.display (c.backref? node kind) := by
  unfold addBackref at h
  split at h
  · next hnone =>
    cases h
    rw [hnone]
    exact ⟨(fun _ _ hsome => nomatch hsome), rfl⟩
  · next target p hsome =>
    rw [run_get_bind] at h
    split at h
    · next hregistered =>
      cases h
      rw [hsome]
      refine ⟨fun _ _ hsame => ?_, rfl⟩
      cases hsame
      exact hregistered
    · cases h

/-- An index with a formula is not shown. -/
theorem of_run_addIndexBackref {node : Element} {c : Collection} {r r' : Registry}
    (h : (addIndexBackref node c).run r = .ok () r') :
    r.Displays (c.indexBackref? .list node) ∧ r' = r.display (c.indexBackref? .list node) := by
  unfold addIndexBackref at h
  unfold Collection.indexBackref?
  split at h
  · next hformula =>
    cases h
    rw [if_pos hformula]
    exact ⟨(fun _ _ hsome => nomatch hsome), rfl⟩
  · next hformula =>
    rw [if_neg hformula]
    exact of_run_addBackref h

/-! ## Runs of a pass -/

/-- Finding the owner of a collection changes nothing. -/
theorem eq_of_run_find {name : String} {owner : Owner} {r r' : Registry}
    (h : (Owner.find name).run r = .ok owner r') : r' = r := by
  unfold Owner.find at h
  rw [run_get_bind] at h
  exact (run_require_eq_ok.mp h).2

/-- Binding the key and element of a collection as they read settles it and is preparation, and the
collection is shown then. -/
theorem of_run_bindContents {pass : CollectionPass} {c : Collection} {r r' : Registry}
    (h : (bindContents pass).run r = .ok c r') :
    ∃ c₀ r₁, r.collection? pass.role = some c₀ ∧ c₀.DeclaredAs c ∧ c.SettledIn r ∧
      pass.node.children.foldlM r.readContent c₀.reading = .ok c.reading ∧
      Preparations r r₁ ∧ r₁.Displays (c.backref? pass.node .collection) ∧
      r' = r₁.display (c.backref? pass.node .collection) := by
  unfold bindContents at h
  rw [run_get_bind] at h
  obtain ⟨c₀, r₀, hrequired, h₀⟩ := run_bind_eq_ok.mp h
  obtain ⟨hfound, rfl⟩ := run_require_eq_ok.mp hrequired
  obtain ⟨owner, r₁, howner, h₁⟩ := run_bind_eq_ok.mp h₀
  rw [run_get_bind] at h₁
  obtain rfl := eq_of_run_find howner
  obtain ⟨c₁, r₂, hresolved, h₂⟩ := run_bind_eq_ok.mp h₁
  obtain ⟨hresolved, rfl⟩ := run_ofExcept_eq_ok.mp hresolved
  obtain ⟨hdeclared, hsettled⟩ := settledIn_resolveTarget hresolved
  obtain ⟨c₂, r₃, hchecked, h₃⟩ := run_bind_eq_ok.mp h₂
  obtain ⟨c₃, r₄, hcontents, h₄⟩ := run_bind_eq_ok.mp h₃
  obtain ⟨hfilled, hreading⟩ := yields_bindCollectionCheck c₁ _ _ _ _ hchecked
  replace hfilled := hfilled.trans (yields_bindContentsOf _ _ c₂ _ _ _ _ hcontents)
  have hcheck := (steady_bindCollectionCheck _ _).prepares.of_ok hchecked
  have hreads := ((reads_bindContentsOf _ _ c₂ _).of_ok trivial hcontents).2
  rw [Preparations.sameDefinitions hcheck |>.readContent, hreading,
    reading_resolveTarget hresolved] at hreads
  obtain ⟨_, r₅, hconstrained, h₅⟩ := run_bind_eq_ok.mp h₄
  obtain ⟨_, r₆, hshown, hlast⟩ := run_bind_eq_ok.mp h₅
  cases hlast
  obtain ⟨hdisplays, rfl⟩ := of_run_addBackref hshown
  refine ⟨c₀, r₅, hfound, hdeclared.trans hfilled.toDeclaredAs, hfilled.settledIn hsettled, hreads,
    ?_, hdisplays, rfl⟩
  cases hconstrained
  exact (hcheck.trans ((prepares_bindContentsOf _ _ _ _).of_ok hcontents)).trans
    (quietWrites_constrainContents r₄ c owner).preparations

/-- Binding what else a collection has as it reads completes it and is preparation, and its index is
shown then. -/
theorem of_run_bindIndexing {kind : PassKind} {pass : CollectionPass} {c c' : Collection}
    {r r' : Registry} (h : (bindIndexing kind pass c).run r = .ok c' r') :
    c.Indexed c' ∧ c'.CompletedAs kind ∧ c'.reading = r.readIndex c.reading pass.node kind ∧
      ∃ r₁, Preparations r r₁ ∧
      r₁.Displays (c'.indexBackref? kind pass.node) ∧
      r' = r₁.display (c'.indexBackref? kind pass.node) := by
  cases kind with
  | plain =>
    cases h
    exact ⟨.refl c, trivial, rfl, r, .refl, (fun _ _ hsome => nomatch hsome), rfl⟩
  | identifierBag =>
    obtain ⟨hindexed, hcompleted, hreading⟩ := yields_bindBagIdentifier pass c _ _ _ h
    exact ⟨hindexed, hcompleted, hreading, r', (steady_bindBagIdentifier _ _).prepares.of_ok h,
      (fun _ _ hsome => nomatch hsome), rfl⟩
  | list =>
    obtain ⟨node, r₁, hrequired, h₁⟩ := run_bind_eq_ok.mp h
    obtain ⟨hnode, rfl⟩ := run_require_eq_ok.mp hrequired
    obtain ⟨v, r₂, hbound, h₂⟩ := run_bind_eq_ok.mp h₁
    have htype := ((reads_bindSimpleValue _ _).of_ok trivial hbound).2
    obtain ⟨base, r₃, hbase, h₃⟩ := run_bind_eq_ok.mp h₂
    obtain ⟨-, rfl⟩ := run_ofExcept_eq_ok.mp hbase
    obtain ⟨_, r₄, hshown, hlast⟩ := run_bind_eq_ok.mp h₃
    cases hlast
    obtain ⟨hdisplays, hdisplay⟩ := of_run_addIndexBackref hshown
    refine ⟨⟨⟨rfl, rfl, rfl, rfl, rfl⟩, rfl, rfl, rfl⟩, ⟨_, rfl, rfl⟩, ?_, r₃,
      (steady_bindSimpleValue _ _).prepares.of_ok hbound, hdisplays, hdisplay⟩
    rw [Registry.readIndex, hnode, Option.map_some, ← htype]
    rfl
  | map =>
    obtain ⟨c₁, r₁, hkeys, h₁⟩ := run_bind_eq_ok.mp h
    split at h₁
    · cases h₁
    · next hindex =>
      obtain ⟨_, r₂, hshown, hlast⟩ := run_bind_eq_ok.mp h₁
      cases hlast
      obtain ⟨hdisplays, hdisplay⟩ := of_run_addIndexBackref hshown
      rw [← Option.not_isSome, Bool.not_eq_true', Bool.not_eq_false] at hindex
      exact ⟨yields_bindMapKeys pass.scope c _ _ _ _ hkeys, hindex,
        ((reads_bindMapKeys _ c _).of_ok trivial hkeys).2, r₁,
        (prepares_bindMapKeys _ _ _).of_ok hkeys, hdisplays, hdisplay⟩

/-- A pass for the contents of a collection that ends well: the registries before and after,
and the collection that is written back. -/
inductive ContentsRun (kind : PassKind) (pass : CollectionPass) (c : Collection) :
    Registry → Registry → Prop
  | intro {r r₁ r₂ : Registry} {c₀ : Collection} (hfound : r.collection? pass.role = some c₀)
      (hdeclared : c₀.DeclaredAs c) (hsettled : c.SettledIn r) (hcontents : Preparations r r₁)
      (hshown : r₁.Displays (c.backref? pass.node .collection))
      (hindex : Preparations (r₁.display (c.backref? pass.node .collection)) r₂)
      (hindexShown : r₂.Displays (c.indexBackref? kind pass.node))
      (hcompleted : c.CompletedAs kind)
      (hreads : c₀.reading = {} → r.readContents kind pass.node = .ok c.reading) :
      ContentsRun kind pass c r
        ((r₂.display (c.indexBackref? kind pass.node)).modifyCollection c.role fun _ => c)

/-- A pass for contents leaves definitions alone. -/
theorem ContentsRun.sameDefinitions {kind : PassKind} {pass : CollectionPass} {c : Collection}
    {r r' : Registry} (h : ContentsRun kind pass c r r') : SameDefinitions r r' := by
  cases h with
  | intro _ _ _ hcontents _ hindex =>
    have hkey := hcontents.sameDefinitions.trans
      (sameDefinitions_display _ (c.backref? pass.node .collection))
    have hall := (hkey.trans hindex.sameDefinitions).trans
      (sameDefinitions_display _ (c.indexBackref? kind pass.node))
    exact ⟨hall.types, hall.filters⟩

/-- Every pass for contents that ends well is such a run. -/
theorem contentsRun_of_ok {kind : PassKind} {pass : CollectionPass} {r r' : Registry}
    (h : (bindCollectionPass kind pass).run r = .ok () r') :
    ∃ c, ContentsRun kind pass c r r' := by
  unfold bindCollectionPass at h
  obtain ⟨c₁, r₁, hcontents, h₁⟩ := run_bind_eq_ok.mp h
  obtain ⟨c₀, r₀, hfound, hdeclared, hsettled, hcontent, hprepared, hshown, rfl⟩ :=
    of_run_bindContents hcontents
  obtain ⟨c, r₂, hindexing, h₂⟩ := run_bind_eq_ok.mp h₁
  obtain ⟨hindexed, hcompleted, hindex, r₃, hprepared', hshown', rfl⟩ :=
    of_run_bindIndexing hindexing
  have hreads : c₀.reading = {} → r.readContents kind pass.node = .ok c.reading := by
    intro hblank
    rw [hblank] at hcontent
    rw [(sameDefinitions_display _ _).readIndex, hprepared.sameDefinitions.readIndex] at hindex
    rw [Registry.readContents, hcontent, hindex]
    rfl
  rw [← hindexed.backref? pass.node] at hshown hprepared'
  unfold storeCollection at h₂
  rw [run_get_bind] at h₂
  split at h₂
  · cases h₂
    exact ⟨c, .intro hfound (hdeclared.trans hindexed.toDeclaredAs)
      (hindexed.filled.settledIn hsettled) hprepared hshown hprepared' hshown' hcompleted hreads⟩
  · cases h₂

end ObjectMapping
