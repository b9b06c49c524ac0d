import ObjectMapping.Proofs.PassOrder
import ObjectMapping.Proofs.Permanence
import ObjectMapping.Proofs.SessionGrounding

/-!
# Keys that may not be null

The key of a collection is stored in the table of the collection, which may have had columns of
these names before.  A column that is there is not replaced, so if the key may not be null, the pass
that binds it makes the columns of the table non-nullable after it has bound them.  From then on
they stay so: columns neither leave their table nor become nullable again.
-/

namespace ObjectMapping

open Binding Registry

/-! ## Required columns -/

namespace Registry

variable {r r' : Registry} {id : TableId} {name : String}

/-- The table at a position has a column of a name, and it may not be null. -/
def Requires (r : Registry) (id : TableId) (name : String) : Prop :=
  ∃ t column, r.table? id = some t ∧ t.column? name = some column ∧ column.nullable = false

/-- A column that may not be null stays where it is, and non-nullable. -/
theorem Requires.later (h : r.Requires id name) (hlater : r.Upgrades r') :
    r'.Requires id name := by
  obtain ⟨t, column, ht, hcolumn, hrequired⟩ := h
  obtain ⟨t', ht', hextends⟩ := hlater.tables.getIdx? ht
  obtain ⟨column', hcolumn', htightens⟩ := hextends.columns.get? hcolumn
  refine ⟨t', column', ht', hcolumn', Bool.eq_false_iff.mpr fun hnullable => ?_⟩
  exact Bool.noConfusion (hrequired.symm.trans (htightens.2 hnullable))

end Registry

/-- The columns of a simple value may not be null, and neither may those of a table that they
name. -/
structure SimpleValue.RequiredIn (r : Registry) (id : TableId) (v : SimpleValue) : Prop where
  columns : ∀ column ∈ v.columns, column.nullable = false
  stored : ∀ name ∈ v.columnNames, r.Requires id name

/-- If the key of a collection may not be null, its columns are required in the table of the
collection. -/
def Collection.KeyRequired (r : Registry) (c : Collection) : Prop :=
  ∀ base wrapped updatable, c.key = some (.dependant base wrapped false updatable) →
    ∃ id, c.table = some id ∧ base.RequiredIn r id

namespace Collection.KeyRequired

variable {r r' : Registry} {c c' : Collection}

theorem later (h : c.KeyRequired r) (hlater : r.Upgrades r') : c.KeyRequired r' := by
  intro base wrapped updatable hkey
  obtain ⟨id, htable, hrequired⟩ := h base wrapped updatable hkey
  exact ⟨id, htable, hrequired.columns, fun name hname =>
    (hrequired.stored name hname).later hlater⟩

/-- Only the key and the table matter. -/
theorem congr (h : c.KeyRequired r) (hkey : c'.key = c.key) (htable : c'.table = c.table) :
    c'.KeyRequired r := by
  unfold KeyRequired
  rw [hkey, htable]
  exact h

/-- Nothing is required of a key that is not bound. -/
theorem of_untyped (h : c.key.bind Value.type? = none) : c.KeyRequired r := by
  intro base wrapped updatable hkey
  rw [hkey] at h
  cases h

end Collection.KeyRequired

/-- The keys of all registered collections are required as they say. -/
def Registry.KeysRequired (r : Registry) : Prop :=
  ∀ role c, r.collection? role = some c → c.KeyRequired r

/-- Keys are required as they say, while registries are upgraded. -/
def requiring : Upkeep where
  invariant := KeysRequired
  keeps := Upgrades
  refl := .refl
  trans := .trans

/-! ## Writes -/

section

variable {r r' : Registry}

/-- Of a registry that upgrades another, only collections that are not in the other one have to be
looked at. -/
theorem Registry.KeysRequired.grow (hr : r.KeysRequired) (hlater : r.Upgrades r')
    (h : ∀ role c, r'.collection? role = some c →
      r.collection? role = some c ∨ c.KeyRequired r') : requiring.Advances r r' :=
  ⟨hlater, fun role c hc => (h role c hc).elim (fun hold => (hr role c hold).later hlater) id⟩

/-- There is nothing to look at if the collections are the same. -/
theorem Registry.KeysRequired.of_same (hr : r.KeysRequired) (hlater : r.Upgrades r')
    (hsame : r'.collections = r.collections) : requiring.Advances r r' := by
  refine hr.grow hlater fun role c hc => .inl ?_
  rwa [collection?, hsame] at hc

theorem Registry.Preparation.requiring (h : Preparation r r') (hr : r.KeysRequired) :
    requiring.Advances r r' := by
  have hlater := h.upgrades
  cases h with
  | quiet h => exact hr.of_same hlater h.alike.collections
  | collection h henlisted =>
    refine hr.grow hlater fun role c hc => ?_
    rcases eq_or_of_collection?_addCollection h hc with ⟨-, rfl⟩ | hold
    · exact .inr (.of_untyped (congrArg ContentReading.key henlisted.blank))
    · exact .inl hold
  | propertyRef => exact hr.of_same hlater rfl
  | mark => exact hr.of_same hlater rfl

theorem Registry.Showing.requiring (h : Showing r r') (hr : r.KeysRequired) :
    requiring.Advances r r' := by
  have hlater := h.passing.upgrades
  cases h with
  | prepare h => exact h.requiring hr
  | reveal => exact hr.of_same hlater rfl

theorem Declaration.requiring (h : Declaration r r') (hr : r.KeysRequired) :
    requiring.Advances r r' := by
  have hlater := h.upgrades
  cases h with
  | waiting => exact hr.of_same hlater rfl
  | entry h =>
    cases h with
    | define h => cases h <;> exact hr.of_same hlater rfl
    | enroll h =>
      cases h with
      | entity h =>
        obtain ⟨-, rfl⟩ := addEntity_eq_ok.mp h
        exact hr.of_same hlater rfl
      | elaborate h =>
        cases h with
        | prepare h => exact h.requiring hr
        | change => exact hr.of_same hlater rfl

theorem Registry.Marks.requiring (h : Marks r r') (hr : r.KeysRequired) :
    requiring.Advances r r' := by
  obtain ⟨entities, rfl⟩ := h.frame
  refine hr.of_same (.of_steps (fun _ _ => Mark.upgrades) h) rfl

/-- A collection may be written back if its key is required. -/
theorem Registry.KeysRequired.store (hr : r.KeysRequired) {c : Collection} (hc : c.KeyRequired r) :
    requiring.Advances r (r.modifyCollection c.role fun _ => c) := by
  have hlater := (Passing.store r c).upgrades
  refine hr.grow hlater fun role c' hc' => ?_
  rcases eq_or_of_collection?_replaced hc' with ⟨-, rfl⟩ | hold
  · exact .inr (hc.later hlater)
  · exact .inl hold

end

/-! ## Passes -/

/-- Keys are required as they say in a grounded registry. -/
def Source.requiring (S : Source) : Upkeep := S.grounding.and ObjectMapping.requiring

section

variable {S : Source} {r : Registry} {id : TableId} {c c' : Collection} {α : Type}

/-- What leads a grounded registry may write no collection back. -/
theorem requires_of_leads {m : Binding α} {P : α → Registry → Prop} (h : Leads S m r P)
    (hm : Makes Showing m) : Upholds S.requiring m r P :=
  (h.upholds.and (.of_steps hm fun _ _ => Showing.requiring)).mono fun _ _ _ hpost => hpost.1

/-- The columns of a value that is made non-nullable may not be null. -/
theorem SimpleValue.nullable_withNullable {v : SimpleValue} {nullable : Bool} {column : Column}
    (h : column ∈ (v.withNullable nullable).columns) : column.nullable = nullable := by
  simp only [columns, withNullable, List.filterMap_map, List.mem_filterMap,
    Function.comp_apply] at h
  obtain ⟨s, -, hs⟩ := h
  cases s <;> cases hs
  rfl

/-- Columns that a table has are required once they are made so. -/
theorem Registry.HasColumns.requires {names : List String} (h : r.HasColumns id names)
    {name : String} (hname : name ∈ names) :
    (r.modifyTable id (·.requireColumns names)).Requires id name := by
  obtain ⟨t, ht, hnames⟩ := h
  obtain ⟨column, hcolumn⟩ := KeyedList.mem_keys_iff.mp (hnames hname)
  refine ⟨t.requireColumns names, { column with nullable := false }, ?_, ?_, rfl⟩
  · rw [table?_modifyTable, ht, Option.map_some, if_pos rfl]
  · rw [Table.column?_requireColumns, Table.column?, hcolumn, Option.map_some, if_pos hname]

/-- If a key may not be null, its columns are required in the table of its collection. -/
theorem requires_bindCollectionKey (hc : c.StoredIn S r id) (owner : Owner) {node : Element}
    (hnode : S.Has node) : Upholds S.requiring (bindCollectionKey c owner node) r
      fun v r' => ∀ base wrapped updatable, v = .dependant base wrapped false updatable →
        base.RequiredIn r' id := by
  unfold bindCollectionKey
  refine .get_bind (.ofExcept_bind fun wrapped _ => ?_)
  refine .bind (requires_of_leads (leads_bindSimpleValue hc.table hc.holds hnode)
    (steady_bindSimpleValue _ _).prepares.showing) fun base r₁ _ hbase => ?_
  dsimp only
  refine .ite (fun _ => .pure fun _ _ _ hv => ?_) fun _ => ?_
  · injection hv with _ _ hnullable
    cases hnullable
  · -- The columns are in the table already, whoever put them there.
    obtain ⟨⟨⟨id', hid', hcolumns⟩, -⟩, htable⟩ := hbase
    cases htable.symm.trans hid'
    rw [hc.table]
    refine .bind (P := fun _ r' => ∀ name ∈ base.columnNames, r'.Requires id name)
      (fun hr => ⟨?_, fun _ r₂ hrun name hname => ?_⟩) fun _ r₂ _ hrequired => .pure ?_
    · exact (requires_of_leads (.writeTable fun t _ ht => ht.requireColumns _)
        (steady_changeTable (some id) (f := (·.requireColumns _)) (fun _ => rfl) fun t =>
          .requireColumns t _).prepares.showing).advances hr
    · cases hrun
      exact hcolumns.requires hname
    · intro base' wrapped' updatable' hv
      injection hv with hbase
      subst hbase
      refine ⟨fun column => SimpleValue.nullable_withNullable, fun name hname => ?_⟩
      rw [SimpleValue.columnNames_withNullable] at hname
      exact hrequired name hname

/-- A child that is no key leaves the key alone. -/
theorem yields_key_bindContent (scope : Scope) (owner : Owner) (c : Collection) {node : Element}
    (hnode : node.tag? ≠ some .key) :
    Yields (bindContent scope owner c node) fun c' => c'.key = c.key := by
  unfold bindContent
  dsimp only
  split
  · exact absurd ‹_› hnode
  · exact .next fun _ => .pure rfl
  · refine .bind (P := fun c' => c'.key = c.key) ?_ fun c' hc' => .pure hc'
    unfold bindManyToMany
    exact .next fun _ => .next fun _ => .next fun _ => .ite (fun _ => .throw_bind _ _ _) fun _ =>
      .pure rfl
  · exact .next fun _ => .pure rfl
  · exact .next fun _ => .pure rfl
  · exact .next fun _ => .pure rfl
  · exact .pure rfl

/-- A child of a collection leaves its key required as it says. -/
theorem requires_bindContent (scope : Scope) (owner : Owner) (hc : c.StoredIn S r id)
    (hkey : c.KeyRequired r) {node : Element} (hnode : S.Has node) (hinner : S.Inner node) :
    Upholds S.requiring (bindContent scope owner c node) r
      fun c' r' => c'.StoredIn S r' id ∧ c'.KeyRequired r' := by
  refine .also (requires_of_leads (leads_bindContent scope owner hc hnode hinner)
    (prepares_bindContent scope owner c node).showing) ?_
  by_cases htag : node.tag? = some .key
  · unfold bindContent
    simp only [htag]
    refine .bind (requires_bindCollectionKey hc owner hnode) fun v r' _ hv => .pure ?_
    intro base wrapped updatable hbase
    exact ⟨id, hc.table, hv base wrapped updatable (Option.some.inj hbase)⟩
  · have hsame : Upholds S.requiring (bindContent scope owner c node) r
        fun c' _ => c.Filled c' ∧ c'.key = c.key := by
      have hleads := requires_of_leads (leads_bindContent scope owner hc hnode hinner)
        (prepares_bindContent scope owner c node).showing
      exact fun hr => ⟨hleads.advances hr, fun c' r' hrun =>
        ⟨yields_bindContent scope owner c node r c' r' hrun,
          yields_key_bindContent scope owner c htag r c' r' hrun⟩⟩
    exact hsame.mono fun c' r' hkeeps hc' => (hkey.later hkeeps.2).congr hc'.2 hc'.1.table

/-- So do all of its children. -/
theorem requires_bindContentsOf (scope : Scope) (owner : Owner) {children : List Element}
    (hchildren : ∀ node ∈ children, S.Has node ∧ S.Inner node) (hc : c.StoredIn S r id)
    (hkey : c.KeyRequired r) : Upholds S.requiring (bindContentsOf scope owner c children) r
      fun c' r' => c'.StoredIn S r' id ∧ c'.KeyRequired r' := by
  induction children generalizing r c with
  | nil => exact .pure ⟨hc, hkey⟩
  | cons node rest ih =>
    rw [List.forall_mem_cons] at hchildren
    exact .bind (requires_bindContent scope owner hc hkey hchildren.1.1 hchildren.1.2)
      fun c' r' _ hc' => ih hchildren.2 hc'.1 hc'.2

/-- Resolving the target of a collection leaves its key alone. -/
theorem key_of_resolveTarget (h : c.resolveTarget r = .ok c') : c'.key = c.key := by
  unfold Collection.resolveTarget at h
  split at h
  · dsimp only at h
    split at h <;> cases h
    rfl
  · cases h
    rfl

/-- Adding a check constraint does so, too. -/
theorem yields_key_bindCollectionCheck (c : Collection) (node : Element) :
    Yields (bindCollectionCheck c node) fun c' => c'.key = c.key := by
  unfold bindCollectionCheck
  split
  · exact .next fun _ => .pure rfl
  · exact .pure rfl

variable {pass : CollectionPass} (hnode : S.Has pass.node) (hopens : pass.node.OpensTable)
include hnode hopens

/-- Once its key and element are bound, the key of a collection is required as it says. -/
theorem requires_bindContents
    (hblank : ∀ c, r.collection? pass.role = some c → c.EnlistedBy pass) :
    Upholds S.requiring (bindContents pass) r
      fun c r' => ∃ id, c.StoredIn S r' id ∧ c.KeyRequired r' := by
  unfold bindContents
  refine .of_invariant fun hr => .get_bind (.require_bind fun c hfound => ?_)
  have hc := hr.1.collections pass.role c hfound
  refine .bind (requires_of_leads (leads_find c.ownerEntity) (steady_find _).prepares.showing)
    fun owner r₁ hkeeps _ => ?_
  refine .of_invariant fun hr₁ => .get_bind (.ofExcept_bind fun c₁ hresolved => ?_)
  obtain ⟨id, hc₁⟩ := Collection.Grounded.resolveTarget hr₁.1 (hc.mono hkeeps.1) hresolved
  have hkey₁ : c₁.key = c.key := key_of_resolveTarget hresolved
  have hcheck := requires_of_leads (leads_bindCollectionCheck hc₁ pass.node)
    (steady_bindCollectionCheck c₁ pass.node).prepares.showing
  refine .bind (P := fun c' r' => c'.StoredIn S r' id ∧ c'.key = c₁.key)
    (fun hr₁ => ⟨hcheck.advances hr₁, fun c' r' hrun => ⟨(hcheck.of_ok hr₁ hrun).2, ?_⟩⟩)
    fun c₂ r₂ _ hc₂ => ?_
  · exact yields_key_bindCollectionCheck c₁ pass.node r₁ c' r' hrun
  -- What was registered has no key, so nothing is required before it is bound.
  have hkey₂ : c₂.KeyRequired r₂ := by
    refine .of_untyped ?_
    rw [hc₂.2, hkey₁]
    exact congrArg ContentReading.key (hblank c hfound).blank
  refine .bind (requires_bindContentsOf pass.scope owner
    (fun node hin => ⟨hnode.child hin, .of_opensTable hnode hopens hin⟩) hc₂.1 hkey₂)
    fun c₃ r₃ _ hc₃ => ?_
  have hconstrain : Makes Showing (modify (·.constrainContents c₃ owner) : Binding PUnit) :=
    Prepares.showing (.modify fun r => (quietWrites_constrainContents r _ _).preparations)
  refine .bind (requires_of_leads (.write fun hr => hr.constrainContents hc₃.1.grounded owner)
    hconstrain) fun _ r₄ hkeeps₃ _ => ?_
  have hc₄ := hc₃.1.mono hkeeps₃.1
  refine .bind (requires_of_leads (leads_addBackref pass.node hc₄.grounded .collection)
    (showing_addBackref _ _ _)) fun _ r₅ hkeeps₄ _ => .pure ⟨id, hc₄.mono hkeeps₄.1, ?_⟩
  exact (hc₃.2.later hkeeps₃.2).later hkeeps₄.2

/-- A pass for the contents of a collection writes back a collection whose key is required as it
says. -/
theorem requires_bindCollectionPass (kind : PassKind)
    (hblank : ∀ c, r.collection? pass.role = some c → c.EnlistedBy pass) :
    Upholds S.requiring (bindCollectionPass kind pass) r fun _ _ => True := by
  unfold bindCollectionPass storeCollection
  refine .bind (requires_bindContents hnode hopens hblank) fun c r₁ _ hc => ?_
  obtain ⟨id, hc, hkey⟩ := hc
  have hindexing := requires_of_leads (leads_bindIndexing hnode hopens kind hc)
    (showing_bindIndexing kind pass c)
  refine .bind (P := fun c' r' => c'.StoredIn S r' id ∧ c.Indexed c')
    (fun hr₁ => ⟨hindexing.advances hr₁, fun c' r' hrun => ?_⟩) fun c' r₂ hkeeps hc' => .get_bind ?_
  · exact ⟨(hindexing.of_ok hr₁ hrun).2, (of_run_bindIndexing hrun).1⟩
  · refine .ite (fun _ => .write fun hr₂ => ?_) fun _ => .throw _
    have hkey' := (hkey.later hkeeps.2).congr hc'.2.key hc'.2.table
    exact (hr₂.1.replaceCollection hc'.1.grounded _).upkeep.and (hr₂.2.store hkey')

end

/-! ## Sessions -/

namespace Session

variable {S : Source}

/-- Documents, passes and references keep the keys of collections required as they say. -/
theorem upkept_requiring :
    Upkept (S.requiring.and ordering) fun arrival => S.documents arrival.document where
  waiting hr := upkept_grounding.waiting hr.1.1
  setWaiting {r _} hr hwaiting :=
    ((upkept_grounding.setWaiting hr.1.1 hwaiting).and
      (hr.1.2.of_same { Upgrades.refl r with } rfl)).and
      (upkept_ordering.setWaiting hr.2 fun _ _ => trivial)
  upholds_bindRoot {r document} metas hdocument := by
    have hrequires : Upholds requiring (bindRoot document.root metas) r fun _ _ => True :=
      .of_steps (declaring_bindRoot _ metas) fun _ _ => Declaration.requiring
    have hordered : Upholds ordering (bindRoot document.root metas) r fun _ _ => True :=
      upkept_ordering.upholds_bindRoot metas trivial
    exact (((upkept_grounding.upholds_bindRoot metas hdocument).and hrequires).and hordered).mono
      fun _ _ _ _ => trivial
  nextPass {r rest pass} hr hnext := by
    refine .and ?_ (upkept_ordering.nextPass hr.2 hnext)
    obtain ⟨hadvances, hpass⟩ := hr.1.1.nextPass hnext
    obtain ⟨done, horderly⟩ := hr.2
    have htaken : requiring.Advances r rest := by
      obtain ⟨passes, -, rfl⟩ := nextPass?_eq_some_iff.mp hnext
      exact hr.1.2.of_same { Upgrades.refl r with } rfl
    have hrest := hadvances.upkeep.and htaken
    refine hrest.trans ?_
    cases pass with
    | contents kind pass =>
      refine (requires_bindCollectionPass hpass.1 hpass.2 kind fun c hc => ?_).advances
        hrest.invariant
      obtain ⟨c', hc', henlisted⟩ := horderly.head hnext
      cases hc.symm.trans hc'
      exact henlisted
    | propertyRef pass =>
      exact (requires_of_leads (leads_bindPropertyRef hpass)
        (quiet_bindPropertyRef pass).prepares.showing).advances hrest.invariant
  applyPropertyReferences hr happlied :=
    ((upkept_grounding.applyPropertyReferences hr.1.1 happlied).and
      ((marks_of_applyPropertyReferences happlied).1.requiring hr.1.2)).and
      (upkept_ordering.applyPropertyReferences hr.2 happlied)

/-- Wherever a session is driven to, before its end, by it or after it: if the key of a collection
may not be null, then none of the columns of the key may be, and the table of the collection has
columns of the same names that may not be null either, whatever else is mapped to them. -/
theorem required_keys_hold {options : RegistryOptions} {documents : Document → Prop} {r : Registry}
    (hr : Driven options documents r) {role : String} {c : Collection} {base : SimpleValue}
    {wrapped : Value} {updatable : Bool} (hc : r.collection? role = some c)
    (hkey : c.key = some (.dependant base wrapped false updatable)) :
    (∀ column ∈ base.columns, column.nullable = false) ∧
      ∃ id t, c.table = some id ∧ r.table? id = some t ∧ ∀ name ∈ base.columnNames,
        ∃ column, t.column? name = some column ∧ column.nullable = false := by
  have hempty : ((sourceOf options documents).requiring.and ordering).invariant { options } :=
    ⟨⟨grounded_empty options documents, fun _ c h => absurd h.symm (Option.some_ne_none c)⟩,
      [], .empty options⟩
  obtain ⟨⟨hgrounded, hrequired⟩, -⟩ := (upkept_requiring.advances_of_driven hempty hr).invariant
  obtain ⟨id, htable, hcolumns, hstored⟩ := hrequired role c hc base wrapped updatable hkey
  obtain ⟨t, ht⟩ := (hgrounded.collections role c hc).table id htable
  refine ⟨hcolumns, id, t, htable, ht, fun name hname => ?_⟩
  obtain ⟨t', column, ht', hcolumn⟩ := hstored name hname
  cases ht.symm.trans ht'
  exact ⟨column, hcolumn⟩

/-- Orders have lines, which cannot be without one.  A line has its order as a property, too, in the
column that is the key of the lines. -/
def linedOrders : Document := documentOf [
  identifiedClass "Order" [namedElement "set" "lines" [
    { name := "key", attributes := .ofList [("column", "order_id"), ("not-null", "true")] },
    { name := "one-to-many", attributes := .ofList [("class", "Line")] }]],
  identifiedClass "Line" [
    { name := "property"
      attributes := .ofList [("name", "order"), ("column", "order_id"), ("type", "long")] }]]

/-- Gifts are lines that map the column again. -/
def giftLines : Document := documentOf [
  { name := "subclass"
    attributes := .ofList [("name", "Gift"), ("extends", "Line")]
    children := [
      { name := "property"
        attributes := .ofList [("name", "parcel"), ("column", "order_id"), ("type", "long")] }] }]

/-- The session of the orders, before it is ended. -/
def linedSession : Registry := (Call.add linedOrders .empty).run.after { options := {} }

/-- The registry of the orders, with gifts. -/
def giftRegistry : Registry :=
  (Call.bind giftLines .empty).run.after (finish.after linedSession)

/-- The names of the columns of a key that may not be null. -/
def requiredKeyNames? (c : Collection) : Option (List String) :=
  match c.key with
  | some (.dependant base _ false _) => some base.columnNames
  | _ => none

/-- The column of the order may be null until the session is ended, and not any more when it is
mapped once again. -/
theorem required_keys_hold_giftRegistry :
    Driven {} (fun _ => True) giftRegistry ∧
      finish.succeeds linedSession = true ∧
      (Call.run (.bind giftLines .empty)).succeeds (finish.after linedSession) = true ∧
      orderColumnNullable linedSession = some true ∧
      orderColumnNullable giftRegistry = some false ∧
      ∃ c base wrapped updatable, giftRegistry.collection? "Order.lines" = some c ∧
        c.key = some (.dependant base wrapped false updatable) ∧ base.columnNames = ["order_id"] ∧
        (∀ column ∈ base.columns, column.nullable = false) ∧
        ∃ id t column, c.table = some id ∧ giftRegistry.table? id = some t ∧
          t.column? "order_id" = some column ∧ column.nullable = false := by
  have hdriven : Driven {} (fun _ => True) giftRegistry :=
    .call (.call (.call .start (.add linedOrders .empty) fun _ _ => trivial) .finish
      fun _ _ => trivial) (.bind giftLines .empty) fun _ _ => trivial
  have hnames : (giftRegistry.collection? "Order.lines").bind requiredKeyNames?
      = some ["order_id"] := by decide +kernel
  obtain ⟨c, hc, hnames⟩ := Option.bind_eq_some_iff.mp hnames
  unfold requiredKeyNames? at hnames
  split at hnames
  · next base wrapped updatable hkey =>
    injection hnames with hnames
    obtain ⟨hcolumns, id, t, htable, ht, hstored⟩ := required_keys_hold hdriven hc hkey
    obtain ⟨column, hcolumn⟩ := hstored "order_id" (by simp [hnames])
    exact ⟨hdriven, by decide +kernel, by decide +kernel, by decide +kernel, by decide +kernel,
      c, base, wrapped, updatable, hc, hkey, hnames, hcolumns, id, t, column, htable, ht, hcolumn⟩
  · cases hnames

end Session

end ObjectMapping
