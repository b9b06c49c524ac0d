import ObjectMapping.Proofs.Permanence
import ObjectMapping.Proofs.Standing
import ObjectMapping.Proofs.TableWrites

/-!
# Tables of hierarchies

A plain subclass is stored in the table of its superclass.  A union subclass has a table of its own
that repeats the columns of the table of its superclass; it refers to that table and does not copy
the columns, so that those that are added later are repeated as well.

A table that repeats another one is made after it, as the superclass was registered before.  Hence
chains of such tables end, and since each link goes to an earlier position, the bound that
`Registry.allColumns` puts on their length never cuts one.
-/

namespace ObjectMapping

open Binding Registry

/-! ## Kinds -/

namespace EntityKind

/-- A kind is known by its label and its superclass. -/
theorem eq_subclass {kind : EntityKind} {s : String}
    (hlabel : kind.label = (subclass s).label)
    (hsuper : kind.superclass? = (subclass s).superclass?) : kind = .subclass s := by
  cases kind <;> simp_all [label, superclass?]

/-- A union subclass is known by its label and its superclass. -/
theorem eq_unionSubclass {kind : EntityKind} {s : String}
    (hlabel : kind.label = (unionSubclass s).label)
    (hsuper : kind.superclass? = (unionSubclass s).superclass?) : kind = .unionSubclass s := by
  cases kind <;> simp_all [label, superclass?]

end EntityKind

/-! ## Repeated columns -/

namespace Registry

variable {r r' : Registry}

/-- Tables repeat the columns of earlier ones only. -/
def RepeatsBackwards (r : Registry) : Prop :=
  ∀ id t parent, r.table? id = some t → t.denormalizedParent = some parent →
    parent.index < id.index

/-- Past the position of a table the bound does not matter. -/
theorem RepeatsBackwards.columnsWithin_eq (hr : r.RepeatsBackwards) {bound bound' : Nat}
    {id : TableId} (h : id.index < bound) (h' : id.index < bound') :
    r.columnsWithin bound id = r.columnsWithin bound' id := by
  induction bound generalizing bound' id with
  | zero => cases h
  | succ bound ih =>
    obtain ⟨bound', rfl⟩ := Nat.exists_eq_add_one_of_ne_zero (Nat.ne_zero_of_lt h')
    rw [columnsWithin, columnsWithin]
    cases ht : r.table? id with
    | none => rfl
    | some t =>
      dsimp only
      cases hparent : t.denormalizedParent with
      | none => rfl
      | some parent =>
        have hlt := hr id t parent ht hparent
        have hcolumns : r.columnsWithin bound parent = r.columnsWithin bound' parent :=
          ih (by omega) (by omega)
        dsimp only
        rw [hcolumns]

/-- There is no table past the last one. -/
theorem index_lt_size {id : TableId} {t : Table} (h : r.table? id = some t) :
    id.index < r.tables.size := by
  obtain ⟨entry, hentry, -⟩ := Option.map_eq_some_iff.mp h
  exact (List.getElem?_eq_some_iff.mp hentry).1

/-- The bound on the number of tables that are visited is never reached. -/
theorem RepeatsBackwards.columnsWithin_eq_allColumns (hr : r.RepeatsBackwards) (id : TableId)
    {bound : Nat} (h : r.tables.size ≤ bound) : r.columnsWithin bound id = r.allColumns id := by
  cases ht : r.table? id with
  | none =>
    have hempty : ∀ bound, r.columnsWithin bound id = [] := by
      intro bound
      cases bound with
      | zero => rfl
      | succ bound => rw [columnsWithin, ht]
    rw [allColumns, hempty, hempty]
  | some t =>
    have hlt := index_lt_size ht
    exact hr.columnsWithin_eq (by omega) hlt

/-- All columns of a table are those of the table it repeats, followed by its own. -/
theorem RepeatsBackwards.allColumns_eq (hr : r.RepeatsBackwards) {id : TableId} {t : Table}
    (ht : r.table? id = some t) : r.allColumns id
      = (t.denormalizedParent.map r.allColumns).getD [] ++ t.columns.values := by
  rw [← hr.columnsWithin_eq_allColumns id (Nat.le_succ _), columnsWithin, ht]
  dsimp only
  cases hparent : t.denormalizedParent with
  | none => rfl
  | some parent =>
    have hother : parent ≠ id := by
      rintro rfl
      exact Nat.lt_irrefl _ (hr parent t parent ht hparent)
    dsimp only
    rw [if_neg hother]
    rfl

/-! ## Tables of entities -/

/-- A table is there for an entity of some kind: that of its superclass if it is a plain subclass,
and one that repeats it if it is a union subclass. -/
structure Houses (r : Registry) (kind : EntityKind) (table : TableId) : Prop where
  held : r.Holds table
  shared : ∀ s, kind = .subclass s → ∃ parent, r.entity? s = some parent ∧ table = parent.table
  repeated : ∀ s, kind = .unionSubclass s → ∃ parent t, r.entity? s = some parent ∧
    r.table? table = some t ∧ t.denormalizedParent = some parent.table

/-- Every entity has a table as its kind asks for, and tables repeat earlier ones only. -/
structure Housed (r : Registry) : Prop where
  backwards : r.RepeatsBackwards
  entities : ∀ name e, r.entity? name = some e → r.Houses e.kind e.table

/-- What is there for an entity stays there, for entities of the same kind. -/
theorem Houses.later {kind kind' : EntityKind} {table : TableId} (h : r.Houses kind table)
    (hlater : r.Upgrades r') (hlabel : kind'.label = kind.label)
    (hsuper : kind'.superclass? = kind.superclass?) : r'.Houses kind' table where
  held := by
    obtain ⟨t, ht⟩ := h.held
    obtain ⟨t', ht', -⟩ := hlater.tables.getIdx? ht
    exact ⟨t', ht'⟩
  shared s hkind := by
    subst hkind
    have hsame := EntityKind.eq_subclass hlabel.symm hsuper.symm
    obtain ⟨parent, hparent, htable⟩ := h.shared s hsame
    obtain ⟨parent', hparent', hextends⟩ := hlater.entities.get? hparent
    exact ⟨parent', hparent', htable.trans hextends.table.symm⟩
  repeated s hkind := by
    subst hkind
    have hsame := EntityKind.eq_unionSubclass hlabel.symm hsuper.symm
    obtain ⟨parent, t, hparent, ht, hrepeats⟩ := h.repeated s hsame
    obtain ⟨parent', hparent', hextends⟩ := hlater.entities.get? hparent
    obtain ⟨t', ht', hextends'⟩ := hlater.tables.getIdx? ht
    refine ⟨parent', t', hparent', ht', ?_⟩
    rw [hextends'.denormalizedParent, hrepeats, hextends.table]

end Registry

/-- Every entity keeps being housed while registries are upgraded. -/
def housing : Upkeep where
  invariant := Housed
  keeps := Upgrades
  refl := .refl
  trans := .trans

namespace Registry

variable {r r' : Registry}

/-! ## Writes -/

/-- Of a registry that upgrades another, only new tables and entities have to be looked at. -/
theorem Housed.grow (hr : r.Housed) (hlater : r.Upgrades r')
    (htables : ∀ id t', r'.table? id = some t' →
      (∃ t, r.table? id = some t ∧ t'.denormalizedParent = t.denormalizedParent) ∨
        ∀ parent, t'.denormalizedParent = some parent → parent.index < id.index)
    (hentities : ∀ name e', r'.entity? name = some e' →
      (∃ e, r.entity? name = some e ∧ e.Extends e') ∨ r.Houses e'.kind e'.table) :
    housing.Advances r r' where
  keeps := hlater
  invariant :=
    { backwards := fun id t' parent ht' hparent => by
        rcases htables id t' ht' with ⟨t, ht, hsame⟩ | hnew
        · exact hr.backwards id t parent ht (hsame ▸ hparent)
        · exact hnew parent hparent
      entities := fun name e' he' => by
        rcases hentities name e' he' with ⟨e, he, hextends⟩ | hnew
        · rw [hextends.table]
          exact (hr.entities name e he).later hlater hextends.kind hextends.superclass
        · exact hnew.later hlater rfl rfl }

/-- Nothing is new if there are the same tables and entities. -/
theorem Housed.of_same (hr : r.Housed) (hlater : r.Upgrades r') (htables : r'.tables = r.tables)
    (hentities : r'.entities = r.entities) : housing.Advances r r' := by
  refine hr.grow hlater (fun id t' ht' => .inl ⟨t', ?_, rfl⟩) fun name e' he' =>
    .inl ⟨e', ?_, .refl e'⟩
  · rwa [table?, htables] at ht'
  · rwa [entity?, hentities] at he'

/-- Entities may be extended. -/
theorem Housed.modifyEntity (hr : r.Housed) (name : String) {f : Entity → Entity}
    (h : ∀ e : Entity, e.Extends (f e)) : housing.Advances r (r.modifyEntity name f) := by
  refine hr.grow (.modifyEntity r name h) (fun id t' ht' => .inl ⟨t', ht', rfl⟩)
    fun name' e' he' => .inl ?_
  rw [entity?_modifyEntity] at he'
  obtain ⟨e, he, rfl⟩ := Option.map_eq_some_iff.mp he'
  refine ⟨e, he, ?_⟩
  split
  · exact h e
  · exact .refl e

/-- So may tables. -/
theorem Housed.modifyTable (hr : r.Housed) (id : TableId) {f : Table → Table}
    (h : ∀ t : Table, t.Grows (f t)) : housing.Advances r (r.modifyTable id f) := by
  refine hr.grow (.modifyTable r id h) (fun id' t' ht' => .inl ?_)
    fun name e' he' => .inl ⟨e', he', .refl e'⟩
  rw [table?_modifyTable] at ht'
  obtain ⟨t, ht, rfl⟩ := Option.map_eq_some_iff.mp ht'
  refine ⟨t, ht, ?_⟩
  split
  · exact (h t).denormalizedParent
  · rfl

/-- A table may be appended that repeats one of the others at most. -/
theorem Housed.appendTable (hr : r.Housed) {key : TableKey} {t : Table}
    (h : ∀ parent, t.denormalizedParent = some parent → r.Holds parent) :
    housing.Advances r { r with tables := r.tables.insertIfNew key t } := by
  have hlater : r.Upgrades { r with tables := r.tables.insertIfNew key t } := .insertTable r key t
  refine hr.grow hlater (fun id t' ht' => ?_) fun name e' he' => .inl ⟨e', he', .refl e'⟩
  cases hfresh : r.tables.contains key with
  | true =>
    rw [table?, KeyedList.insertIfNew, dif_neg (by rw [hfresh]; exact Bool.noConfusion)] at ht'
    exact .inl ⟨t', ht', rfl⟩
  | false =>
    rw [table?, KeyedList.getIdx?_insertIfNew r.tables hfresh] at ht'
    split at ht'
    · next hlast =>
      cases ht'
      refine .inr fun parent hparent => ?_
      obtain ⟨t₀, ht₀⟩ := h parent hparent
      rw [hlast]
      exact index_lt_size ht₀
    · exact .inl ⟨t', ht', rfl⟩

/-- Quiet writes keep entities housed: a table that repeats another one repeats that of an entity,
which is there already. -/
theorem QuietWrite.housing (h : QuietWrite r r') (hr : r.Housed) : housing.Advances r r' := by
  have hlater := h.upgrades
  have hentities := h.alike.entities
  cases h with
  | table id hgrows => exact hr.modifyTable id hgrows
  | addTable q =>
    rcases r.addTable_cases q with h | ⟨id, h⟩ | h <;> rw [h]
    · exact .refl hr
    · exact hr.modifyTable id fun t => .of_eq rfl rfl rfl rfl rfl rfl
    · exact hr.appendTable nofun
  | addDenormalizedTable h hparent =>
    obtain ⟨name, e, he, rfl⟩ := hparent
    cases eq_of_addDenormalizedTable h
    refine hr.appendTable fun parent hparent => ?_
    cases hparent
    exact (hr.entities name e he).held
  | addImport h =>
    obtain ⟨-, rfl⟩ | ⟨-, rfl⟩ := addImportUnless_eq_ok.mp h <;> exact hr.of_same hlater rfl rfl
  | addQuery h =>
    obtain ⟨-, rfl⟩ := addQuery_eq_ok.mp h
    exact hr.of_same hlater rfl rfl
  | addSqlQuery h =>
    obtain ⟨-, rfl⟩ := addSqlQuery_eq_ok.mp h
    exact hr.of_same hlater rfl rfl
  | addResultSet h =>
    obtain ⟨-, rfl⟩ := addResultSet_eq_ok.mp h
    exact hr.of_same hlater rfl rfl
  | tableBinding | auxiliaryObject | propertyReference | defaults =>
    exact hr.of_same hlater rfl rfl

/-- A preparation moves no entity to another table. -/
theorem Preparation.housing (h : Preparation r r') (hr : r.Housed) : housing.Advances r r' := by
  have hlater := h.upgrades
  cases h with
  | quiet h => exact h.housing hr
  | collection h =>
    obtain ⟨-, rfl⟩ := addCollection_eq_ok.mp h
    exact hr.of_same hlater rfl rfl
  | propertyRef => exact hr.of_same hlater rfl rfl
  | mark name => exact hr.modifyEntity name fun _ => ⟨rfl, rfl, rfl, rfl⟩

/-- Nor does a pass. -/
theorem Passing.housing (h : Passing r r') (hr : r.Housed) : housing.Advances r r' := by
  have hlater := h.upgrades
  cases h with
  | prepare h => exact h.housing hr
  | reveal name => exact hr.modifyEntity name fun _ => ⟨rfl, rfl, rfl, rfl⟩
  | store => exact hr.of_same hlater rfl rfl

/-- Nor do marks. -/
theorem Marks.housing (h : Marks r r') (hr : r.Housed) : housing.Advances r r' := by
  induction h with
  | refl => exact .refl hr
  | tail _ hmark ih =>
    cases hmark with
    | property place => exact ih.trans (ih.invariant.modifyEntity _ fun e => .modifySlot e _ _)

end Registry

/-- Nor does an elaboration. -/
theorem Elaboration.housing {r r' : Registry} (h : Elaboration r r') (hr : r.Housed) :
    housing.Advances r r' := by
  cases h with
  | prepare h => exact h.housing hr
  | change name _ hextends => exact hr.modifyEntity name hextends

/-! ## Opening entities -/

section

variable {r : Registry}

/-- A computation that prepares moves no entity. -/
theorem houses_prepares {α : Type} {m : Binding α} (hm : m.Prepares) :
    Upholds housing m r fun _ _ => True :=
  .of_steps hm fun _ _ h => h.housing

/-- Nor does one that elaborates. -/
theorem houses_elaborating {α : Type} {m : Binding α} (hm : m.Elaborating) :
    Upholds housing m r fun _ _ => True :=
  .of_steps hm fun _ _ h => h.housing

/-- A header keeps the kind and the table that it is asked for. -/
theorem houses_bindHeader (scope : Scope) (node : Element) (name : String) {kind : EntityKind}
    {table : TableId} (h : r.Houses kind table) :
    Upholds housing (bindHeader scope node name kind table) r
      fun e r' => r'.Houses e.kind e.table := by
  have hheader : Upholds housing (bindHeader scope node name kind table) r
      fun e _ => e.kind = kind ∧ e.table = table :=
    .of_makes (steady_bindHeader scope node name kind table).prepares
      (yields_kind_header scope node name kind table) fun _ _ h => h.housing
  refine hheader.mono fun e r' hlater he => ?_
  obtain ⟨rfl, rfl⟩ := he
  exact h.later hlater rfl rfl

/-- The table that is opened for a request is there. -/
theorem houses_openTable (q : TableRequest) :
    Upholds housing (openTable q) r fun id r' => r'.Holds id := by
  refine fun hr => ⟨(houses_prepares (steady_openTable q).prepares).advances hr, fun id r' h => ?_⟩
  cases h
  exact holds_addTable r q

/-- The table of a superclass is that of a registered entity. -/
theorem houses_superclassTable (superclass : String) :
    Upholds housing (superclassTable superclass) r
      fun table r' => ∃ s, r'.entity? superclass = some s ∧ s.table = table := by
  unfold superclassTable
  exact .get_bind (.require _ fun _ => Option.map_eq_some_iff.mp)

/-- A subclass has its table by the time that it can be registered. -/
theorem houses_prepareSubclass (kind : SubclassKind) (scope : Scope) (superclass : String)
    (node : Element) : Upholds housing (prepareSubclass kind scope superclass node) r
      fun e r' => r'.Houses e.kind e.table := by
  cases kind with
  | plain =>
    refine .bind (houses_superclassTable superclass) fun table r₁ _ htable => ?_
    obtain ⟨s, hs, rfl⟩ := htable
    refine .ofExcept_bind fun name _ => .of_invariant fun hr => ?_
    refine houses_bindHeader scope node name ⟨(hr.entities _ s hs).held, fun s' hs' => ?_, nofun⟩
    cases hs'
    exact ⟨s, hs, rfl⟩
  | joined =>
    refine .ofExcept_bind fun name _ => ?_
    refine .bind (houses_prepares (steady_requestTable _ _ _ _).prepares) fun q r₁ _ _ => ?_
    refine .bind (houses_openTable q) fun table r₂ _ htable => ?_
    have hhouses : ∀ key, r₂.Houses (.joinedSubclass superclass key) table :=
      fun _ => ⟨htable, nofun, nofun⟩
    refine .bind (houses_prepares (steady_commentTable _ _).prepares) fun _ r₃ hkeeps _ => ?_
    refine .require_bind fun keyNode _ => ?_
    refine .bind (houses_prepares (quiet_bindDependantKey _ _ _ _).prepares)
      fun key r₄ hkeeps' _ => ?_
    refine .bind (houses_prepares (steady_checkTable _ _).prepares) fun _ r₅ hkeeps'' _ => ?_
    exact houses_bindHeader scope node name
      ((hhouses key).later ((hkeeps.trans hkeeps').trans hkeeps'') rfl rfl)
  | union =>
    refine .bind (houses_superclassTable superclass) fun parent r₁ _ hparent => ?_
    obtain ⟨s, hs, rfl⟩ := hparent
    refine .ofExcept_bind fun name _ => ?_
    refine .bind (houses_prepares (steady_requestTable _ _ _ _).prepares) fun q r₂ hkeeps _ => ?_
    obtain ⟨s', hs', hextends⟩ := hkeeps.entities.get? hs
    refine .get_bind (.ofExcept_bind fun ⟨r₃, table⟩ hadd => ?_)
    -- The registry that is written back is the one that the new table was added to.
    have hset : Upholds housing (set r₃ : Binding PUnit) r₂ fun _ r' =>
        r'.Houses (.unionSubclass superclass) table := by
      refine .modify fun hr => ?_
      have hwrite : QuietWrite r₂ r₃ :=
        .addDenormalizedTable hadd ⟨superclass, s', hs', hextends.table⟩
      have ht := table?_of_addDenormalizedTable hadd
      refine ⟨hwrite.housing hr, ⟨_, ht⟩, nofun, fun s'' hs'' => ?_⟩
      cases hs''
      refine ⟨s', _, ?_, ht, congrArg some hextends.table.symm⟩
      rw [entity?, hwrite.alike.entities]
      exact hs'
    exact .bind hset fun _ r₄ _ hhouses => houses_bindHeader scope node name hhouses

/-- An entity may be registered if its table is there. -/
theorem houses_addEntity {e : Entity} (he : r.Houses e.kind e.table) :
    Upholds housing (Binding.register (·.addEntity e)) r fun _ _ => True := by
  refine .register fun r' hr hadd => ⟨?_, trivial⟩
  obtain ⟨hfresh, rfl⟩ := addEntity_eq_ok.mp hadd
  have hlater : r.Upgrades { r with entities := r.entities.insert e.name e } :=
    { Upgrades.refl r with entities := .insert .refl r.entities e hfresh }
  refine Housed.grow hr hlater (fun id t' ht' => .inl ⟨t', ht', rfl⟩) fun name e' he' => ?_
  rcases eq_or_of_entity?_addEntity hadd he' with ⟨-, rfl⟩ | hold
  · exact .inr he
  · exact .inl ⟨e', hold, .refl e'⟩

/-- A subclass is housed when it is opened. -/
theorem houses_openSubclass (kind : SubclassKind) (scope : Scope) (superclass : String)
    (node : Element) :
    Upholds housing (openSubclass kind scope superclass node) r fun _ _ => True := by
  unfold openSubclass registerSubclass
  exact .bind (houses_prepareSubclass kind scope superclass node) fun e _ _ he =>
    .bind (.bind (houses_addEntity he) fun _ _ _ _ =>
      houses_elaborating (supplementing_adoption e.name _ _).elaborating)
    fun _ _ _ _ => .pure trivial

/-- A root class has its table by the time that it can be registered.  What describes its rows
changes neither its kind nor its table. -/
theorem houses_prepareRootClass (scope : Scope) (node : Element) :
    Upholds housing (prepareRootClass scope node) r fun e r' => r'.Houses e.kind e.table := by
  unfold prepareRootClass
  refine .ofExcept_bind fun name _ => ?_
  refine .bind (houses_prepares (steady_requestTable _ _ _ _).prepares) fun q r₁ _ _ => ?_
  refine .bind (houses_openTable q) fun table r₂ _ htable => ?_
  have hhouses : ∀ data, r₂.Houses (.root data) table := fun _ => ⟨htable, nofun, nofun⟩
  refine .bind (houses_prepares (steady_commentTable _ _).prepares) fun _ r₃ hkeeps _ => ?_
  refine .bind (houses_bindHeader scope node name ((hhouses _).later hkeeps rfl rfl))
    fun e r₄ _ he => ?_
  refine .bind (houses_prepares (steady_checkTable _ _).prepares) fun _ r₅ hkeeps' _ => ?_
  extract_lets rows
  have hrows : ∀ u r', r₅.Upgrades r' →
      Upholds housing (rows u) r' fun e r' => r'.Houses e.kind e.table := by
    intro u r₆ hkeeps₁
    have hrow : Upholds housing (bindRow (scope.descend node) e node.children) r₆
        fun e' _ => e'.standing = e.standing ∧ e'.skeleton
          = e.skeleton.declare (node.children.flatMap Element.rowProperties) [] :=
      .of_makes (prepares_bindRow _ _ _) (fun r e' r' hrun =>
        ⟨yields_standing_row _ _ _ r e' r' hrun, yields_bindRow _ _ _ r e' r' hrun⟩)
        fun _ _ h => h.housing
    refine .bind hrow fun e' r₇ hkeeps₂ he' => ?_
    obtain ⟨hstanding, hskeleton⟩ := he'
    have hlater := (hkeeps'.trans hkeeps₁).trans hkeeps₂
    have he₇ : r₇.Houses e'.kind e'.table := by
      rw [show e'.table = e.table from congrArg Standing.table hstanding]
      exact he.later hlater (congrArg EntitySkeleton.kind hskeleton)
        (congrArg EntitySkeleton.superclass hskeleton)
    refine .ite (fun _ => .pure he₇) fun _ => ?_
    exact .bind (houses_prepares (quiet_changeTable _ fun t => .setPrimaryKey t _).prepares)
      fun _ r₈ hkeeps₃ _ => .pure (he₇.later hkeeps₃ rfl rfl)
  clear_value rows
  split
  · exact .bind (houses_prepares (quiet_changeTable _ fun t => .setRowId t _).prepares)
      fun _ r₆ hkeeps₁ _ => hrows _ r₆ hkeeps₁
  · exact hrows _ r₅ (.refl r₅)

/-- So is a root class. -/
theorem houses_openRootClass (scope : Scope) (node : Element) :
    Upholds housing (openRootClass scope node) r fun _ _ => True := by
  unfold openRootClass
  exact .bind (houses_prepareRootClass scope node) fun e _ _ he =>
    .bind (houses_addEntity he) fun _ _ _ _ => .pure trivial

end

/-- Wherever the walk over a document stops, entities keep being housed. -/
theorem walked_housing : Walked housing fun _ _ => True where
  child _ _ := trivial
  descend _ _ := trivial
  steady h hr := h.quietWrite.housing hr
  openRootClass _ := houses_openRootClass _ _
  openSubclass kind _ superclass _ _ := houses_openSubclass kind _ superclass _
  bindBodyProperty _ _ _ _ := houses_elaborating (elaborating_bindBodyProperty _ _ _ _)
  bindBodyExtra _ _ _ _ := houses_elaborating (supplementing_bindBodyExtra _ _ _ _).elaborating

namespace Session

/-- What sessions are made of keeps entities housed. -/
theorem upkept_housing : Upkept housing fun _ => True where
  waiting _ _ _ := trivial
  setWaiting {r _} hr _ := Housed.of_same hr { Upgrades.refl r with } rfl rfl
  upholds_bindRoot metas _ := walked_housing.upholds_bindRoot metas (fun _ _ => trivial)
    (.of_writes _ fun {r _} h hr => by
      cases h <;> exact Housed.of_same hr { Upgrades.refl r with } rfl rfl)
  nextPass {r rest pass} hr hnext := by
    obtain ⟨passes, -, rfl⟩ := nextPass?_eq_some_iff.mp hnext
    have htaken : housing.Advances r { r with passes } :=
      Housed.of_same hr { Upgrades.refl r with } rfl rfl
    have hpass : Upholds housing pass.run { r with passes } fun _ _ => True :=
      .of_steps (passing_run pass) fun _ _ h => h.housing
    exact htaken.trans (hpass.advances htaken.invariant)
  applyPropertyReferences hr happlied := (marks_of_applyPropertyReferences happlied).1.housing hr

/-- The entities of an empty registry are housed. -/
theorem housed_empty (options : RegistryOptions) : housing.invariant { options } :=
  ⟨fun _ t _ ht _ => absurd ht.symm (Option.some_ne_none t),
    fun _ e he => absurd he.symm (Option.some_ne_none e)⟩

/-- After any number of steps of a run, a plain subclass is stored in the table of its superclass;
tables repeat earlier ones only, so that no chain of them is cut when columns are listed; and the
table of a union subclass repeats that of its superclass.  All of its columns are those of its
superclass followed by its own, and they still are after further steps, whatever columns these
add. -/
theorem tables_follow_hierarchy {options : RegistryOptions} {r : Registry}
    (hr : Relation.ReflTransGen Step { options } r) :
    (∀ name e s, r.entity? name = some e → e.kind = .subclass s →
        ∃ parent, r.entity? s = some parent ∧ e.table = parent.table) ∧
      (∀ id t parent, r.table? id = some t → t.denormalizedParent = some parent →
        parent.index < id.index) ∧
      (∀ id bound, r.tables.size ≤ bound → r.columnsWithin bound id = r.allColumns id) ∧
      ∀ name e s, r.entity? name = some e → e.kind = .unionSubclass s →
        ∃ parent t, r.entity? s = some parent ∧ r.table? e.table = some t ∧
          t.denormalizedParent = some parent.table ∧
          r.allColumns e.table = r.allColumns parent.table ++ t.columns.values ∧
          ∀ r', Relation.ReflTransGen Step r r' → ∃ t', r'.table? e.table = some t' ∧
            t'.denormalizedParent = some parent.table ∧
            r'.allColumns e.table = r'.allColumns parent.table ++ t'.columns.values := by
  have hhoused : r.Housed := (upkept_housing.advances_of_steps (housed_empty options) hr).invariant
  -- The columns of a table that repeats another one are listed after those of the other one.
  have hcolumns : ∀ {r : Registry}, r.Housed → ∀ {id parent t}, r.table? id = some t →
      t.denormalizedParent = some parent →
      r.allColumns id = r.allColumns parent ++ t.columns.values := by
    intro r hr id parent t ht hparent
    rw [hr.backwards.allColumns_eq ht, hparent]
    rfl
  refine ⟨fun name e s he hkind => ?_, hhoused.backwards,
    fun id bound => hhoused.backwards.columnsWithin_eq_allColumns id, fun name e s he hkind => ?_⟩
  · exact (hhoused.entities name e he).shared s hkind
  · obtain ⟨parent, t, hparent, ht, hrepeats⟩ := (hhoused.entities name e he).repeated s hkind
    refine ⟨parent, t, hparent, ht, hrepeats, hcolumns hhoused ht hrepeats, fun r' hsteps => ?_⟩
    have hlater := upkept_housing.advances_of_steps hhoused hsteps
    obtain ⟨t', ht', hextends⟩ := hlater.keeps.tables.getIdx? ht
    have hrepeats' := hextends.denormalizedParent.trans hrepeats
    exact ⟨t', ht', hrepeats', hcolumns hlater.invariant ht' hrepeats'⟩

/-- Animals, and cats that repeat their columns. -/
def repeatedAnimals : Document := documentOf [
  identifiedClass "Animal" [],
  { name := "union-subclass"
    attributes := .ofList [("name", "Cat"), ("extends", "Animal")]
    children := [namedElement "property" "claws" []] }]

/-- Dogs are stored in the table of animals, to which they add a column. -/
def barkingDogs : Document := documentOf [
  { name := "subclass"
    attributes := .ofList [("name", "Dog"), ("extends", "Animal")]
    children := [namedElement "property" "bark" []] }]

/-- The registry with cats. -/
def catRegistry : Registry := (Call.add repeatedAnimals .empty).run.after { options := {} }

/-- The registry with dogs as well. -/
def dogRegistry : Registry := (Call.add barkingDogs .empty).run.after catRegistry

/-- The names of all columns that an entity is stored in. -/
def columnsOf (r : Registry) (name : String) : Option (List String) :=
  (r.entity? name).map fun e => (r.allColumns e.table).map Column.name

/-- Cats repeat the column that dogs add to the table of animals later. -/
theorem tables_follow_hierarchy_catRegistry :
    Relation.ReflTransGen Step { options := {} } catRegistry ∧
      Relation.ReflTransGen Step catRegistry dogRegistry ∧
      columnsOf catRegistry "Cat" = some ["id", "claws"] ∧
      columnsOf dogRegistry "Animal" = some ["id", "bark"] ∧
      columnsOf dogRegistry "Cat" = some ["id", "bark", "claws"] ∧
      (∃ dog animal, dogRegistry.entity? "Dog" = some dog ∧
        dogRegistry.entity? "Animal" = some animal ∧ dog.table = animal.table) ∧
      ∃ cat animal t, catRegistry.entity? "Cat" = some cat ∧
        catRegistry.entity? "Animal" = some animal ∧ dogRegistry.table? cat.table = some t ∧
        dogRegistry.allColumns cat.table
          = dogRegistry.allColumns animal.table ++ t.columns.values := by
  have hcats : Relation.ReflTransGen Step { options := {} } catRegistry :=
    .single (.call _ (.add repeatedAnimals .empty))
  have hdogs : Relation.ReflTransGen Step catRegistry dogRegistry :=
    .single (.call _ (.add barkingDogs .empty))
  have hcat : ((catRegistry.entity? "Cat").map fun e => (e.kind.label, e.superclass?))
      = some ("union-subclass", some "Animal") := by decide +kernel
  have hdog : ((dogRegistry.entity? "Dog").map fun e => (e.kind.label, e.superclass?))
      = some ("subclass", some "Animal") := by decide +kernel
  obtain ⟨cat, hcat, hkind⟩ := Option.map_eq_some_iff.mp hcat
  obtain ⟨dog, hdog, hkind'⟩ := Option.map_eq_some_iff.mp hdog
  rw [Prod.mk.injEq] at hkind hkind'
  have hunion : cat.kind = .unionSubclass "Animal" :=
    EntityKind.eq_unionSubclass hkind.1 hkind.2
  have hplain : dog.kind = .subclass "Animal" := EntityKind.eq_subclass hkind'.1 hkind'.2
  obtain ⟨-, -, -, hrepeated⟩ := tables_follow_hierarchy hcats
  obtain ⟨hshared, -, -, -⟩ := tables_follow_hierarchy (hcats.trans hdogs)
  obtain ⟨animal, hanimal, htable⟩ := hshared "Dog" dog "Animal" hdog hplain
  obtain ⟨animal', _, hanimal', -, -, -, hlater⟩ := hrepeated "Cat" cat "Animal" hcat hunion
  obtain ⟨t, ht, -, hcolumns⟩ := hlater dogRegistry hdogs
  exact ⟨hcats, hdogs, by decide +kernel, by decide +kernel, by decide +kernel,
    ⟨dog, animal, hdog, hanimal, htable⟩, cat, animal', t, hcat, hanimal', ht, hcolumns⟩

end Session

end ObjectMapping
