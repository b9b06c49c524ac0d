import ObjectMapping.Proofs.Leading

/-!
# Binding columns and values

Columns are registered on the table of the value that they are bound for, so a value that is
bound on a grounded registry is grounded, and its columns are those that its element names.
Foreign keys are made of the columns of grounded values, so making them keeps the registry
grounded; after it the association is secured.
-/

namespace ObjectMapping

open Binding Registry

variable {S : Source} {r : Registry} {id : TableId}

/-! ## Columns -/

/-- The names of the columns among columns and formulas. -/
def selectedNames (ss : List Selectable) : List String :=
  (ss.filterMap Selectable.column?).map Column.name

/-- The settings of an element do not change the name of a column. -/
theorem Column.name_of_describedBy {c c' : Column} {node : Element} {nullable : Bool}
    (h : c.describedBy node nullable = .ok c') : c'.name = c.name := by
  unfold Column.describedBy at h
  obtain ⟨_, -, h⟩ := except_bind_eq_ok.mp h
  obtain ⟨_, -, h⟩ := except_bind_eq_ok.mp h
  obtain ⟨_, -, h⟩ := except_bind_eq_ok.mp h
  cases h
  rfl

/-- A registered column is one of its table. -/
theorem leads_registerColumn (hid : r.Holds id) (c : Column) {sources : List Element}
    (hsources : ∀ source ∈ sources, S.Has source) :
    Leads S (registerColumn (some id) c sources) r fun s r' =>
      s = .column c ∧ r'.HasColumns id [c.name] := by
  have hwrite : ∀ t : Table, t.Grounded S r →
      t.Advances S r (sources.foldl (fun t source => t.constrain c.name source)
        (t.addColumn c)) ∧
      c.name ∈ (sources.foldl (fun t source => t.constrain c.name source)
        (t.addColumn c)).columns.keys := by
    intro t ht
    have hadded := ht.addColumn c
    have hin : c.name ∈ (t.addColumn c).columns.keys :=
      KeyedList.mem_keys_insertIfNew.mpr (.inl rfl)
    generalize t.addColumn c = t' at hadded hin
    induction sources generalizing t' with
    | nil => exact ⟨hadded, hin⟩
    | cons source sources ih =>
      rw [List.forall_mem_cons] at hsources
      have hstep := hadded.grounded.constrain hsources.1 hin
      exact ih hsources.2 _ (hadded.trans hstep) (hstep.included.columns hin)
  obtain ⟨t, ht⟩ := hid
  refine .of_grounded fun hr => ?_
  refine .bind (.changeTable fun t' _ ht' => (hwrite t' ht').1) fun _ r' _ hr' => ?_
  refine .pure ⟨rfl, sources.foldl (fun t source => t.constrain c.name source) (t.addColumn c),
    ?_, ?_⟩
  · rw [hr', table?_modifyTable, ht]
    exact congrArg some (if_pos rfl)
  · intro name hname
    rw [List.mem_singleton.mp hname]
    exact (hwrite t (hr.tables id t ht)).2

/-- Nested columns are those that their elements name. -/
theorem leads_bindNestedColumns {site : ColumnSite} (hsite : site.table = some id)
    (hid : r.Holds id) {owner : Element} (howner : S.Has owner) (position : Nat)
    {children : List Element} (hchildren : ∀ child ∈ children, S.Has child) :
    Leads S (bindNestedColumns site owner position children) r fun ss r' =>
      r'.HasColumns id (selectedNames ss) ∧
        selectedNames ss = nestedColumnNames S.naming children := by
  induction children generalizing r position with
  | nil => exact .pure ⟨hid.hasColumns_nil, rfl⟩
  | cons child rest ih =>
    rw [List.forall_mem_cons] at hchildren
    refine .of_grounded fun hr => ?_
    rw [bindNestedColumns]
    by_cases hcolumn : child.name = "column"
    · rw [if_pos hcolumn]
      refine .require_bind fun name hname => .get_bind (.ofExcept_bind fun c hc => ?_)
      rw [hsite]
      have hsources : ∀ source ∈ [child, owner], S.Has source :=
        List.forall_mem_cons.mpr ⟨hchildren.1, List.forall_mem_singleton.mpr howner⟩
      refine .bind (leads_registerColumn hid c hsources) fun s r₁ hincluded hfirst => ?_
      obtain ⟨rfl, hown⟩ := hfirst
      refine .bind (ih (hid.mono hincluded) _ hchildren.2) fun ss r₂ hincluded' hrest => .pure ?_
      have hcname : c.name = S.naming.writtenColumn name := by
        rw [Column.name_of_describedBy hc, hr.naming]
        rfl
      have hnamed : nestedColumnNames S.naming (child :: rest)
          = S.naming.writtenColumn name :: nestedColumnNames S.naming rest := by
        simp [nestedColumnNames, hcolumn, hname]
      have hselected : selectedNames (.column c :: ss) = [c.name] ++ selectedNames ss := rfl
      rw [hselected]
      refine ⟨hasColumns_append (hown.mono hincluded') hrest.1, ?_⟩
      rw [hnamed, hcname, hrest.2]
      rfl
    · have hnamed : nestedColumnNames S.naming (child :: rest)
          = nestedColumnNames S.naming rest := by
        simp [nestedColumnNames, hcolumn]
      rw [if_neg hcolumn, hnamed]
      refine .ite (fun _ => ?_) fun _ => ih hid position hchildren.2
      exact .bind (ih hid position hchildren.2) fun ss r' _ hrest => .pure hrest

/-- A column that the element of its owner describes has the name it is asked for. -/
theorem leads_bindOwnColumn {site : ColumnSite} (hsite : site.table = some id) (hid : r.Holds id)
    {node : Element} (hnode : S.Has node) (name : String) :
    Leads S (bindOwnColumn site node name) r fun ss r' =>
      ss ≠ [] ∧ selectedNames ss = [(Column.ofName name).name] ∧
        r'.HasColumns id (selectedNames ss) := by
  unfold bindOwnColumn
  refine .ofExcept_bind fun c hc => ?_
  rw [hsite]
  refine .bind (leads_registerColumn hid c (List.forall_mem_singleton.mpr hnode))
    fun s r' _ hfirst => .pure ?_
  obtain ⟨rfl, hown⟩ := hfirst
  have hname := Column.name_of_describedBy hc
  exact ⟨List.cons_ne_nil _ _, congrArg (fun name => [name]) hname, hown⟩

/-- The columns that an element names are bound, and no others. -/
theorem leads_bindNamedColumns {site : ColumnSite} (hsite : site.table = some id)
    (hid : r.Holds id) {node : Element} (hnode : S.Has node) :
    Leads S (bindNamedColumns site node) r fun ss r' =>
      r'.HasColumns id (selectedNames ss) ∧ selectedNames ss = node.namedColumns S.naming := by
  unfold bindNamedColumns
  split
  · next name hname =>
    refine .ite (fun _ => .throw_bind _ _) fun _ => .ite (fun _ => .throw_bind _ _) fun _ => ?_
    refine .of_grounded fun hr => .get_bind ?_
    refine (leads_bindOwnColumn hsite hid hnode _).mono fun ss r' _ hss => ⟨hss.2.2, ?_⟩
    rw [Element.namedColumns, hname, hss.2.1, hr.naming]
    rfl
  · next hname =>
    rw [Element.namedColumns, hname]
    exact leads_bindNestedColumns hsite hid hnode 0 fun child hchild => hnode.child hchild

/-- Columns and formulas are those that an element describes, and are in a table. -/
def BoundFrom (S : Source) (r : Registry) (id : TableId) (node : Element)
    (ss : List Selectable) : Prop :=
  r.HasColumns id (selectedNames ss) ∧
    (ss.any Selectable.isFormula = false → node.Names S.naming (selectedNames ss))

/-- Where an element names no column, there is one nevertheless. -/
theorem leads_bindColumns {site : ColumnSite} (hsite : site.table = some id) (hid : r.Holds id)
    {node : Element} (hnode : S.Has node) :
    Leads S (bindColumns site node) r fun ss r' => BoundFrom S r' id node ss ∧ ss ≠ [] := by
  unfold bindColumns
  refine .bind (leads_bindNamedColumns hsite hid hnode) fun ss r₁ hincluded hnamed => ?_
  refine .ite (fun hempty => ?_) fun hsome => ?_
  · have hnone : node.namedColumns S.naming = [] := by
      rw [← hnamed.2, List.isEmpty_iff.mp hempty]
      rfl
    refine .get_bind ((leads_bindOwnColumn hsite (hid.mono hincluded) hnode _).mono ?_)
    intro own r₂ _ hown
    exact ⟨⟨hown.2.2, fun _ => .inr ⟨hnone, _, hown.2.1⟩⟩, hown.1⟩
  · exact .pure ⟨⟨hnamed.1, fun _ => .inl hnamed.2⟩, fun hnil => hsome (List.isEmpty_iff.mpr hnil)⟩

/-- With its default column an element selects something. -/
theorem leads_bindColumnsOrFormula {site : ColumnSite} (hsite : site.table = some id)
    (hid : r.Holds id) {node : Element} (hnode : S.Has node) :
    Leads S (bindColumnsOrFormula site node) r fun ss r' =>
      BoundFrom S r' id node ss ∧ ss ≠ [] := by
  unfold bindColumnsOrFormula
  split
  · refine .pure ⟨⟨hid.hasColumns_nil, fun hformula => ?_⟩, List.cons_ne_nil _ _⟩
    cases hformula
  · exact leads_bindColumns hsite hid hnode

/-! ## Simple values and associations -/

/-- A simple value is grounded if its columns and its foreign key are those of an element, and
refers to what that element does. -/
theorem BoundFrom.groundedTo {node : Element} {v : SimpleValue}
    (h : BoundFrom S r id node v.selectables) (hnode : S.Has node) (htable : v.table = some id)
    (hforeignKey : ∀ name, v.foreignKeyName = some name →
      node.attribute? "foreign-key" = some name) : v.GroundedTo S r node.referredProperty? :=
  ⟨⟨id, htable, h.1⟩, node, hnode, rfl, h.2, hforeignKey⟩

/-- A grounded simple value is in the table that it says. -/
theorem SimpleValue.GroundedBy.hasColumns {v : SimpleValue} {P : Element → Prop}
    (h : v.GroundedBy S r P) (htable : v.table = some id) : r.HasColumns id v.columnNames := by
  obtain ⟨⟨id', htable', hcolumns⟩, -⟩ := h
  cases htable.symm.trans htable'
  exact hcolumns

/-- A value is grounded, and its columns are in a table. -/
def Value.GroundedIn (S : Source) (r : Registry) (id : TableId) (v : Value) : Prop :=
  v.Grounded S r ∧ r.HasColumns id v.columnNames

/-- A value that is grounded in a table stays so. -/
theorem Value.GroundedIn.mono {r' : Registry} (h : r.IncludedIn r') {v : Value}
    (hv : v.GroundedIn S r id) : v.GroundedIn S r' id := ⟨hv.1.mono h, hv.2.mono h⟩

/-- What is returned of a grounded value is grounded. -/
theorem Value.GroundedIn.of_some {v w : Value} (hv : v.GroundedIn S r id) (h : some v = some w) :
    w.GroundedIn S r id := Option.some.inj h ▸ hv

/-- A value that holds no other is grounded in a table if it is rooted and its columns are there. -/
theorem Value.groundedIn_of_rooted {v : Value} (hparts : v.parts = [v]) (h : v.Rooted S r)
    (hcolumns : r.HasColumns id v.columnNames) : v.GroundedIn S r id :=
  ⟨Value.grounded_of_rooted hparts h, hcolumns⟩

/-- A simple value is grounded in the table of its site. -/
theorem leads_bindSimpleValue {site : ColumnSite} (hsite : site.table = some id)
    (hid : r.Holds id) {node : Element} (hnode : S.Has node) :
    Leads S (bindSimpleValue site node) r fun v r' =>
      v.GroundedTo S r' node.referredProperty? ∧ v.table = some id := by
  unfold bindSimpleValue
  refine .get_bind (.bind (leads_bindColumnsOrFormula hsite hid hnode) fun ss r' _ hss => ?_)
  exact .pure ⟨BoundFrom.groundedTo hss.1 hnode hsite fun _ hname => hname, hsite⟩

/-- The columns of a many-to-one are those of its element, and it refers to what that names. -/
theorem leads_bindManyToOne (scope : Scope) {site : ColumnSite} (hsite : site.table = some id)
    (hid : r.Holds id) {node : Element} (hnode : S.Has node) (hkey : node.tag? ≠ some .key) :
    Leads S (bindManyToOne scope site node) r fun v r' =>
      (Value.manyToOne v).GroundedIn S r' id := by
  unfold bindManyToOne
  refine .bind (leads_bindColumnsOrFormula hsite hid hnode) fun ss r₁ _ hss => ?_
  refine .bind (.of_same (same_checkCascade _ _)) fun _ r₂ hincluded _ => ?_
  have hcolumns := hss.1.1.mono hincluded
  refine .pure (Value.groundedIn_of_rooted rfl ⟨⟨⟨id, hsite, hcolumns⟩, ?_⟩, hss.2⟩ hcolumns)
  exact ⟨node, hnode, Element.referredProperty?_of_ne_key hkey, hss.1.2, fun _ hname => hname⟩

/-- So it is with a one-to-one, which may have no columns. -/
theorem leads_bindOneToOne (scope : Scope) {site : ColumnSite} (hsite : site.table = some id)
    (hid : r.Holds id) (owner : String) {node : Element} (hnode : S.Has node)
    (hkey : node.tag? ≠ some .key) :
    Leads S (bindOneToOne scope site owner node) r fun v r' =>
      (Value.oneToOne v).GroundedIn S r' id := by
  unfold bindOneToOne
  refine .bind (leads_bindNamedColumns hsite hid hnode) fun ss r₁ _ hss => ?_
  refine .bind (.of_same (same_checkCascade _ _)) fun _ r₂ hincluded _ => ?_
  have hcolumns := hss.1.mono hincluded
  refine .pure (Value.groundedIn_of_rooted rfl ⟨⟨id, hsite, hcolumns⟩, ?_⟩ hcolumns)
  exact ⟨node, hnode, Element.referredProperty?_of_ne_key hkey, fun _ => .inl hss.2,
    fun _ hname => hname⟩

/-- So is the value of an `any`. -/
theorem leads_bindAny (scope : Scope) {site : ColumnSite} (hsite : site.table = some id)
    (hid : r.Holds id) {node : Element} (hnode : S.Has node) :
    Leads S (bindAny scope site node) r fun v r' => (Value.any v).GroundedIn S r' id := by
  unfold bindAny
  have hunnamed : ({ site with path := "" } : ColumnSite).table = some id := hsite
  refine .get_bind (.bind (leads_bindNamedColumns hunnamed hid hnode) fun ss r' _ hss => ?_)
  refine .pure (Value.groundedIn_of_rooted rfl ?_ hss.1)
  exact (BoundFrom.groundedTo ⟨hss.1, fun _ => .inl hss.2⟩ hnode hsite
    fun _ hname => by cases hname).grounded

/-- A simple member of a class, a join or a component is grounded. -/
theorem leads_bindSimpleMember (scope : Scope) {site : ColumnSite} (hsite : site.table = some id)
    (hid : r.Holds id) {node : Element} (hnode : S.Has node) {tag : Tag}
    (hkey : tag = .manyToOne → node.tag? ≠ some .key) :
    Leads S (bindSimpleMember scope site node tag) r fun o r' =>
      ∀ v, o = some v → v.GroundedIn S r' id := by
  cases tag with
  | manyToOne =>
    exact .bind (leads_bindManyToOne scope hsite hid hnode (hkey rfl)) fun v r' _ hv =>
      .pure fun _ => hv.of_some
  | any =>
    exact .bind (leads_bindAny scope hsite hid hnode) fun v r' _ hv => .pure fun _ => hv.of_some
  | property =>
    refine .bind (leads_bindSimpleValue hsite hid hnode) fun v r' _ hv => ?_
    have hin := Value.groundedIn_of_rooted (v := .simple v) rfl hv.1.grounded
      (hv.1.hasColumns hv.2)
    exact .pure fun _ => hin.of_some
  | _ => exact .pure fun _ hsome => by cases hsome

/-! ## Foreign keys -/

namespace Registry.Grounded

/-- A foreign key to an identifier is made of the columns of a value whose element refers to none of
the properties, and its name is taken afterwards. -/
theorem constrainTo (hr : r.Grounded S) {v : SimpleValue} (hv : v.GroundedTo S r none)
    (entity : String) : r.Advances S (r.constrainTo v entity) ∧
      (v.hasFormula = false → v.foreignKeyName ≠ some "none" → v.columnNames ≠ [] →
        ∃ id t, v.table = some id ∧ (r.constrainTo v entity).table? id = some t ∧
          t.foreignKeyName v.foreignKeyName v.columnNames ∈ t.foreignKeys.keys) := by
  obtain ⟨⟨id, htable, t, ht, hcolumns⟩, node, hnode, hidentifier, hnames, hforeignKey⟩ := hv
  unfold Registry.constrainTo
  dsimp only
  by_cases hskip : (v.hasFormula || v.foreignKeyName = some "none"
      || v.columnNames.isEmpty) = true
  · rw [if_pos hskip]
    refine ⟨hr.advances, fun hformula hname hsome => ?_⟩
    simp [hformula, hname, hsome] at hskip
  · rw [if_neg hskip, htable]
    simp only [Bool.or_eq_true, not_or, Bool.not_eq_true] at hskip
    obtain ⟨⟨hformula, -⟩, hsome⟩ := hskip
    set key : Table → ForeignKey := fun t => {
      name := t.foreignKeyName v.foreignKeyName v.columnNames
      columns := v.columnNames
      referencedEntity := entity
      cascadeDelete := v.cascadeDelete } with hkey
    have hgrounded : (key t).Grounded S r t.name t.columns.keys := by
      have hreferences : (key t).References r node :=
        ⟨fun _ => rfl, fun path hpath => by rw [hidentifier] at hpath; cases hpath⟩
      refine ⟨hcolumns, by simpa [hkey] using hsome, node, hnode, ⟨hnames hformula, ?_⟩,
        hreferences⟩
      cases hname : v.foreignKeyName with
      | none => exact .inl (by simp [hkey, hname, Table.foreignKeyName])
      | some name =>
        refine .inr ?_
        simp only [hkey, hname, Table.foreignKeyName, Option.getD_some]
        exact hforeignKey name hname
    refine ⟨hr.modifyTable fun t' ht' => ?_,
      fun _ _ _ => ⟨id, t.addForeignKey (key t), rfl, ?_, ?_⟩⟩
    · cases ht.symm.trans ht'
      exact (hr.tables id t ht).addForeignKey hgrounded
    · rw [table?_modifyTable, ht]
      exact congrArg some (if_pos rfl)
    · exact KeyedList.mem_keys_insert.mpr (.inl rfl)

/-- A many-to-one to an identifier gets its foreign key; one to a property is left alone. -/
theorem constrainManyToOne (hr : r.Grounded S) {v : ManyToOne} (hv : v.Grounded S r) :
    r.Advances S (r.constrainAssociation v.base v.toOne) ∧
      v.Secured (r.constrainAssociation v.base v.toOne) := by
  unfold Registry.constrainAssociation ManyToOne.Secured
  split
  · next entity hproperty hentity =>
    obtain ⟨hadvances, htaken⟩ := hr.constrainTo (hproperty ▸ hv.base) entity
    refine ⟨hadvances, fun _ _ hformula hname => ?_⟩
    exact htaken hformula hname (SimpleValue.columnNames_ne_nil hv.nonempty hformula)
  · next hother =>
    refine ⟨hr.advances, fun hproperty hentity _ _ => ?_⟩
    obtain ⟨entity, hentity⟩ := Option.isSome_iff_exists.mp hentity
    exact absurd hentity (hother entity hproperty)

/-- So does a constrained one-to-one that has columns. -/
theorem constrainOneToOne (hr : r.Grounded S) {v : OneToOne}
    (hv : v.base.GroundedTo S r v.toOne.referencedProperty) :
    r.Advances S (r.constrainValue (.oneToOne v)) ∧ v.Secured (r.constrainValue (.oneToOne v)) := by
  rw [Registry.constrainValue]
  split
  · unfold Registry.constrainAssociation
    split
    · next entity hproperty hentity =>
      obtain ⟨hadvances, htaken⟩ := hr.constrainTo (hproperty ▸ hv) entity
      exact ⟨hadvances, fun _ _ _ hformula hname hcolumns => htaken hformula hname hcolumns⟩
    · next hother =>
      refine ⟨hr.advances, fun _ hproperty hentity _ _ _ => ?_⟩
      obtain ⟨entity, hentity⟩ := Option.isSome_iff_exists.mp hentity
      exact absurd hentity (hother entity hproperty)
  · next hfree => exact ⟨hr.advances, fun hconstrained => absurd hconstrained hfree⟩

end Registry.Grounded

/-- Making the foreign keys of a grounded value keeps the registry grounded, and secures the
value if it is an association. -/
theorem Registry.Grounded.constrainValue {r : Registry} (hr : r.Grounded S) (v : Value)
    (hv : v.Grounded S r) : r.Advances S (r.constrainValue v) ∧ v.Secured (r.constrainValue v) := by
  cases v with
  | manyToOne v => exact hr.constrainManyToOne (hv _ (Value.mem_parts_self _))
  | oneToOne v => exact hr.constrainOneToOne (hv _ (Value.mem_parts_self _))
  | component c =>
    refine ⟨of_constrainValue (P := r.Advances S) (.component c) ?_ hr.advances, trivial⟩
    intro w hw base toOne hbase htoOne entity _ hidentifier r₁ hr₁
    have hgrounded : base.GroundedTo S r toOne.referencedProperty := by
      have hpart := hv w hw
      cases w with
      | manyToOne w =>
        cases hbase
        cases htoOne
        exact hpart.base
      | oneToOne w =>
        cases hbase
        cases htoOne
        exact hpart
      | any | collection | component | dependant | oneToMany | simple => cases htoOne
    rw [hidentifier] at hgrounded
    exact hr₁.trans (hr₁.grounded.constrainTo (hgrounded.mono hr₁.included) entity).1
  | any | collection | dependant | oneToMany | simple => exact ⟨hr.advances, trivial⟩

/-! ## References to properties -/

namespace Registry

/-- A reference to a property is kept beside tables and values. -/
theorem same_referTo (r : Registry) (toOne : ToOne) : Same r (r.referTo toOne) := by
  unfold referTo
  split
  · exact ⟨rfl, rfl, rfl, rfl, rfl, rfl⟩
  · exact .refl r

/-- The foreign key of an association to a property is put off with the columns that it has. -/
theorem Grounded.queuePropertyRef (hr : r.Grounded S) {v : ManyToOne}
    (hv : (Value.manyToOne v).Grounded S r) : r.Advances S (r.queuePropertyRef v) := by
  have hgrounded : v.Grounded S r := hv _ (Value.mem_parts_self _)
  obtain ⟨htable, node, hnode, hproperty, hnames, hforeignKey⟩ := hgrounded.base
  unfold Registry.queuePropertyRef
  split
  · next hreferenced =>
    split
    · exact hr.advances
    · refine hr.addPass ⟨htable, node, hnode, fun hformula => ⟨?_, hnames hformula⟩,
        hforeignKey, hproperty.trans hreferenced⟩
      exact SimpleValue.columnNames_ne_nil hgrounded.nonempty hformula
  · exact hr.advances

/-- References of a grounded value may be recorded. -/
theorem Grounded.recordReferences (hr : r.Grounded S) (owner : String) (isManyToMany : Bool)
    {v : Value} (hv : v.Grounded S r) :
    r.Advances S (r.recordReferences owner isManyToMany v) := by
  unfold Registry.recordReferences
  split
  · next m =>
    have hrefer := (same_referTo r m.toOne).advances hr
    dsimp only
    split
    · exact hrefer
    · exact hrefer.trans (hrefer.grounded.queuePropertyRef (hv.mono hrefer.included))
  · exact (same_referTo r _).advances hr
  · split
    · exact Same.advances ⟨rfl, rfl, rfl, rfl, rfl, rfl⟩ hr
    · exact hr.advances
  · exact hr.advances

end Registry

/-! ## Properties -/

/-- What the backing class knows of a value does not change where it is stored. -/
theorem Value.Grounded.reflected {v : Value} (h : v.Grounded S r) (reflection : Reflection)
    (className property : String) : (v.reflected reflection className property).Grounded S r := by
  have hself := h v v.mem_parts_self
  cases v with
  | simple | oneToOne => exact Value.grounded_of_rooted rfl hself
  | manyToOne v => exact Value.grounded_of_rooted rfl ⟨hself.base, hself.nonempty⟩
  | any | collection | component | dependant | oneToMany => exact h

/-- A property is grounded, and the columns of its value are in a table. -/
def Property.GroundedIn (S : Source) (r : Registry) (id : TableId) (p : Property) : Prop :=
  p.Grounded S r ∧ r.HasColumns id p.value.columnNames

/-- A property that is grounded in a table stays so. -/
theorem Property.GroundedIn.mono {r' : Registry} (h : r.IncludedIn r') {p : Property}
    (hp : p.GroundedIn S r id) : p.GroundedIn S r' id := ⟨hp.1.mono h, hp.2.mono h⟩

/-- What the backing class does not change of a value is the same in the property that is made of
it. -/
theorem yields_createProperty_view {γ : Type} {view : Value → γ}
    (hview : ∀ reflection className name v,
      view (Value.reflected reflection className name v) = view v)
    (scope : Scope) (node : Element) (v : Value) (className : Option String) (owner : String) :
    Yields (createProperty scope node v className owner) fun p => view p.value = view v := by
  unfold createProperty
  refine .next fun name => .next fun r => .next fun _ => .next fun _ => .ofExcept fun p hp => ?_
  rw [(boundAs_of_bindProperty hp).value]
  cases className with
  | none => rfl
  | some className => exact hview _ _ _ _

/-- What the backing class knows of a value does not change its columns. -/
theorem Value.GroundedIn.reflected {v : Value} (h : v.GroundedIn S r id)
    (reflection : Reflection) (className property : String) :
    (v.reflected reflection className property).GroundedIn S r id := by
  refine ⟨h.1.reflected _ _ _, ?_⟩
  have hcolumns := h.2
  rw [Value.columnNames, Value.columns] at hcolumns
  rwa [Value.columnNames, Value.columns, Value.selectables_reflected]

/-- The property of a grounded value is grounded and secured. -/
theorem leads_createProperty (scope : Scope) (node : Element) {value : Value}
    (hvalue : value.GroundedIn S r id) (className : Option String) (owner : String) :
    Leads S (createProperty scope node value className owner) r fun p r' =>
      p.GroundedIn S r' id := by
  have hfinish : ∀ (known : Value) (name : String), known.GroundedIn S r id →
      Leads S (do
        modify (·.recordReferences owner (node.tag? = some .manyToMany) known)
        modify (·.constrainValue known)
        Binding.ofExcept (bindProperty scope node known name)) r fun p r' =>
          p.GroundedIn S r' id := by
    intro known name hknown
    refine .bind (.write fun hr => hr.recordReferences owner _ hknown.1) fun _ r₁ hincluded _ => ?_
    have hknown₁ := hknown.mono hincluded
    have hconstrain : Leads S (modify (·.constrainValue known)) r₁ fun _ r' => known.Secured r' :=
      .modify fun hr => hr.constrainValue known hknown₁.1
    refine .bind hconstrain fun _ r₂ hincluded' hsecured => .ofExcept fun p hp => ?_
    have hknown₂ := hknown₁.mono hincluded'
    have hpvalue := (boundAs_of_bindProperty hp).value
    exact ⟨⟨hpvalue ▸ hknown₂.1, hpvalue ▸ hsecured⟩, hpvalue ▸ hknown₂.2⟩
  unfold createProperty
  refine .ofExcept_bind fun name _ => .get_bind ?_
  cases className with
  | none => exact hfinish value name hvalue
  | some className => exact hfinish _ name (hvalue.reflected _ className name)

end ObjectMapping
