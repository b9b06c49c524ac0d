import ObjectMapping.Proofs.Grounding

/-!
# Writes to tables

Every write to a table keeps what the table has and leaves it grounded, on the condition that
the constraints it adds are on columns that the table has by then.  A registry in which one
table is written to, or to which one is added, advances: it keeps what it has and stays
grounded.
-/

namespace ObjectMapping

/-! ## Writes to one table -/

section

variable {S : Source} {r : Registry} {t : Table}

/-- A table advances if it keeps what it has and is grounded afterwards. -/
structure Table.Advances (S : Source) (r : Registry) (t t' : Table) : Prop where
  included : t.IncludedIn t'
  grounded : t'.Grounded S r

/-- A grounded table that is left alone has advanced by nothing. -/
theorem Table.Grounded.advances (h : t.Grounded S r) : t.Advances S r t := ⟨.refl t, h⟩

/-- One advance may follow another. -/
theorem Table.Advances.trans {t' t'' : Table} (h : t.Advances S r t')
    (h' : t'.Advances S r t'') : t.Advances S r t'' :=
  ⟨h.included.trans h'.included, h'.grounded⟩

/-- Of the columns that are required, those that a table has become non-nullable. -/
theorem Table.column?_requireColumns (t : Table) (names : List String) (name : String) :
    (t.requireColumns names).column? name = (t.column? name).map fun c =>
      if name ∈ names then { c with nullable := false } else c := by
  simp only [Table.requireColumns, Table.column?]
  generalize t.columns = columns
  induction names generalizing columns with
  | nil => simp
  | cons first names ih =>
    rw [List.foldl_cons, ih, KeyedList.get?_modify, Option.map_map]
    congr 1
    funext c
    by_cases hfirst : name = first <;> by_cases hin : name ∈ names <;> simp [hfirst, hin]

/-- The columns of a unique key to which some are added are those that it had and the added ones. -/
theorem UniqueKey.mem_addColumns {columns : List String} {k : UniqueKey} {column : String}
    (h : column ∈ (columns.foldl UniqueKey.addColumn k).columns) :
    column ∈ k.columns ∨ column ∈ columns := by
  induction columns generalizing k with
  | nil => exact .inl h
  | cons first columns ih =>
    rcases ih h with hfirst | hrest
    · unfold addColumn at hfirst
      split at hfirst
      · exact .inl hfirst
      · refine (List.mem_append.mp hfirst).imp id fun hin => ?_
        rw [List.mem_singleton.mp hin]
        exact List.mem_cons_self
    · exact .inr (List.mem_cons_of_mem _ hrest)

/-- A column of a unique key, after columns are added to some unique key, was there before or is one
of those that were added to this one. -/
theorem Table.mem_of_mem_addToUniqueKey {t : Table} {name name' : String} {columns : List String}
    {k : UniqueKey} (hk : (t.addToUniqueKey name columns).uniqueKeys.get? name' = some k)
    {column : String} (h : column ∈ k.columns) :
    (∃ old, t.uniqueKeys.get? name' = some old ∧ column ∈ old.columns) ∨
      name' = name ∧ column ∈ columns := by
  rw [addToUniqueKey, KeyedList.get?_modify] at hk
  obtain ⟨before, hbefore, rfl⟩ := Option.map_eq_some_iff.mp hk
  rcases KeyedList.get?_insertIfNew hbefore with ⟨rfl, rfl⟩ | hold
  · rw [if_pos rfl] at h
    exact .inr ⟨rfl, (UniqueKey.mem_addColumns h).resolve_left List.not_mem_nil⟩
  · split at h
    · next hname =>
      exact (UniqueKey.mem_addColumns h).imp (fun hin => ⟨before, hold, hin⟩)
        fun hin => ⟨hname, hin⟩
    · exact .inl ⟨before, hold, h⟩

namespace Table.Grounded

/-- What has to do with neither columns nor constraints may be changed. -/
theorem relabel (h : t.Grounded S r) {t' : Table} (hkey : t'.key = t.key)
    (hcolumns : t'.columns = t.columns) (hprimaryKey : t'.primaryKey = t.primaryKey)
    (huniqueKeys : t'.uniqueKeys = t.uniqueKeys) (hindexes : t'.indexes = t.indexes)
    (hforeignKeys : t'.foreignKeys = t.foreignKeys)
    (hparent : t'.denormalizedParent = t.denormalizedParent) : t.Advances S r t' := by
  have hname : t'.name = t.name := congrArg TableKey.name hkey
  refine ⟨⟨hkey, ?_, ?_⟩, ?_, ?_, ?_, ?_, ?_, ?_, ?_⟩
  · exact hcolumns ▸ List.Subset.refl _
  · exact hforeignKeys ▸ List.Subset.refl _
  · rw [hcolumns]
    exact h.named
  · rw [hprimaryKey, hcolumns]
    exact h.primaryKey
  · rw [hindexes, hcolumns]
    exact h.indexes
  · rw [huniqueKeys, hcolumns]
    exact h.uniqueKeys
  · rw [huniqueKeys, hkey]
    exact h.naturalKey
  · rw [hforeignKeys, hcolumns, hname]
    exact h.foreignKeys
  · rw [hparent]
    exact h.denormalizedParent

/-- Further columns do no harm. -/
theorem moreColumns (h : t.Grounded S r) {columns : KeyedList String Column}
    (hcolumns : t.columns.keys ⊆ columns.keys)
    (hnamed : ∀ name c, columns.get? name = some c → c.name = name) :
    t.Advances S r { t with columns } := by
  refine ⟨⟨rfl, hcolumns, fun _ hk => hk⟩, hnamed, ?_, ?_, ?_, h.naturalKey, ?_,
    h.denormalizedParent⟩
  · intro names hnames
    exact List.Subset.trans (h.primaryKey names hnames) hcolumns
  · intro i hi
    obtain ⟨hown, hnodup⟩ := h.indexes i hi
    exact ⟨List.Subset.trans hown hcolumns, hnodup⟩
  · intro k hk
    obtain ⟨hown, hnodup⟩ := h.uniqueKeys k hk
    exact ⟨hown.imp id fun hown => List.Subset.trans hown hcolumns, hnodup⟩
  · intro name k hk
    obtain ⟨hname, hgrounded⟩ := h.foreignKeys name k hk
    exact ⟨hname, { hgrounded with columns := List.Subset.trans hgrounded.columns hcolumns }⟩

/-- A column may be added. -/
theorem addColumn (h : t.Grounded S r) (c : Column) : t.Advances S r (t.addColumn c) := by
  refine h.moreColumns (fun _ hname => KeyedList.mem_keys_insertIfNew.mpr (.inr hname))
    fun name c' hc' => ?_
  rcases KeyedList.get?_insertIfNew hc' with ⟨rfl, rfl⟩ | hold
  · rfl
  · exact h.named name c' hold

/-- Columns that are made non-nullable are the same columns. -/
theorem requireColumns (h : t.Grounded S r) (names : List String) :
    t.Advances S r (t.requireColumns names) := by
  have hkeys : (t.requireColumns names).columns.keys = t.columns.keys := by
    simp only [Table.requireColumns]
    generalize t.columns = columns
    induction names generalizing columns with
    | nil => rfl
    | cons name names ih => rw [List.foldl_cons, ih, KeyedList.keys_modify]
  refine h.moreColumns (fun name hname => by rwa [← hkeys] at hname) fun name c hc => ?_
  obtain ⟨c', hc', rfl⟩ := Option.map_eq_some_iff.mp ((column?_requireColumns ..).symm.trans hc)
  have hname := h.named name c' hc'
  split
  · exact hname
  · exact hname

/-- Columns that are there may be made the primary key. -/
theorem setPrimaryKey (h : t.Grounded S r) {names : List String}
    (hnames : names ⊆ t.columns.keys) : t.Advances S r (t.setPrimaryKey names) := by
  refine ⟨⟨rfl, fun _ hname => hname, fun _ hk => hk⟩, h.named, ?_, h.indexes, h.uniqueKeys,
    h.naturalKey, h.foreignKeys, h.denormalizedParent⟩
  intro columns hcolumns
  cases hcolumns
  exact hnames

/-- An index gets a column of the table, and does not get it twice. -/
theorem addToIndex (h : t.Grounded S r) (name : String) {column : String}
    (hcolumn : column ∈ t.columns.keys) : t.Advances S r (t.addToIndex name column) := by
  refine ⟨⟨rfl, fun _ hname => hname, fun _ hk => hk⟩, h.named, h.primaryKey, ?_, h.uniqueKeys,
    h.naturalKey, h.foreignKeys, h.denormalizedParent⟩
  refine KeyedList.forall_values_change h.indexes ⟨List.nil_subset _, List.nodup_nil⟩ ?_ name
  intro i hi
  unfold Index.addColumn
  split
  · exact hi
  · next hnew =>
    have hsubset : i.columns ++ [column] ⊆ t.columns.keys :=
      List.append_subset.mpr ⟨hi.1, List.cons_subset.mpr ⟨hcolumn, List.nil_subset _⟩⟩
    exact ⟨hsubset, List.concat_eq_append ▸ hi.2.concat hnew⟩

/-- A unique key gets columns of the table, and gets none twice.  That of natural identifiers gets
columns that it may have. -/
theorem addToUniqueKey (h : t.Grounded S r) {name : String} {columns : List String}
    (hcolumns : S.UniqueInside ∨ columns ⊆ t.columns.keys)
    (hnatural : name = naturalIdKey → ∀ column ∈ columns, MayIdentify S r t.key column) :
    t.Advances S r (t.addToUniqueKey name columns) := by
  refine ⟨⟨rfl, fun _ hname => hname, fun _ hk => hk⟩, h.named, h.primaryKey, h.indexes, ?_,
    fun k hk column hin => ?_, h.foreignKeys, h.denormalizedParent⟩
  rotate_left
  · rcases t.mem_of_mem_addToUniqueKey hk hin with ⟨old, hold, hin⟩ | ⟨hname, hin⟩
    · exact h.naturalKey old hold column hin
    · exact hnatural hname.symm column hin
  refine KeyedList.forall_values_change h.uniqueKeys
    ⟨.inr (List.nil_subset _), List.nodup_nil⟩ ?_ name
  intro k hk
  clear hnatural
  induction columns generalizing k with
  | nil => exact hk
  | cons column columns ih =>
    rw [List.foldl_cons]
    have hrest : S.UniqueInside ∨ columns ⊆ t.columns.keys :=
      hcolumns.imp id fun hall => (List.cons_subset.mp hall).2
    refine ih hrest _ ?_
    unfold UniqueKey.addColumn
    split
    · exact hk
    · next hnew =>
      have hown : S.UniqueInside ∨ k.columns ++ [column] ⊆ t.columns.keys := by
        rcases hcolumns with hinside | hall
        · exact .inl hinside
        · refine hk.1.imp id fun hold => List.append_subset.mpr ⟨hold, ?_⟩
          exact List.cons_subset.mpr ⟨(List.cons_subset.mp hall).1, List.nil_subset _⟩
      exact ⟨hown, List.concat_eq_append ▸ hk.2.concat hnew⟩

/-- A grounded foreign key may be added. -/
theorem addForeignKey (h : t.Grounded S r) {k : ForeignKey}
    (hk : k.Grounded S r t.name t.columns.keys) : t.Advances S r (t.addForeignKey k) := by
  refine ⟨⟨rfl, fun _ hname => hname, ?_⟩, h.named, h.primaryKey, h.indexes, h.uniqueKeys,
    h.naturalKey, ?_, h.denormalizedParent⟩
  · intro name hname
    exact KeyedList.mem_keys_insert.mpr (.inr hname)
  · intro name k' hk'
    rw [Table.addForeignKey, KeyedList.get?_insert] at hk'
    split at hk'
    · next hname =>
      cases hk'
      exact ⟨hname.symm, hk⟩
    · exact h.foreignKeys name k' hk'

/-- The indexes and unique keys that an element names get a column of the table. -/
theorem constrain (h : t.Grounded S r) {column : String} {source : Element} (hsource : S.Has source)
    (hcolumn : column ∈ t.columns.keys) : t.Advances S r (t.constrain column source) := by
  have hindexes : ∀ (names : List String) (t : Table), t.Grounded S r →
      column ∈ t.columns.keys →
      t.Advances S r (names.foldl (fun t name => t.addToIndex name column) t) := by
    intro names
    induction names with
    | nil => exact fun t ht _ => ht.advances
    | cons name names ih =>
      intro t ht hin
      have hfirst := ht.addToIndex name hin
      exact hfirst.trans (ih _ hfirst.grounded (hfirst.included.columns hin))
  have hkeys : ∀ (names : List String) (t : Table), t.Grounded S r →
      column ∈ t.columns.keys → (∀ name ∈ names, S.NamesUniqueKey name) →
      t.Advances S r (names.foldl (fun t name => t.addToUniqueKey name [column]) t) := by
    intro names
    induction names with
    | nil => exact fun t ht _ _ => ht.advances
    | cons name names ih =>
      intro t ht hin hnamed
      rw [List.forall_mem_cons] at hnamed
      have hown : [column] ⊆ t.columns.keys := List.cons_subset.mpr ⟨hin, List.nil_subset _⟩
      have hfirst := ht.addToUniqueKey (.inr hown) fun hname _ _ => .inl (hname ▸ hnamed.1)
      exact hfirst.trans (ih _ hfirst.grounded (hfirst.included.columns hin) hnamed.2)
  have hindexed := hindexes (((source.attribute? "index").map constraintNames).getD []) t h hcolumn
  exact hindexed.trans (hkeys _ _ hindexed.grounded (hindexed.included.columns hcolumn)
    fun _ hname => ⟨source, hsource, hname⟩)

/-- A unique key of a generated name gets columns, and is not that of natural identifiers. -/
theorem createUniqueKey (h : t.Grounded S r) {columns : List String}
    (hcolumns : S.UniqueInside ∨ columns ⊆ t.columns.keys) :
    t.Advances S r (t.createUniqueKey columns) := by
  refine h.addToUniqueKey hcolumns fun hname => ?_
  have hfirst := congrArg (fun name => name.toList.head?) hname
  simp [constraintName, naturalIdKey] at hfirst

end Table.Grounded

end

namespace Registry

/-! ## Keys of tables -/

section

variable {r : Registry} {key : TableKey} {id : TableId} {t : Table}

/-- A table is found under the key it has, and under no other. -/
theorem TablesKeyed.findTable?_eq_some_iff (hr : r.TablesKeyed) :
    r.findTable? key = some id ↔ ∃ t, r.table? id = some t ∧ t.key = key := by
  obtain ⟨i⟩ := id
  have hposition : r.findTable? key = some ⟨i⟩ ↔ ∃ t, r.tables.entries[i]? = some (key, t) := by
    rw [findTable?, Option.map_eq_some_iff, ← KeyedList.indexOf?_eq_some_iff]
    exact ⟨fun ⟨j, hj, hji⟩ => (TableId.mk.inj hji) ▸ hj, fun hi => ⟨i, hi, rfl⟩⟩
  rw [hposition]
  constructor
  · rintro ⟨t, ht⟩
    exact ⟨t, by rw [table?, KeyedList.getIdx?, ht]; rfl, hr i key t ht⟩
  · rintro ⟨t, ht, rfl⟩
    obtain ⟨⟨key, t'⟩, hentry, rfl⟩ := Option.map_eq_some_iff.mp ht
    exact ⟨t', by rw [hentry, hr i key t' hentry]⟩

/-- There is one table of a key. -/
theorem TablesKeyed.id_eq (hr : r.TablesKeyed) {id' : TableId} {t' : Table}
    (ht : r.table? id = some t) (ht' : r.table? id' = some t') (hkey : t'.key = t.key) :
    id' = id := by
  have hfound := hr.findTable?_eq_some_iff.mpr ⟨t, ht, rfl⟩
  rw [hr.findTable?_eq_some_iff.mpr ⟨t', ht', hkey⟩] at hfound
  exact Option.some.inj hfound

/-- Tables stay under their keys when one of them is changed and keeps its key. -/
theorem TablesKeyed.modifyTable (hr : r.TablesKeyed) {f : Table → Table}
    (hf : ∀ t, r.table? id = some t → (f t).key = t.key) : (r.modifyTable id f).TablesKeyed := by
  intro i key t h
  simp only [Registry.modifyTable, KeyedList.modifyIdx, List.getElem?_modify] at h
  obtain ⟨e, hentry, hchanged⟩ := Option.map_eq_some_iff.mp h
  have hkey : e.2.key = e.1 := hr i e.1 e.2 hentry
  split at hchanged <;> cases hchanged
  · next hid =>
    refine (hf e.2 ?_).trans hkey
    rw [table?, KeyedList.getIdx?, hid, hentry]
    rfl
  · exact hkey

/-- Tables stay under their keys when a table is appended under its own. -/
theorem TablesKeyed.append (hr : r.TablesKeyed) (t : Table) :
    TablesKeyed { r with tables := r.tables.insertIfNew t.key t } := by
  intro i key t' h
  unfold KeyedList.insertIfNew at h
  dsimp only at h
  split at h
  · rw [KeyedList.push, List.getElem?_append] at h
    split at h
    · exact hr i key t' h
    · have hnew := List.mem_of_getElem? h
      cases List.mem_singleton.mp hnew
      rfl
  · exact hr i key t' h

end

end Registry

/-! ## Registries that advance -/

/-- A registry advances if it keeps what it has and is grounded afterwards. -/
structure Registry.Advances (S : Source) (r r' : Registry) : Prop where
  included : r.IncludedIn r'
  grounded : r'.Grounded S

namespace Registry

variable {S : Source} {r r' r'' : Registry}

/-- A grounded registry that is left alone has advanced by nothing. -/
theorem Grounded.advances (h : r.Grounded S) : r.Advances S r := ⟨.refl r, h⟩

/-- One advance may follow another. -/
theorem Advances.trans (h : r.Advances S r') (h' : r'.Advances S r'') : r.Advances S r'' :=
  ⟨h.included.trans h'.included, h'.grounded⟩

/-- Of a registry that has grown, only what is new in it has to be looked at. -/
theorem Grounded.grow (hr : r.Grounded S) (h : r.IncludedIn r') (hkeyed : r'.TablesKeyed)
    (htables : ∀ id t, r'.table? id = some t → r.table? id = some t ∨ t.Grounded S r')
    (hentities : ∀ name e, r'.entity? name = some e →
      r.entity? name = some e ∨ e.name = name ∧ e.Grounded S r')
    (hcollections : ∀ role c, r'.collection? role = some c →
      r.collection? role = some c ∨ c.Grounded S r')
    (hpasses : ∀ pass ∈ r'.passes, pass ∈ r.passes ∨ pass.Grounded S r')
    (hwaiting : ∀ pending ∈ r'.waiting, pending ∈ r.waiting ∨ S.documents pending.document) :
    r.Advances S r' where
  included := h
  grounded :=
    { naming := h.naming.trans hr.naming
      keyed := hkeyed
      named := fun name e he => (hentities name e he).elim (hr.named name e) And.left
      tables := fun i t ht => (htables i t ht).elim (fun hold => (hr.tables i t hold).mono h) id
      entities := fun name e he =>
        (hentities name e he).elim (fun hold => (hr.entities name e hold).mono h) And.right
      collections := fun role c hc =>
        (hcollections role c hc).elim (fun hold => (hr.collections role c hold).mono h) id
      passes := fun pass hpass =>
        (hpasses pass hpass).elim (fun hold => (hr.passes pass hold).mono h) id
      waiting := fun pending hpending => (hwaiting pending hpending).elim (hr.waiting pending) id }

/-! ## Writes to a table of a registry -/

/-- A change to one table is read there and nowhere else. -/
theorem table?_modifyTable (r : Registry) (id j : TableId) (f : Table → Table) :
    (r.modifyTable id f).table? j = (r.table? j).map fun t => if j = id then f t else t := by
  obtain ⟨i⟩ := id
  obtain ⟨j⟩ := j
  simp only [table?, modifyTable, KeyedList.getIdx?_modifyIdx, TableId.mk.injEq]

/-- A write to one table keeps everything if it keeps that table. -/
theorem includedIn_modifyTable {id : TableId} {f : Table → Table}
    (h : ∀ t, r.table? id = some t → t.IncludedIn (f t)) : r.IncludedIn (r.modifyTable id f) := by
  refine ⟨rfl, ?_, fun {_ e} he => ⟨e, he, .refl e⟩⟩
  intro j t ht
  have hafter : (r.modifyTable id f).table? j = some (if j = id then f t else t) := by
    rw [table?_modifyTable, ht]
    rfl
  refine ⟨_, hafter, ?_⟩
  split
  · next heq => exact h t (heq ▸ ht)
  · exact .refl t

/-- A registry advances if one of its tables does. -/
theorem Grounded.modifyTable (hr : r.Grounded S) {id : TableId} {f : Table → Table}
    (h : ∀ t, r.table? id = some t → t.Advances S r (f t)) :
    r.Advances S (r.modifyTable id f) := by
  have hincluded := includedIn_modifyTable fun t ht => (h t ht).included
  have hkeyed := hr.keyed.modifyTable fun t ht => (h t ht).included.key
  refine hr.grow hincluded hkeyed (fun j t' ht' => ?_) (fun _ _ => .inl) (fun _ _ => .inl)
    (fun _ => .inl) fun _ => .inl
  rw [table?_modifyTable] at ht'
  obtain ⟨t, ht, rfl⟩ := Option.map_eq_some_iff.mp ht'
  split
  · next heq => exact .inr ((h t (heq ▸ ht)).grounded.mono hincluded)
  · exact .inl ht

/-! ## New tables -/

/-- The table of a key is there. -/
theorem holds_of_findTable? {key : TableKey} {id : TableId} (h : r.findTable? key = some id) :
    r.Holds id := by
  obtain ⟨i, hi, rfl⟩ := Option.map_eq_some_iff.mp h
  exact KeyedList.exists_getIdx?_of_indexOf? hi

/-- A key under which no table is found is fresh. -/
theorem not_contains_of_findTable? {key : TableKey} (h : r.findTable? key = none) :
    r.tables.contains key = false := by
  have hnone : r.tables.indexOf? key = none := Option.map_eq_none_iff.mp h
  rw [KeyedList.contains, Bool.eq_false_iff, ne_eq, List.any_eq_true]
  rintro ⟨e, he, hkey⟩
  have hother := List.findIdx?_eq_none_iff.mp hnone e he
  simp only [hkey] at hother
  cases hother

/-- The table of a request is there after it was asked for. -/
theorem holds_addTable (r : Registry) (q : TableRequest) :
    (r.addTable q).1.Holds (r.addTable q).2 := by
  cases hfind : r.findTable? q.key with
  | some id =>
    obtain ⟨t, ht⟩ := holds_of_findTable? hfind
    simp only [Registry.addTable, hfind]
    split
    · exact ⟨t, ht⟩
    · exact ⟨_, by rw [table?_modifyTable, ht]; rfl⟩
  | none =>
    simp only [Registry.addTable, hfind]
    exact ⟨_, (KeyedList.getIdx?_insertIfNew r.tables (not_contains_of_findTable? hfind) _ _).trans
      (if_pos rfl)⟩

/-- An accepted table that repeats the columns of another is there. -/
theorem table?_of_addDenormalizedTable {q : TableRequest} {parent id : TableId}
    (h : r.addDenormalizedTable q parent = .ok (r', id)) :
    r'.table? id = some (q.newTable (some parent)) := by
  cases hfind : r.findTable? q.key with
  | some _ => simp [Registry.addDenormalizedTable, hfind] at h
  | none =>
    simp only [Registry.addDenormalizedTable, hfind] at h
    cases h
    exact (KeyedList.getIdx?_insertIfNew r.tables (not_contains_of_findTable? hfind) _ _).trans
      (if_pos rfl)

/-- A table without constraints is appended under a fresh key. -/
theorem Grounded.appendTable (hr : r.Grounded S) {t : Table} (hfresh : r.findTable? t.key = none)
    (ht : t.Grounded S r) :
    let r' := { r with tables := r.tables.insertIfNew t.key t }
    r.Advances S r' ∧ r'.Holds ⟨r.tables.size⟩ := by
  intro r'
  have hcontains := not_contains_of_findTable? hfresh
  have hlookup : ∀ id : TableId,
      r'.table? id = if id.index = r.tables.size then some t else r.table? id :=
    fun id => KeyedList.getIdx?_insertIfNew r.tables hcontains t id.index
  have hincluded : r.IncludedIn r' := by
    refine ⟨rfl, ?_, fun {_ e} he => ⟨e, he, .refl e⟩⟩
    intro id t₀ ht₀
    refine ⟨t₀, ?_, .refl t₀⟩
    have hlt : id.index < r.tables.size := by
      obtain ⟨entry, hentry, -⟩ := Option.map_eq_some_iff.mp ht₀
      exact (List.getElem?_eq_some_iff.mp hentry).1
    rw [hlookup, if_neg (Nat.ne_of_lt hlt), ht₀]
  refine ⟨hr.grow hincluded (hr.keyed.append t) (fun id t' ht' => ?_) (fun _ _ => .inl)
    (fun _ _ => .inl) (fun _ => .inl) fun _ => .inl, t, by rw [hlookup, if_pos rfl]⟩
  rw [hlookup] at ht'
  split at ht'
  · cases ht'
    exact .inr (ht.mono hincluded)
  · exact .inl ht'

/-- A table that has nothing but a parent is grounded. -/
theorem grounded_bareTable {key : TableKey} {subselect : Option String} {isAbstract : Bool}
    {parent : Option TableId} (hparent : ∀ id, parent = some id → r.Holds id) :
    Table.Grounded S r { key, subselect, isAbstract, denormalizedParent := parent } where
  named := fun _ _ h => by cases h
  primaryKey := fun _ h => by cases h
  indexes := fun _ h => absurd h List.not_mem_nil
  uniqueKeys := fun _ h => absurd h List.not_mem_nil
  naturalKey := fun _ h => by cases h
  foreignKeys := fun _ _ h => by cases h
  denormalizedParent := hparent

/-- The table of a request is there after it was asked for. -/
theorem Grounded.addTable (hr : r.Grounded S) (q : TableRequest) :
    r.Advances S (r.addTable q).1 ∧ (r.addTable q).1.Holds (r.addTable q).2 := by
  cases hfind : r.findTable? q.key with
  | some id =>
    have hid := holds_of_findTable? hfind
    simp only [Registry.addTable, hfind]
    split
    · exact ⟨hr.advances, hid⟩
    · have hadvances : r.Advances S (r.modifyTable id ({ · with isAbstract := false })) := by
        refine hr.modifyTable fun t ht => ?_
        exact (hr.tables id t ht).relabel rfl rfl rfl rfl rfl rfl rfl
      exact ⟨hadvances, hid.mono hadvances.included⟩
  | none =>
    simp only [Registry.addTable, hfind]
    exact hr.appendTable hfind (grounded_bareTable fun _ h => by cases h)

/-- A table that repeats the columns of another is there after it was made. -/
theorem Grounded.addDenormalizedTable (hr : r.Grounded S) {q : TableRequest} {parent id : TableId}
    (hparent : r.Holds parent) (h : r.addDenormalizedTable q parent = .ok (r', id)) :
    r.Advances S r' ∧ r'.Holds id := by
  cases hfind : r.findTable? q.key with
  | some _ => simp [Registry.addDenormalizedTable, hfind] at h
  | none =>
    simp only [Registry.addDenormalizedTable, hfind] at h
    cases h
    exact hr.appendTable hfind (grounded_bareTable fun _ h => Option.some.inj h ▸ hparent)

end Registry

end ObjectMapping
