import ObjectMapping.Binding.Columns
import ObjectMapping.Mapping.Entity

/-!
# Extended tables and entities

What the binder does to a table or to an entity that is already there only ever extends it.  A
table keeps its key, the query or parent that it was made with, and each of its columns at its
position; a column can only become non-nullable.  Its indexes and unique keys keep their entries.
An entity keeps its name, its kind and its superclass, and its table.  All of these are preorders,
and there is one lemma for each way in which a table is written to.
-/

namespace ObjectMapping

/-! ## Keyed lists -/

/-- The value under a key that is made if need be has been changed. -/
theorem KeyedList.get?_change {κ α : Type} [DecidableEq κ] (m : KeyedList κ α) (k : κ) (fresh : α)
    (f : α → α) : ∃ v, ((m.insertIfNew k fresh).modify k f).get? k = some (f v) := by
  have hpresent : k ∈ (m.insertIfNew k fresh).keys := mem_keys_insertIfNew.mpr (.inl rfl)
  obtain ⟨v, hv⟩ := mem_keys_iff.mp hpresent
  exact ⟨v, by rw [get?_modify, hv, Option.map_some, if_pos rfl]⟩

/-- A keyed list that extends another has each of its entries at the same position, under the same
key and with a related value. -/
def KeyedList.Extends {κ α : Type} (R : α → α → Prop) (m m' : KeyedList κ α) : Prop :=
  ∀ (i : Nat) (k : κ) (v : α), m.entries[i]? = some (k, v) →
    ∃ v', m'.entries[i]? = some (k, v') ∧ R v v'

namespace KeyedList.Extends

section

variable {κ α : Type} {R : α → α → Prop} {m m' m'' : KeyedList κ α}

/-- Entries keep their positions as a list is extended twice. -/
theorem trans (hR : ∀ {u v w : α}, R u v → R v w → R u w) (h : m.Extends R m')
    (h' : m'.Extends R m'') : m.Extends R m'' := by
  intro i k v hv
  obtain ⟨v', hv', hrel⟩ := h i k v hv
  obtain ⟨v'', hv'', hrel'⟩ := h' i k v' hv'
  exact ⟨v'', hv'', hR hrel hrel'⟩

theorem refl (hR : ∀ v : α, R v v) (m : KeyedList κ α) : m.Extends R m :=
  fun _ _ v hv => ⟨v, hv, hR v⟩

/-- The value at a position may be changed for a related one. -/
theorem modifyIdx (hR : ∀ v : α, R v v) (m : KeyedList κ α) (index : Nat) {f : α → α}
    (hf : ∀ v, R v (f v)) : m.Extends R (m.modifyIdx index f) := by
  intro i k v hv
  simp only [KeyedList.modifyIdx, List.getElem?_modify, hv]
  split
  · exact ⟨f v, rfl, hf v⟩
  · exact ⟨v, rfl, hR v⟩

/-- What is stored at a position stays there, with a related value. -/
theorem getIdx? (h : m.Extends R m') {i : Nat} {v : α} (hv : m.getIdx? i = some v) :
    ∃ v', m'.getIdx? i = some v' ∧ R v v' := by
  obtain ⟨⟨k, w⟩, hentry, rfl⟩ := Option.map_eq_some_iff.mp hv
  obtain ⟨v', hv', hrel⟩ := h i k w hentry
  exact ⟨v', by rw [KeyedList.getIdx?, hv']; rfl, hrel⟩

variable [DecidableEq κ]

/-- What is stored under a key stays there, with a related value. -/
theorem get? (h : m.Extends R m') {k : κ} {v : α} (hv : m.get? k = some v) :
    ∃ v', m'.get? k = some v' ∧ R v v' := by
  obtain ⟨i, hi⟩ := List.mem_iff_getElem?.mp (KeyedList.get?_eq_some_iff.mp hv)
  obtain ⟨v', hv', hrel⟩ := h i k v hi
  exact ⟨v', KeyedList.get?_eq_some_iff.mpr (List.mem_of_getElem? hv'), hrel⟩

/-- A fresh key comes last. -/
theorem push (hR : ∀ v : α, R v v) (m : KeyedList κ α) {k : κ} (v : α)
    (hfresh : m.contains k = false) : m.Extends R (m.push k v hfresh) := by
  intro i j w hw
  exact ⟨w, (List.getElem?_append_left (List.getElem?_eq_some_iff.mp hw).1).trans hw, hR w⟩

/-- A value may be stored under a key unless the key is present. -/
theorem insertIfNew (hR : ∀ v : α, R v v) (m : KeyedList κ α) (k : κ) (v : α) :
    m.Extends R (m.insertIfNew k v) := by
  unfold KeyedList.insertIfNew
  split
  · exact push hR m v _
  · exact refl hR m

/-- So may a value under a fresh key. -/
theorem insert (hR : ∀ v : α, R v v) (m : KeyedList κ α) {k : κ} (v : α)
    (hfresh : m.contains k = false) : m.Extends R (m.insert k v) := by
  rw [KeyedList.insert, dif_pos hfresh]
  exact push hR m v hfresh

/-- The value under a key may be changed for a related one. -/
theorem modify (hR : ∀ v : α, R v v) (m : KeyedList κ α) (key : κ) {f : α → α}
    (hf : ∀ v, R v (f v)) : m.Extends R (m.modify key f) := by
  intro i k v hv
  simp only [KeyedList.modify, List.getElem?_map, hv, Option.map_some]
  split
  · exact ⟨f v, rfl, hf v⟩
  · exact ⟨v, rfl, hR v⟩

end

end KeyedList.Extends

/-! ## Columns -/

/-- A column that may have become non-nullable, and is the same otherwise. -/
def Column.Tightens (c c' : Column) : Prop :=
  c' = { c with nullable := c'.nullable } ∧ (c'.nullable = true → c.nullable = true)

namespace Column.Tightens

theorem refl (c : Column) : c.Tightens c := ⟨rfl, id⟩

/-- A column that is tightened twice is tightened. -/
theorem trans {c c' c'' : Column} (h : c.Tightens c') (h' : c'.Tightens c'') :
    c.Tightens c'' := by
  refine ⟨?_, fun hnullable => h.2 (h'.2 hnullable)⟩
  calc c'' = { c' with nullable := c''.nullable } := h'.1
    _ = { c with nullable := c''.nullable } := by rw [h.1]

/-- A column may be made non-nullable. -/
theorem require (c : Column) : c.Tightens { c with nullable := false } := ⟨rfl, nofun⟩

end Column.Tightens

/-! ## Keys and indexes -/

/-- A unique key covers another if it has its columns. -/
def UniqueKey.CoveredBy (k k' : UniqueKey) : Prop := k.columns ⊆ k'.columns

/-- So does an index. -/
def Index.CoveredBy (i i' : Index) : Prop := i.columns ⊆ i'.columns

/-- A unique key has the columns that it had and the added one. -/
theorem UniqueKey.subset_addColumn (k : UniqueKey) (column : String) :
    k.columns ⊆ (k.addColumn column).columns ∧ column ∈ (k.addColumn column).columns := by
  unfold UniqueKey.addColumn
  split
  · next hin => exact ⟨List.Subset.refl _, hin⟩
  · simp

/-- So has an index. -/
theorem Index.subset_addColumn (i : Index) (column : String) :
    i.columns ⊆ (i.addColumn column).columns ∧ column ∈ (i.addColumn column).columns := by
  unfold Index.addColumn
  split
  · next hin => exact ⟨List.Subset.refl _, hin⟩
  · simp

/-- A unique key has the columns it had and those that were added. -/
theorem UniqueKey.subset_addColumns (columns : List String) (k : UniqueKey) :
    k.columns ⊆ (columns.foldl UniqueKey.addColumn k).columns ∧
      columns ⊆ (columns.foldl UniqueKey.addColumn k).columns := by
  induction columns generalizing k with
  | nil => exact ⟨List.Subset.refl _, List.nil_subset _⟩
  | cons column columns ih =>
    obtain ⟨hkept, hcolumn⟩ := k.subset_addColumn column
    obtain ⟨hgrown, hadded⟩ := ih (k.addColumn column)
    exact ⟨List.Subset.trans hkept hgrown, List.cons_subset.mpr ⟨hgrown hcolumn, hadded⟩⟩

/-! ## Tables -/

/-- A table that has got further columns and constraints at most, and columns of which have become
non-nullable at most. -/
structure Table.Extends (t t' : Table) : Prop where
  key : t'.key = t.key
  subselect : t'.subselect = t.subselect
  denormalizedParent : t'.denormalizedParent = t.denormalizedParent
  columns : t.columns.Extends Column.Tightens t'.columns

/-- A table covers another if it has its key, its columns, and its indexes and unique keys with
all their entries. -/
structure Table.CoveredBy (t t' : Table) : Prop where
  key : t'.key = t.key
  columns : t.columns.Extends (fun _ _ => True) t'.columns
  indexes : t.indexes.Extends Index.CoveredBy t'.indexes
  uniqueKeys : t.uniqueKeys.Extends UniqueKey.CoveredBy t'.uniqueKeys

/-- A table that extends another and covers it. -/
structure Table.Grows (t t' : Table) : Prop extends Extends t t' where
  covered : t.CoveredBy t'

namespace Table.Extends

variable {t t' t'' : Table}

theorem trans (h : t.Extends t') (h' : t'.Extends t'') : t.Extends t'' where
  key := h'.key.trans h.key
  subselect := h'.subselect.trans h.subselect
  denormalizedParent := h'.denormalizedParent.trans h.denormalizedParent
  columns := h.columns.trans .trans h'.columns

/-- A table is extended by what has to do with neither its identity nor its columns. -/
theorem of_columns_eq (hkey : t'.key = t.key) (hsubselect : t'.subselect = t.subselect)
    (hparent : t'.denormalizedParent = t.denormalizedParent) (hcolumns : t'.columns = t.columns) :
    t.Extends t' :=
  ⟨hkey, hsubselect, hparent, hcolumns ▸ .refl Column.Tightens.refl t.columns⟩

theorem refl (t : Table) : t.Extends t := of_columns_eq rfl rfl rfl rfl

end Table.Extends

namespace Table.CoveredBy

variable {t t' t'' : Table}

theorem refl (t : Table) : t.CoveredBy t where
  key := rfl
  columns := .refl (fun _ => trivial) _
  indexes := .refl (fun i => List.Subset.refl i.columns) _
  uniqueKeys := .refl (fun k => List.Subset.refl k.columns) _

theorem trans (h : t.CoveredBy t') (h' : t'.CoveredBy t'') : t.CoveredBy t'' where
  key := h'.key.trans h.key
  columns := h.columns.trans (fun _ _ => trivial) h'.columns
  indexes := h.indexes.trans List.Subset.trans h'.indexes
  uniqueKeys := h.uniqueKeys.trans List.Subset.trans h'.uniqueKeys

/-- What has to do with neither columns, indexes nor unique keys may be changed. -/
theorem of_eq (hkey : t'.key = t.key) (hcolumns : t'.columns = t.columns)
    (hindexes : t'.indexes = t.indexes) (huniqueKeys : t'.uniqueKeys = t.uniqueKeys) :
    t.CoveredBy t' where
  key := hkey
  columns := hcolumns ▸ (refl t).columns
  indexes := hindexes ▸ (refl t).indexes
  uniqueKeys := huniqueKeys ▸ (refl t).uniqueKeys

end Table.CoveredBy

namespace Table.Grows

variable {t t' t'' : Table}

theorem refl (t : Table) : t.Grows t := ⟨.refl t, .refl t⟩

theorem trans (h : t.Grows t') (h' : t'.Grows t'') : t.Grows t'' :=
  ⟨h.toExtends.trans h'.toExtends, h.covered.trans h'.covered⟩

/-- A column is added at the end, unless there is one of its name. -/
theorem addColumn (t : Table) (c : Column) : t.Grows (t.addColumn c) where
  toExtends := ⟨rfl, rfl, rfl, .insertIfNew .refl t.columns c.name c⟩
  covered := { CoveredBy.refl t with columns := .insertIfNew (fun _ => trivial) _ _ _ }

/-- Columns that are required become non-nullable. -/
theorem requireColumns (t : Table) (names : List String) : t.Grows (t.requireColumns names) := by
  have hcolumns : t.columns.Extends Column.Tightens (t.requireColumns names).columns := by
    simp only [Table.requireColumns]
    generalize t.columns = columns
    induction names generalizing columns with
    | nil => exact .refl .refl columns
    | cons name names ih =>
      have hfirst : columns.Extends Column.Tightens
          (columns.modify name fun c => { c with nullable := false }) :=
        .modify .refl columns name .require
      exact hfirst.trans .trans (ih _)
  refine ⟨⟨rfl, rfl, rfl, hcolumns⟩, { CoveredBy.refl t with columns := fun i k c hc => ?_ }⟩
  obtain ⟨c', hc', -⟩ := hcolumns i k c hc
  exact ⟨c', hc', trivial⟩

/-- What is neither part of its identity nor a column, an index or a unique key may be changed. -/
theorem of_eq (hkey : t'.key = t.key) (hsubselect : t'.subselect = t.subselect)
    (hparent : t'.denormalizedParent = t.denormalizedParent) (hcolumns : t'.columns = t.columns)
    (hindexes : t'.indexes = t.indexes) (huniqueKeys : t'.uniqueKeys = t.uniqueKeys) : t.Grows t' :=
  ⟨.of_columns_eq hkey hsubselect hparent hcolumns, .of_eq hkey hcolumns hindexes huniqueKeys⟩

/-- A primary key is no column. -/
theorem setPrimaryKey (t : Table) (columns : List String) : t.Grows (t.setPrimaryKey columns) :=
  of_eq rfl rfl rfl rfl rfl rfl

/-- A foreign key is none either. -/
theorem addForeignKey (t : Table) (k : ForeignKey) : t.Grows (t.addForeignKey k) :=
  of_eq rfl rfl rfl rfl rfl rfl

theorem addCheck (t : Table) (sql : String) : t.Grows (t.addCheck sql) :=
  of_eq rfl rfl rfl rfl rfl rfl

theorem setRowId (t : Table) (rowId : Option String) : t.Grows { t with rowId } :=
  of_eq rfl rfl rfl rfl rfl rfl

theorem setComment (t : Table) (comment : Option String) : t.Grows { t with comment } :=
  of_eq rfl rfl rfl rfl rfl rfl

/-- A unique key keeps its columns as it gets further ones. -/
theorem addToUniqueKey (t : Table) (name : String) (columns : List String) :
    t.Grows (t.addToUniqueKey name columns) where
  toExtends := .of_columns_eq rfl rfl rfl rfl
  covered := { CoveredBy.refl t with
    uniqueKeys := .trans List.Subset.trans
      (.insertIfNew (fun k => List.Subset.refl k.columns) _ _ _)
      (.modify (fun k => List.Subset.refl k.columns) _ _ fun k =>
        (k.subset_addColumns columns).1) }

/-- So it does if its name is generated. -/
theorem createUniqueKey (t : Table) (columns : List String) :
    t.Grows (t.createUniqueKey columns) := addToUniqueKey t _ columns

/-- An index keeps its columns as it gets a further one. -/
theorem addToIndex (t : Table) (name column : String) : t.Grows (t.addToIndex name column) where
  toExtends := .of_columns_eq rfl rfl rfl rfl
  covered := { CoveredBy.refl t with
    indexes := .trans List.Subset.trans
      (.insertIfNew (fun i => List.Subset.refl i.columns) _ _ _)
      (.modify (fun i => List.Subset.refl i.columns) _ _ fun i =>
        (i.subset_addColumn column).1) }

/-- A number of steps, one for each member of a list. -/
theorem foldl {α : Type} {f : Table → α → Table} (h : ∀ (t : Table) a, t.Grows (f t a))
    (l : List α) (t : Table) : t.Grows (l.foldl f t) := by
  induction l generalizing t with
  | nil => exact refl t
  | cons a l ih => exact (h t a).trans (ih (f t a))

/-- The indexes and unique keys that an element names for a column are constraints only. -/
theorem constrain (t : Table) (column : String) (source : Element) :
    t.Grows (t.constrain column source) := by
  unfold Table.constrain
  exact (foldl (fun t name => addToIndex t name column) _ t).trans
    (foldl (fun t name => addToUniqueKey t name [column]) _ _)

/-- A column is registered on a table with the constraints that elements name for it. -/
theorem registerColumn (t : Table) (c : Column) (sources : List Element) :
    t.Grows (sources.foldl (fun t source => t.constrain c.name source) (t.addColumn c)) :=
  (addColumn t c).trans (foldl (fun t source => constrain t c.name source) sources _)

end Table.Grows

/-! ## Entities -/

/-- An entity that keeps its place in the hierarchy and its table. -/
structure Entity.Extends (e e' : Entity) : Prop where
  name : e'.name = e.name
  kind : e'.kind.label = e.kind.label
  superclass : e'.superclass? = e.superclass?
  table : e'.table = e.table

namespace Entity.Extends

variable {e e' e'' : Entity}

theorem refl (e : Entity) : e.Extends e := ⟨rfl, rfl, rfl, rfl⟩

theorem trans (h : e.Extends e') (h' : e'.Extends e'') : e.Extends e'' :=
  ⟨h'.name.trans h.name, h'.kind.trans h.kind, h'.superclass.trans h.superclass,
    h'.table.trans h.table⟩

/-- The data of a root do not matter. -/
theorem modifyRoot (e : Entity) (f : RootData → RootData) : e.Extends (e.modifyRoot f) := by
  obtain ⟨_, _, _, _, kind, _⟩ := e
  cases kind <;> exact ⟨rfl, rfl, rfl, rfl⟩

/-- Neither do the properties. -/
theorem modifySlot (e : Entity) (slot : PropertySlot) (f : Property → Property) :
    e.Extends (e.modifySlot f slot) := by
  cases slot with
  | own | joined => exact ⟨rfl, rfl, rfl, rfl⟩
  | identifier => exact modifyRoot e _

end Entity.Extends

end ObjectMapping
