import ObjectMapping.Proofs.Preparation
import ObjectMapping.Proofs.TableWrites
import ObjectMapping.Proofs.Upkeep

/-!
# Tables that cover others

A table covers another if it has its key, its columns, and its indexes and unique keys with all
their entries.  Columns, index entries and unique keys are only ever added where they are missing,
so a write of this kind that is repeated on a table that covers its result changes nothing:
`Table.Settles` says so of one write, and is closed under composition.  A registry covers another
if its tables do.  Foreign keys are left out throughout, since a later one replaces an earlier one
of its name.
-/

namespace ObjectMapping

/-! ## Entries that are made and then changed -/

namespace KeyedList

variable {κ α : Type} [DecidableEq κ]

/-- What is there already is not made, and what a change leaves alone stays. -/
theorem change_eq_self {m : KeyedList κ α} {k : κ} {v : α} (hv : m.get? k = some v) (fresh : α)
    {f : α → α} (hf : f v = v) : (m.insertIfNew k fresh).modify k f = m := by
  have hpresent : m.contains k = true := by rw [← isSome_get?, hv]; rfl
  rw [insertIfNew, dif_neg (by simp [hpresent])]
  apply ext
  conv_rhs => rw [← List.map_id m.entries]
  apply List.map_congr_left
  rintro ⟨j, w⟩ hentry
  by_cases hj : j = k
  · subst hj
    have hw : m.get? j = some w := get?_eq_some_iff.mpr hentry
    cases hv.symm.trans hw
    simp [hf]
  · simp [hj]

/-- A change that is repeated where its result is extended does nothing. -/
theorem change_eq_self_of_extends {R : α → α → Prop} {m₀ m : KeyedList κ α} {k : κ} {fresh : α}
    {f : α → α} (hf : ∀ u v, R (f u) v → f v = v)
    (h : ((m₀.insertIfNew k fresh).modify k f).Extends R m) :
    (m.insertIfNew k fresh).modify k f = m := by
  obtain ⟨u, hu⟩ := m₀.get?_change k fresh f
  obtain ⟨v, hv, hrel⟩ := h.get? hu
  exact change_eq_self hv fresh (hf u v hrel)

end KeyedList

/-! ## Tables -/

/-- A write that only adds, and adds nothing where its result is covered. -/
structure Table.Settles (f : Table → Table) : Prop where
  covered : ∀ t : Table, t.CoveredBy (f t)
  settled : ∀ {t₀ t : Table}, (f t₀).CoveredBy t → f t = t

/-- A table without its foreign keys. -/
def Table.withoutForeignKeys (t : Table) : Table := { t with foreignKeys := .empty }

/-- Tables that differ in their foreign keys at most. -/
def Table.SameLayout (t t' : Table) : Prop := t'.withoutForeignKeys = t.withoutForeignKeys

theorem Table.SameLayout.refl (t : Table) : t.SameLayout t := rfl

/-- The layout that is kept twice is kept. -/
theorem Table.SameLayout.trans {t t' t'' : Table} (h : t.SameLayout t') (h' : t'.SameLayout t'') :
    t.SameLayout t'' :=
  Eq.trans h' h

/-- Foreign keys do not matter. -/
theorem Table.CoveredBy.of_sameLayout {t t' : Table} (h : t.SameLayout t') : t.CoveredBy t' :=
  of_eq (congrArg (·.key) h) (congrArg (·.columns) h) (congrArg (·.indexes) h)
    (congrArg (·.uniqueKeys) h)

/-! ## Repeated entries -/

/-- Columns that a unique key has are not added again. -/
theorem UniqueKey.addColumns_eq_self {columns : List String} {k : UniqueKey}
    (h : columns ⊆ k.columns) : columns.foldl UniqueKey.addColumn k = k := by
  induction columns with
  | nil => rfl
  | cons column columns ih =>
    obtain ⟨hcolumn, hrest⟩ := List.cons_subset.mp h
    rw [List.foldl_cons, UniqueKey.addColumn, if_pos hcolumn]
    exact ih hrest

namespace Table.Settles

/-- Writing nothing. -/
theorem id : Settles fun t => t := ⟨CoveredBy.refl, fun _ => rfl⟩

/-- One write after another: a table that covers both results covers each. -/
theorem comp {f g : Table → Table} (hf : Settles f) (hg : Settles g) :
    Settles fun t => g (f t) where
  covered t := (hf.covered t).trans (hg.covered (f t))
  settled {t₀ t} h := by
    have hfirst : f t = t := hf.settled ((hg.covered (f t₀)).trans h)
    have hsecond : g t = t := hg.settled h
    rw [hfirst, hsecond]

/-- Changes of a table that settle do so one after another. -/
theorem foldl {α : Type} {f : Table → α → Table} (hf : ∀ a, Settles (f · a)) :
    ∀ l : List α, Settles (l.foldl f ·)
  | [] => id
  | a :: l => comp (hf a) (foldl hf l)

/-- A column that is added again changes nothing. -/
theorem addColumn (c : Column) : Settles (·.addColumn c) where
  covered t := (Grows.addColumn t c).covered
  settled {t₀ t} h := by
    have hadded : c.name ∈ (t₀.addColumn c).columns.keys :=
      KeyedList.mem_keys_insertIfNew.mpr (.inl rfl)
    obtain ⟨c₀, hc₀⟩ := KeyedList.mem_keys_iff.mp hadded
    obtain ⟨c', hc', -⟩ := h.columns.get? hc₀
    have hpresent : t.columns.contains c.name = true := by
      rw [← KeyedList.isSome_get?, hc']
      rfl
    rw [Table.addColumn, KeyedList.insertIfNew, dif_neg (by simp [hpresent])]

/-- Neither do columns that are added to a unique key again. -/
theorem addToUniqueKey (name : String) (columns : List String) :
    Settles (·.addToUniqueKey name columns) where
  covered t := (Grows.addToUniqueKey t name columns).covered
  settled {t₀ t} h := by
    have hkeys := KeyedList.change_eq_self_of_extends (fun u v hsubset =>
      UniqueKey.addColumns_eq_self
        (List.Subset.trans (u.subset_addColumns columns).2 hsubset)) h.uniqueKeys
    simp only [Table.addToUniqueKey, hkeys]

/-- Nor does one that is added to an index again. -/
theorem addToIndex (name column : String) : Settles (·.addToIndex name column) where
  covered t := (Grows.addToIndex t name column).covered
  settled {t₀ t} h := by
    have hindexes := KeyedList.change_eq_self_of_extends (fun u v hsubset => by
      have hin : column ∈ v.columns := hsubset (u.subset_addColumn column).2
      rw [Index.addColumn, if_pos hin]) h.indexes
    simp only [Table.addToIndex, Table.changeIndex, hindexes]

/-- The generated name of a unique key depends on the table's name, which a table that covers
another shares. -/
theorem createUniqueKey (columns : List String) : Settles (·.createUniqueKey columns) where
  covered t := (addToUniqueKey _ columns).covered t
  settled {t₀ t} h := by
    have hname : t.name = t₀.name := congrArg TableKey.name h.key
    rw [Table.createUniqueKey, hname]
    exact (addToUniqueKey _ columns).settled h

/-- The indexes and unique keys that an element names for a column. -/
theorem constrain (column : String) (source : Element) : Settles (·.constrain column source) :=
  comp (foldl (fun name => addToIndex name column) _)
    (foldl (fun name => addToUniqueKey name [column]) _)

/-- A column is registered with the indexes and unique keys of some elements. -/
theorem registerColumn (c : Column) (sources : List Element) :
    Settles fun t => sources.foldl (fun t source => t.constrain c.name source) (t.addColumn c) :=
  comp (addColumn c) (foldl (fun source => constrain c.name source) sources)

end Table.Settles

/-! ## Registries -/

namespace Registry

/-- Nothing is unregistered, and each table is covered by what becomes of it. -/
structure Widens (r r' : Registry) : Prop where
  options : r'.options = r.options
  tables : r.tables.Extends Table.CoveredBy r'.tables
  roles : ∀ role, r.collections.contains role = true → r'.collections.contains role = true

/-- A registry covers another that it widens, if a table is opened for a collection only, which is
registered along with it. -/
structure CoveredBy (r r' : Registry) : Prop extends Widens r r' where
  opened : r'.tables.size = r.tables.size ∨
    ∃ role, r'.collections.contains role = true ∧ r.collections.contains role = false

/-- Registries that differ in the foreign keys of their tables, as far as tables, collections and
options are concerned. -/
structure SameLayout (r r' : Registry) : Prop where
  options : r'.options = r.options
  collections : r'.collections = r.collections
  size : r'.tables.size = r.tables.size
  tables : r.tables.Extends Table.SameLayout r'.tables

variable {r r' r'' : Registry}

namespace Widens

theorem refl (r : Registry) : Widens r r := ⟨rfl, .refl Table.CoveredBy.refl _, fun _ h => h⟩

/-- What is widened twice is widened. -/
theorem trans (h : Widens r r') (h' : Widens r' r'') : Widens r r'' where
  options := h'.options.trans h.options
  tables := h.tables.trans .trans h'.tables
  roles role hrole := h'.roles role (h.roles role hrole)

/-- What is not registered later was not registered before. -/
theorem fresh (h : Widens r r') {role : String} (hrole : r'.collections.contains role = false) :
    r.collections.contains role = false := by
  cases hold : r.collections.contains role with
  | false => rfl
  | true => exact absurd (h.roles role hold) (by simp [hrole])

/-- A table stays at its position. -/
theorem table? (h : Widens r r') {id : TableId} {t : Table} (ht : r.table? id = some t) :
    ∃ t', r'.table? id = some t' ∧ t.CoveredBy t' :=
  h.tables.getIdx? ht

/-- A table may be changed into one that covers it. -/
theorem modifyTable (r : Registry) (id : TableId) {f : Table → Table}
    (h : ∀ t : Table, t.CoveredBy (f t)) : Widens r (r.modifyTable id f) :=
  { refl r with tables := .modifyIdx Table.CoveredBy.refl _ _ h }

/-- A table may be asked for. -/
theorem addTable (r : Registry) (q : TableRequest) : Widens r (r.addTable q).1 := by
  rcases r.addTable_cases q with h | ⟨id, h⟩ | h <;> rw [h]
  · exact refl r
  · exact modifyTable r id fun t => .of_eq rfl rfl rfl rfl
  · exact { refl r with tables := .insertIfNew Table.CoveredBy.refl r.tables _ _ }

/-- A collection that is registered is there, and so are the others. -/
theorem addCollection {c : Collection} (h : r.addCollection c = .ok r') :
    Widens r r' ∧ r'.collections.contains c.role = true := by
  obtain ⟨-, rfl⟩ := addCollection_eq_ok.mp h
  have hin : ∀ role, role = c.role ∨ r.collections.contains role = true →
      (r.collections.insert c.role c).contains role = true := fun role hrole =>
    KeyedList.contains_iff.mpr
      (KeyedList.mem_keys_insert.mpr (hrole.imp_right KeyedList.contains_iff.mp))
  exact ⟨{ refl r with roles := fun role hrole => hin role (.inr hrole) }, hin c.role (.inl rfl)⟩

end Widens

namespace CoveredBy

theorem refl (r : Registry) : CoveredBy r r := { Widens.refl r with opened := .inl rfl }

theorem trans (h : CoveredBy r r') (h' : CoveredBy r' r'') : CoveredBy r r'' where
  toWidens := h.toWidens.trans h'.toWidens
  opened := by
    rcases h.opened with hsize | ⟨role, hin, hnew⟩
    · rcases h'.opened with hsize' | ⟨role, hin, hnew⟩
      · exact .inl (hsize'.trans hsize)
      · exact .inr ⟨role, hin, h.fresh hnew⟩
    · exact .inr ⟨role, h'.roles role hin, hnew⟩

end CoveredBy

namespace SameLayout

theorem refl (r : Registry) : SameLayout r r := ⟨rfl, rfl, rfl, .refl Table.SameLayout.refl _⟩

theorem trans (h : SameLayout r r') (h' : SameLayout r' r'') : SameLayout r r'' where
  options := h'.options.trans h.options
  collections := h'.collections.trans h.collections
  size := h'.size.trans h.size
  tables := h.tables.trans .trans h'.tables

/-- What has the same layout is covered. -/
theorem coveredBy (h : SameLayout r r') : CoveredBy r r' where
  options := h.options
  tables i k t ht := by
    obtain ⟨t', ht', hsame⟩ := h.tables i k t ht
    exact ⟨t', ht', .of_sameLayout hsame⟩
  roles role hrole := by rwa [h.collections]
  opened := .inl h.size

/-- What a table looks like apart from its foreign keys. -/
theorem table? (h : SameLayout r r') (id : TableId) :
    (r'.table? id).map Table.withoutForeignKeys = (r.table? id).map Table.withoutForeignKeys := by
  cases ht : r.table? id with
  | some t =>
    obtain ⟨t', ht', hsame⟩ := h.tables.getIdx? ht
    rw [show r'.table? id = some t' from ht', Option.map_some, Option.map_some,
      show t'.withoutForeignKeys = t.withoutForeignKeys from hsame]
  | none =>
    have hbeyond : r.tables.size ≤ id.index := by
      simpa [Registry.table?, KeyedList.getIdx?, KeyedList.size] using ht
    have hnone : r'.table? id = none := by
      rw [← h.size] at hbeyond
      simpa [Registry.table?, KeyedList.getIdx?, KeyedList.size] using hbeyond
    rw [hnone]

/-- One table may get other foreign keys. -/
theorem modifyTable (r : Registry) (id : TableId) {f : Table → Table}
    (h : ∀ t : Table, t.SameLayout (f t)) : SameLayout r (r.modifyTable id f) where
  options := rfl
  collections := rfl
  size := by simp [Registry.modifyTable, KeyedList.modifyIdx, KeyedList.size]
  tables := .modifyIdx Table.SameLayout.refl _ _ h

end SameLayout

/-- Foreign keys are no part of the layout. -/
theorem sameLayout_constrainTo (r : Registry) (v : SimpleValue) (entity : String) :
    SameLayout r (r.constrainTo v entity) := by
  unfold constrainTo
  dsimp only
  split
  · exact .refl r
  · split
    · exact .refl r
    · exact .modifyTable r _ fun _ => rfl

/-- Recording references writes to no table. -/
theorem sameLayout_recordReferences (r : Registry) (owner : String) (isManyToMany : Bool)
    (v : Value) : SameLayout r (r.recordReferences owner isManyToMany v) := by
  obtain ⟨_, _, heq⟩ := r.recordReferences_eq owner isManyToMany v
  rw [heq]
  exact { SameLayout.refl r with options := rfl }

/-- Making the foreign keys of a value changes nothing but foreign keys. -/
theorem sameLayout_constrainValue (r : Registry) (v : Value) : SameLayout r (r.constrainValue v) :=
  of_constrainValue v (fun _ _ base _ _ _ entity _ _ r₁ hr₁ =>
    hr₁.trans (sameLayout_constrainTo r₁ base entity)) (.refl r)

end Registry

/-! ## Collections -/

open Binding Registry

/-- Whatever is widened. -/
def widening : Upkeep where
  invariant _ := True
  keeps := Widens
  refl := Widens.refl
  trans := Widens.trans

/-- The table of a collection is opened if it is not there. -/
theorem widens_openElement (scope : Scope) (node : Element) (role : String) (owner : Owner) :
    Makes Widens (openElement scope node role owner) := by
  have hcomment : ∀ id, Makes Widens (commentTable id node) := by
    intro id
    unfold commentTable
    split
    · exact .modify fun r => .single (.modifyTable r id fun t => .of_eq rfl rfl rfl rfl)
    · exact .pure _
  unfold openElement openCollectionTable
  split
  · exact .pure _
  · exact .bind (.bind .get fun _ => .bind (fun r => .single (.addTable r _)) fun id =>
      .bind (hcomment id) fun _ => .pure _) fun _ => .pure _

/-- A collection is registered along with its table, under a role that no collection had. -/
theorem covered_of_bindCollection {scope : Scope} {node : Element} {kind : CollectionKind}
    {role : String} {owner : Owner} {r r' : Registry} {v : Value}
    (h : (bindCollection scope node kind role owner).run r = .ok v r') :
    r.CoveredBy r' ∧ r.collections.contains role = false ∧ r'.collections.contains role = true := by
  have hwiden : Upholds widening (bindCollection scope node kind role owner) r fun _ s =>
      r.collections.contains role = false ∧ s.collections.contains role = true := by
    unfold bindCollection
    refine .ofExcept_bind fun batchSize _ => .optional (fun _ => .write fun _ => ?_) fun r₁ h₁ => ?_
    · exact ⟨{ Widens.refl r with options := rfl }, trivial⟩
    · refine .bind (.of_steps (widens_openElement scope node role owner)
        fun _ _ hstep _ => ⟨hstep, trivial⟩) fun ⟨element, table⟩ r₂ h₂ _ => ?_
      refine .bind (.of_steps (.mapM (S := Widens) (fun filter => ?_) _)
        fun _ _ hstep _ => ⟨hstep, trivial⟩) fun filters r₃ h₃ _ => ?_
      · unfold bindFilterUse
        exact .bind .get fun _ => .ofExcept _
      · split
        refine .bind (P := fun _ s => r.collections.contains role = false ∧
          s.collections.contains role = true) (.register fun r₄ _ hadd => ?_)
          fun _ r₄ h₄ hrole => .bind (.write fun _ => ?_) fun _ r₅ h₅ _ => .pure ?_
        · obtain ⟨hwidens, hin⟩ := Widens.addCollection hadd
          obtain ⟨hnew, -⟩ := addCollection_eq_ok.mp hadd
          exact ⟨⟨hwidens, trivial⟩, (h₁.trans (h₂.trans h₃)).fresh hnew, hin⟩
        · exact ⟨{ Widens.refl r₄ with options := rfl }, trivial⟩
        · exact ⟨hrole.1, h₅.roles role hrole.2⟩
  obtain ⟨hadvances, hfresh, hrole⟩ := hwiden.of_ok trivial h
  exact ⟨{ hadvances.keeps with opened := .inr ⟨role, hrole, hfresh⟩ }, hfresh, hrole⟩

end ObjectMapping
