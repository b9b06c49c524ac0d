import ObjectMapping.Proofs.SessionGrounding
import ObjectMapping.Proofs.SharedTables

/-!
# Repeated columns

A table stores its own columns under their names, so that none of them is there twice.  A table
that repeats another one lists the columns of the other one first and then its own, and neither
looks at the columns of the other when it gets a further one.  Hence a name is listed once for each
table along the way that has a column of that name, and the listed names are distinct just in case
no two of these tables share one.
-/

namespace ObjectMapping

open Binding Registry

/-- If values are stored under their own names, the names of the values are the keys. -/
theorem KeyedList.map_values_eq_keys {κ : Type u} {α : Type v} [DecidableEq κ]
    {m : KeyedList κ α} {name : α → κ} (h : ∀ k v, m.get? k = some v → name v = k) :
    m.values.map name = m.keys := by
  rw [values, keys, List.map_map]
  exact List.map_congr_left fun e he => h e.1 e.2 (get?_eq_some_iff.mpr he)

namespace Registry

variable {r : Registry}

/-- The tables whose columns are listed for a table: those for the table that it repeats, if there
is one, and the table itself. -/
inductive Layers (r : Registry) : TableId → List Table → Prop
  | own {id : TableId} {t : Table} (h : r.table? id = some t)
      (hparent : t.denormalizedParent = none) : Layers r id [t]
  | repeated {id parent : TableId} {t : Table} {tables : List Table} (h : r.table? id = some t)
      (hparent : t.denormalizedParent = some parent) (hrest : Layers r parent tables) :
      Layers r id (tables ++ [t])

namespace Layers

variable {id : TableId} {tables : List Table}

/-- The layers of a table are tables of the registry. -/
theorem registered (h : r.Layers id tables) {t : Table} (ht : t ∈ tables) :
    ∃ id', r.table? id' = some t := by
  induction h with
  | own hown _ =>
    cases List.mem_singleton.mp ht
    exact ⟨_, hown⟩
  | repeated hlast _ _ ih =>
    rcases List.mem_append.mp ht with hrest | hlast'
    · exact ih hrest
    · cases List.mem_singleton.mp hlast'
      exact ⟨_, hlast⟩

/-- If tables repeat earlier ones only, the columns that are listed for a table are those of its
layers. -/
theorem allColumns_eq (h : r.Layers id tables) (hr : r.RepeatsBackwards) :
    r.allColumns id = tables.flatMap fun t => t.columns.values := by
  induction h with
  | own hown hparent => rw [hr.allColumns_eq hown, hparent]; simp
  | repeated hlast hparent _ ih =>
    rw [hr.allColumns_eq hlast, hparent, List.flatMap_append, ← ih]
    simp

end Layers

/-- If tables repeat earlier ones that are there, every table has its layers. -/
theorem RepeatsBackwards.exists_layers (hr : r.RepeatsBackwards)
    (hparents : ∀ id t parent, r.table? id = some t → t.denormalizedParent = some parent →
      r.Holds parent) {id : TableId} (hid : r.Holds id) : ∃ tables, r.Layers id tables := by
  induction hindex : id.index using Nat.strongRecOn generalizing id with
  | ind index ih =>
    obtain ⟨t, ht⟩ := hid
    cases hparent : t.denormalizedParent with
    | none => exact ⟨_, .own ht hparent⟩
    | some parent =>
      have hless := hr id t parent ht hparent
      obtain ⟨tables, htables⟩ := ih _ (hindex ▸ hless) (hparents id t parent ht hparent) rfl
      exact ⟨_, .repeated ht hparent htables⟩

end Registry

/-! ## Names -/

namespace Table.Grounded

variable {S : Source} {r : Registry} {t : Table} (h : t.Grounded S r)
include h

/-- The columns of a table have the names that they are stored under. -/
theorem map_name_values : t.columns.values.map Column.name = t.columns.keys :=
  KeyedList.map_values_eq_keys h.named

theorem nodup_names : (t.columns.values.map Column.name).Nodup := by
  rw [h.map_name_values]
  exact t.columns.nodup_keys

end Table.Grounded

/-- The layers of a table list the names that their columns are stored under. -/
theorem Registry.Layers.map_name_values {S : Source} {r : Registry} {id : TableId}
    {tables : List Table} (h : r.Layers id tables) (hr : r.Grounded S) :
    (tables.flatMap fun t => t.columns.values).map Column.name
      = tables.flatMap fun t => t.columns.keys := by
  rw [List.map_flatMap]
  refine List.flatMap_congr fun t ht => ?_
  obtain ⟨id', ht'⟩ := h.registered ht
  exact (hr.tables id' t ht').map_name_values

/-- A name occurs among the columns of several tables once for each table that has it. -/
theorem count_flatMap_keys (tables : List Table) (name : String) :
    (tables.flatMap fun t => t.columns.keys).count name
      = tables.countP fun t => name ∈ t.columns.keys := by
  induction tables with
  | nil => rfl
  | cons t rest ih =>
    have hone : t.columns.keys.count name = if name ∈ t.columns.keys then 1 else 0 :=
      List.Nodup.count t.columns.nodup_keys
    rw [List.flatMap_cons, List.count_append, ih, hone, List.countP_cons]
    split <;> simp_all [Nat.add_comm]

namespace Session

/-- Every entity is housed after any number of steps of a run. -/
theorem housed_of_steps {options : RegistryOptions} {r : Registry}
    (hr : Relation.ReflTransGen Step { options } r) : r.Housed := by
  have hempty : ({ options } : Registry).Housed :=
    ⟨fun _ t _ ht _ => absurd ht.symm (Option.some_ne_none t),
      fun _ e he => absurd he.symm (Option.some_ne_none e)⟩
  exact (upkept_housing.advances_of_steps hempty hr).invariant

/-- After any number of steps of a run, the columns that are listed for a table are those of the
table that it repeats, if there is one, followed by its own, which have distinct names.  A name is
listed once for each of the tables along the way that has it, so that the names are distinct just
in case no two of these tables share one. -/
theorem listed_columns {options : RegistryOptions} {r : Registry}
    (hr : Relation.ReflTransGen Step { options } r) {id : TableId} {t : Table}
    (ht : r.table? id = some t) :
    (t.columns.values.map Column.name).Nodup ∧
      ∃ tables, r.Layers id tables ∧
        r.allColumns id = tables.flatMap (fun t => t.columns.values) ∧
        (∀ name, ((r.allColumns id).map Column.name).count name
          = tables.countP fun t => name ∈ t.columns.keys) ∧
        (((r.allColumns id).map Column.name).Nodup
          ↔ tables.Pairwise fun t t' => t.columns.keys.Disjoint t'.columns.keys) := by
  have hkept : Upkept (sourceOf options fun _ => True).grounding fun _ => True := upkept_grounding
  have hgrounded : r.Grounded (sourceOf options fun _ => True) :=
    (hkept.advances_of_steps (grounded_empty options _) hr).invariant
  have hhoused := housed_of_steps hr
  obtain ⟨tables, hlayers⟩ := hhoused.backwards.exists_layers
    (fun id t parent ht hparent => (hgrounded.tables id t ht).denormalizedParent parent hparent)
    ⟨t, ht⟩
  have hcolumns := hlayers.allColumns_eq hhoused.backwards
  have hnames : (r.allColumns id).map Column.name = tables.flatMap fun t => t.columns.keys :=
    hcolumns ▸ hlayers.map_name_values hgrounded
  refine ⟨(hgrounded.tables id t ht).nodup_names, tables, hlayers, hcolumns, fun name => ?_, ?_⟩
  · rw [hnames, count_flatMap_keys]
  · rw [hnames, List.nodup_flatMap]
    exact and_iff_right fun t _ => t.columns.nodup_keys

/-- Animals with a name, and cats, which repeat the columns of animals, with a name of their own. -/
def namedAnimals : Document := documentOf [
  identifiedClass "Animal" [namedElement "property" "name" []],
  { name := "union-subclass"
    attributes := .ofList [("name", "Cat"), ("extends", "Animal")]
    children := [namedElement "property" "name" [], namedElement "property" "claws" []] }]

/-- The registry with cats that have two names. -/
def namedCatRegistry : Registry := (Call.add namedAnimals .empty).run.after { options := {} }

/-- The names of cats are listed twice, once for each of the two tables. -/
theorem listed_columns_namedCatRegistry :
    Relation.ReflTransGen Step { options := {} } namedCatRegistry ∧
      ∃ cat t, namedCatRegistry.entity? "Cat" = some cat ∧
        namedCatRegistry.table? cat.table = some t ∧
        t.columns.keys = ["name", "claws"] ∧
        ((namedCatRegistry.allColumns cat.table).map Column.name)
          = ["id", "name", "name", "claws"] ∧
        ∃ tables, namedCatRegistry.Layers cat.table tables ∧
          (tables.countP fun t => "name" ∈ t.columns.keys) = 2 := by
  have hsteps : Relation.ReflTransGen Step { options := {} } namedCatRegistry :=
    .single (.call _ (.add namedAnimals .empty))
  have hcat : ((namedCatRegistry.entity? "Cat").bind fun e =>
      (namedCatRegistry.table? e.table).map fun t =>
        (t.columns.keys, (namedCatRegistry.allColumns e.table).map Column.name))
      = some (["name", "claws"], ["id", "name", "name", "claws"]) := by decide +kernel
  obtain ⟨cat, hcat, hrest⟩ := Option.bind_eq_some_iff.mp hcat
  obtain ⟨t, ht, hlists⟩ := Option.map_eq_some_iff.mp hrest
  rw [Prod.mk.injEq] at hlists
  obtain ⟨-, tables, hlayers, -, hcount, -⟩ := listed_columns hsteps ht
  have htwice := hcount "name"
  rw [hlists.2] at htwice
  exact ⟨hsteps, cat, t, hcat, ht, hlists.1, hlists.2, tables, hlayers, htwice.symm⟩

/-- Listed columns need not have distinct names, although nothing fails: a table that repeats
another one may have a column of the same name, and then lists both. -/
theorem listed_columns_not_distinct :
    (Call.add namedAnimals .empty).run.succeeds { options := {} } = true ∧
      Session.finish.succeeds namedCatRegistry = true ∧
      ∃ cat, namedCatRegistry.entity? "Cat" = some cat ∧
        ¬ ((namedCatRegistry.allColumns cat.table).map Column.name).Nodup := by
  have hlisted : columnsOf namedCatRegistry "Cat" = some ["id", "name", "name", "claws"] := by
    decide +kernel
  obtain ⟨cat, hcat, hnames⟩ := Option.map_eq_some_iff.mp hlisted
  refine ⟨by decide +kernel, by decide +kernel, cat, hcat, ?_⟩
  rw [hnames]
  decide

end Session

end ObjectMapping
