import ObjectMapping.Binding.Class
import ObjectMapping.Proofs.Parts
import ObjectMapping.Proofs.Source

/-!
# Grounded registries

A registry only ever grows: tables get further columns and constraints, entities further
properties, and nothing that is there goes away.  `Registry.IncludedIn` says so.

A value is grounded in a registry if the tables that it and its parts are stored in exist and
have its columns, and if its columns are those that an element of the source names.  An
association in a component is besides secured: the name of its foreign key is taken in its
table.  A table is grounded if its keys, indexes and foreign keys speak of its own columns.
A registry is grounded if everything stored in it is.  All of this but the last survives the
growth of the registry, which is what lets one write be considered at a time.
-/

namespace ObjectMapping

/-! ## Growth -/

/-- A table that keeps its key, and gets further columns and foreign keys at most. -/
structure Table.IncludedIn (t t' : Table) : Prop where
  key : t'.key = t.key
  columns : t.columns.keys ⊆ t'.columns.keys
  foreignKeys : t.foreignKeys.keys ⊆ t'.foreignKeys.keys

/-- An entity that keeps its name, table and superclass, and through which further columns can be
referred to or are part of its natural identifier at most. -/
structure Entity.IncludedIn (e e' : Entity) : Prop where
  name : e'.name = e.name
  table : e'.table = e.table
  superclass : e'.superclass? = e.superclass?
  spans : e.spans ⊆ e'.spans
  natural : e.naturalColumns ⊆ e'.naturalColumns

theorem Table.IncludedIn.refl (t : Table) : t.IncludedIn t := ⟨rfl, fun _ h => h, fun _ h => h⟩

/-- A table may grow twice. -/
theorem Table.IncludedIn.trans {t t' t'' : Table} (h : t.IncludedIn t') (h' : t'.IncludedIn t'') :
    t.IncludedIn t'' :=
  ⟨h'.key.trans h.key, List.Subset.trans h.columns h'.columns,
    List.Subset.trans h.foreignKeys h'.foreignKeys⟩

theorem Entity.IncludedIn.refl (e : Entity) : e.IncludedIn e :=
  ⟨rfl, rfl, rfl, fun _ h => h, fun _ h => h⟩

/-- So may an entity. -/
theorem Entity.IncludedIn.trans {e e' e'' : Entity} (h : e.IncludedIn e')
    (h' : e'.IncludedIn e'') : e.IncludedIn e'' :=
  ⟨h'.name.trans h.name, h'.table.trans h.table, h'.superclass.trans h.superclass,
    List.Subset.trans h.spans h'.spans, List.Subset.trans h.natural h'.natural⟩

namespace Registry

/-- A registry to which something may have been added. -/
structure IncludedIn (r r' : Registry) : Prop where
  naming : r'.naming = r.naming
  tables : ∀ {id : TableId} {t : Table}, r.table? id = some t →
    ∃ t', r'.table? id = some t' ∧ t.IncludedIn t'
  entities : ∀ {name : String} {e : Entity}, r.entity? name = some e →
    ∃ e', r'.entity? name = some e' ∧ e.IncludedIn e'

theorem IncludedIn.refl (r : Registry) : r.IncludedIn r :=
  ⟨rfl, fun {_ t} h => ⟨t, h, .refl t⟩, fun {_ e} h => ⟨e, h, .refl e⟩⟩

/-- And so may a registry. -/
theorem IncludedIn.trans {r r' r'' : Registry} (h : r.IncludedIn r') (h' : r'.IncludedIn r'') :
    r.IncludedIn r'' := by
  refine ⟨h'.naming.trans h.naming, fun ht => ?_, fun he => ?_⟩
  · obtain ⟨t', ht', hincluded⟩ := h.tables ht
    obtain ⟨t'', ht'', hincluded'⟩ := h'.tables ht'
    exact ⟨t'', ht'', hincluded.trans hincluded'⟩
  · obtain ⟨e', he', hincluded⟩ := h.entities he
    obtain ⟨e'', he'', hincluded'⟩ := h'.entities he'
    exact ⟨e'', he'', hincluded.trans hincluded'⟩

/-! ## Tables, columns and superclasses -/

/-- Every entity is stored under its own name, as it is by registration. -/
def StoredByName (r : Registry) : Prop := ∀ name e, r.entity? name = some e → e.name = name

/-- Every table is stored under its own key. -/
def TablesKeyed (r : Registry) : Prop :=
  ∀ (i : Nat) (key : TableKey) (t : Table), r.tables.entries[i]? = some (key, t) → t.key = key

/-- There is a table at a position. -/
def Holds (r : Registry) (id : TableId) : Prop := ∃ t, r.table? id = some t

/-- The table at a position has columns of some names. -/
def HasColumns (r : Registry) (id : TableId) (names : List String) : Prop :=
  ∃ t, r.table? id = some t ∧ names ⊆ t.columns.keys

/-- A column is part of the natural identifier of an entity that is stored in a table. -/
def HasNaturalColumn (r : Registry) (id : TableId) (column : String) : Prop :=
  ∃ name e, r.entity? name = some e ∧ e.table = id ∧ column ∈ e.naturalColumns

/-- An entity is the one of a name or one of its superclasses. -/
inductive Ancestor (r : Registry) : String → Entity → Prop
  | self {name : String} {e : Entity} (h : r.entity? name = some e) : Ancestor r name e
  | superclass {name s : String} {e e' : Entity} (h : r.entity? name = some e)
      (hs : e.superclass? = some s) (h' : Ancestor r s e') : Ancestor r name e'

section

variable {r r' : Registry} (h : r.IncludedIn r')
include h

/-- A table that is there stays there. -/
theorem Holds.mono {id : TableId} (hid : r.Holds id) : r'.Holds id := by
  obtain ⟨t, ht⟩ := hid
  obtain ⟨t', ht', -⟩ := h.tables ht
  exact ⟨t', ht'⟩

/-- A table keeps its columns. -/
theorem HasColumns.mono {id : TableId} {names : List String} (hid : r.HasColumns id names) :
    r'.HasColumns id names := by
  obtain ⟨t, ht, hnames⟩ := hid
  obtain ⟨t', ht', hincluded⟩ := h.tables ht
  exact ⟨t', ht', List.Subset.trans hnames hincluded.columns⟩

/-- A natural identifier keeps its columns, and its entity stays in its table. -/
theorem HasNaturalColumn.mono {id : TableId} {column : String}
    (hcolumn : r.HasNaturalColumn id column) : r'.HasNaturalColumn id column := by
  obtain ⟨name, e, he, htable, hin⟩ := hcolumn
  obtain ⟨e', he', hincluded⟩ := h.entities he
  exact ⟨name, e', he', hincluded.table.trans htable, hincluded.natural hin⟩

/-- An ancestor stays one, though it may have grown. -/
theorem Ancestor.mono {name : String} {e : Entity} (he : r.Ancestor name e) :
    ∃ e', r'.Ancestor name e' ∧ e.IncludedIn e' := by
  induction he with
  | self hname =>
    obtain ⟨e', he', hincluded⟩ := h.entities hname
    exact ⟨e', .self he', hincluded⟩
  | superclass hname hs _ ih =>
    obtain ⟨_, he', hincluded⟩ := h.entities hname
    obtain ⟨a, ha, hancestor⟩ := ih
    exact ⟨a, .superclass he' (hincluded.superclass.trans hs) ha, hancestor⟩

end

/-- A table that has columns is there. -/
theorem HasColumns.holds {r : Registry} {id : TableId} {names : List String}
    (h : r.HasColumns id names) : r.Holds id := by
  obtain ⟨t, ht, -⟩ := h
  exact ⟨t, ht⟩

/-- Columns at a position are those of the table that is found there. -/
theorem HasColumns.subset {r : Registry} {id : TableId} {names : List String}
    (h : r.HasColumns id names) {t : Table} (ht : r.table? id = some t) :
    names ⊆ t.columns.keys := by
  obtain ⟨t', ht', hnames⟩ := h
  cases ht.symm.trans ht'
  exact hnames

/-- No columns are needed of a table that exists. -/
theorem Holds.hasColumns_nil {r : Registry} {id : TableId} (h : r.Holds id) :
    r.HasColumns id [] := by
  obtain ⟨t, ht⟩ := h
  exact ⟨t, ht, List.nil_subset _⟩

/-- Columns that a table has may be put together. -/
theorem hasColumns_append {r : Registry} {id : TableId} {names names' : List String}
    (h : r.HasColumns id names) (h' : r.HasColumns id names') :
    r.HasColumns id (names ++ names') := by
  obtain ⟨t, ht, hnames⟩ := h
  exact ⟨t, ht, List.append_subset.mpr ⟨hnames, h'.subset ht⟩⟩

/-- The table has the columns of several things if it has those of each. -/
theorem hasColumns_flatMap {α : Type} {r : Registry} {id : TableId} (hid : r.Holds id)
    {names : α → List String} {l : List α} (h : ∀ a ∈ l, r.HasColumns id (names a)) :
    r.HasColumns id (l.flatMap names) := by
  induction l with
  | nil => exact hid.hasColumns_nil
  | cons a l ih =>
    rw [List.forall_mem_cons] at h
    exact hasColumns_append h.1 (ih h.2)

/-- The entities of a chain are the entity it starts from and superclasses of it. -/
theorem ancestor_of_mem_chainWithin {r : Registry} {bound : Nat} {name : String} {e : Entity}
    (h : e ∈ r.chainWithin bound name) : r.Ancestor name e := by
  induction bound generalizing name with
  | zero => cases h
  | succ bound ih =>
    rw [chainWithin] at h
    split at h
    · cases h
    · next first hname =>
      rcases List.mem_cons.mp h with rfl | hrest
      · exact .self hname
      · split at hrest
        · cases hrest
        · next s hs => exact .superclass hname hs (ih hrest)

/-- The ancestors of an entity are registered. -/
theorem Ancestor.registered {r : Registry} {name : String} {e : Entity} (h : r.Ancestor name e) :
    ∃ name', r.entity? name' = some e := by
  induction h with
  | self h => exact ⟨_, h⟩
  | superclass _ _ _ ih => exact ih

/-- What has ancestors is registered itself. -/
theorem Ancestor.hasEntity {r : Registry} {name : String} {e : Entity} (h : r.Ancestor name e) :
    r.hasEntity name = true := by
  cases h with
  | self h => exact hasEntity_iff_exists.mpr ⟨_, h⟩
  | superclass h => exact hasEntity_iff_exists.mpr ⟨_, h⟩

/-- The identifier of a hierarchy is stored by an entity or by a superclass. -/
theorem stored_of_identifierValue? {r : Registry} {name : String} {v : Value}
    (h : r.identifierValue? name = some v) : ∃ e, r.Ancestor name e ∧ v ∈ e.values := by
  obtain ⟨data, hdata, hvalue⟩ := Option.bind_eq_some_iff.mp h
  obtain ⟨e, hroot, he⟩ := Option.bind_eq_some_iff.mp hdata
  have hlast := (Option.filter_eq_some_iff.mp hroot).1
  refine ⟨e, ancestor_of_mem_chainWithin (List.mem_of_getLast? hlast),
    Entity.mem_values.mpr (.inr (.inr ?_))⟩
  rw [Entity.values_of_root? he, RootData.values, hvalue]
  simp

/-- A property that is referred to is made of parts of a value of an entity or of a superclass,
and its path leads to it from there. -/
theorem stored_of_referencedProperty? {r : Registry} {entity path : String} {p : Property}
    (h : r.referencedProperty? entity path = some p) :
    ∃ e, r.Ancestor entity e ∧ (∃ v ∈ e.values, p.value.parts ⊆ v.parts) ∧
      ((pathSteps path).1 :: (pathSteps path).2, p.value.columnNames) ∈ e.spans := by
  unfold Registry.referencedProperty? at h
  obtain ⟨q, hq, hbelow⟩ := Option.bind_eq_some_iff.mp h
  obtain ⟨e, he, hfound⟩ := List.exists_of_findSome?_eq_some hq
  have hancestor := ancestor_of_mem_chainWithin he
  refine ⟨e, hancestor, ⟨q.value, Entity.mem_values_of_referableProperty? hfound,
    Property.parts_subset_of_below? hbelow⟩, ?_⟩
  have hspan := Property.mem_spans_of_below? hbelow
  rw [Entity.name_of_referableProperty? hfound] at hspan
  exact Entity.spans_subset_of_referableProperty? hfound hspan

end Registry

/-! ## Grounded values -/

section

variable (S : Source) (r : Registry)

/-- A simple value has the columns and the foreign key that an element describes. -/
def SimpleValue.DescribedBy (v : SimpleValue) (naming : NamingStrategy) (node : Element) : Prop :=
  (v.hasFormula = false → node.Names naming v.columnNames) ∧
    ∀ name, v.foreignKeyName = some name → node.attribute? "foreign-key" = some name

/-- A simple value is in a table that has its columns, and is described by an element with some
property. -/
def SimpleValue.GroundedBy (v : SimpleValue) (P : Element → Prop) : Prop :=
  (∃ id, v.table = some id ∧ r.HasColumns id v.columnNames) ∧
    ∃ node, S.Has node ∧ P node ∧ v.DescribedBy S.naming node

/-- A simple value is in a table that has its columns, and is described by an element. -/
def SimpleValue.Grounded (v : SimpleValue) : Prop := v.GroundedBy S r fun _ => True

/-- A simple value is grounded, and the element that describes it refers to a property, or to an
identifier. -/
def SimpleValue.GroundedTo (v : SimpleValue) (property : Option String) : Prop :=
  v.GroundedBy S r fun node => node.referredProperty? = property

/-- An association is stored like a simple value, refers to what its element says, and has columns
or a formula. -/
structure ManyToOne.Grounded (v : ManyToOne) : Prop where
  base : v.base.GroundedTo S r v.toOne.referencedProperty
  nonempty : v.base.selectables ≠ []

/-- The name of an association's foreign key is taken in its table, if it is to have one. -/
def ManyToOne.Secured (v : ManyToOne) : Prop :=
  v.toOne.referencedProperty = none → v.toOne.referencedEntity.isSome →
    v.base.hasFormula = false → v.base.foreignKeyName ≠ some "none" →
    ∃ id t, v.base.table = some id ∧ r.table? id = some t ∧
      t.foreignKeyName v.base.foreignKeyName v.base.columnNames ∈ t.foreignKeys.keys

/-- So is that of a constrained one-to-one, which may have no columns. -/
def OneToOne.Secured (v : OneToOne) : Prop :=
  v.constrained = true → v.toOne.referencedProperty = none → v.toOne.referencedEntity.isSome →
    v.base.hasFormula = false → v.base.foreignKeyName ≠ some "none" → v.base.columnNames ≠ [] →
    ∃ id t, v.base.table = some id ∧ r.table? id = some t ∧
      t.foreignKeyName v.base.foreignKeyName v.base.columnNames ∈ t.foreignKeys.keys

/-- A value that is an association is secured. -/
def Value.Secured : Value → Prop
  | .manyToOne v => v.Secured r
  | .oneToOne v => v.Secured r
  | .any _ | .collection _ | .component _ | .dependant _ _ _ _ | .oneToMany _ | .simple _ => True

/-- A value is grounded, apart from the values inside it. -/
def Value.Rooted : Value → Prop
  | .simple v => v.Grounded S r
  | .dependant base _ _ _ => base.GroundedTo S r none
  | .manyToOne v => v.Grounded S r
  | .oneToOne v => v.base.GroundedTo S r v.toOne.referencedProperty
  | .any v => v.base.Grounded S r
  | .component c =>
    (∃ id, c.table = some id ∧ r.Holds id) ∧ ∀ p ∈ c.properties, p.value.Secured r
  | .oneToMany v => ∀ id, v.associatedTable = some id → r.Holds id
  | .collection _ => True

/-- A value and all values inside it are grounded. -/
def Value.Grounded (v : Value) : Prop := ∀ part ∈ v.parts, part.Rooted S r

/-- The value of a property is grounded and secured. -/
def Property.Grounded (p : Property) : Prop := p.value.Grounded S r ∧ p.value.Secured r

/-- The table of a join exists, and what the join stores is grounded. -/
structure Join.Grounded (j : Join) : Prop where
  table : r.Holds j.table
  key : ∀ v, j.key = some v → v.Grounded S r
  properties : ∀ p ∈ j.properties, p.Grounded S r

/-- The table of an entity exists, and what the entity stores is grounded. -/
structure Entity.Grounded (e : Entity) : Prop where
  table : r.Holds e.table
  properties : ∀ p ∈ e.properties, p.Grounded S r
  joins : ∀ j ∈ e.joins, j.Grounded S r
  kind : ∀ v ∈ e.kind.values, v.Grounded S r

/-- The table of a collection exists, and is known unless its elements hold the key; what it
stores is grounded.  Its key and its index are besides secured, because they may be shown as
properties of its elements. -/
structure Collection.Grounded (c : Collection) : Prop where
  table : ∀ id, c.table = some id → r.Holds id
  located : c.table = none → c.isOneToMany = true
  values : ∀ v ∈ c.values, v.Grounded S r
  shown : ∀ v, c.key = some v ∨ c.index = some v → v.Secured r

/-! ## Grounded tables -/

/-- A foreign key has the columns and the name that an element describes. -/
def ForeignKey.MadeFor (k : ForeignKey) (naming : NamingStrategy) (table : String)
    (node : Element) : Prop :=
  node.Names naming k.columns ∧
    (k.name = constraintName "FK" table k.columns ∨ node.attribute? "foreign-key" = some k.name)

/-- A foreign key references what an element refers to.  No columns stand for the identifier of the
referenced entity; if the element refers to a property, which is one of that entity or of a
superclass, they are exactly the columns of the property, none if it has none. -/
structure ForeignKey.References (k : ForeignKey) (node : Element) : Prop where
  identifier : node.referredProperty? = none → k.referencedColumns = []
  property : ∀ path, node.referredProperty? = some path →
    ∃ e, r.Ancestor k.referencedEntity e ∧
      ((pathSteps path).1 :: (pathSteps path).2, k.referencedColumns) ∈ e.spans

/-- A foreign key is on columns of its table and was made for an element, and it references what the
element refers to. -/
structure ForeignKey.Grounded (table : String) (columns : List String) (k : ForeignKey) :
    Prop where
  columns : k.columns ⊆ columns
  nonempty : k.columns ≠ []
  element : ∃ node, S.Has node ∧ k.MadeFor S.naming table node ∧ k.References r node

/-- The unique key of natural identifiers on a table of a key may have a column: there is an entity
in that table with the column in its natural identifier, or else an element names this unique key
for columns of its own. -/
def MayIdentify (key : TableKey) (column : String) : Prop :=
  S.NamesUniqueKey naturalIdKey ∨
    ∃ id t, r.table? id = some t ∧ t.key = key ∧ r.HasNaturalColumn id column

/-- The columns of a table are stored under their own names, and its constraints are on its own
columns.  The one exception are unique keys, and only if a component inside a join or a collection
is marked as unique.  The unique key of natural identifiers has no columns but theirs. -/
structure Table.Grounded (t : Table) : Prop where
  named : ∀ name c, t.columns.get? name = some c → c.name = name
  primaryKey : ∀ columns, t.primaryKey = some columns → columns ⊆ t.columns.keys
  indexes : ∀ i ∈ t.indexes.values, i.columns ⊆ t.columns.keys ∧ i.columns.Nodup
  uniqueKeys : ∀ k ∈ t.uniqueKeys.values,
    (S.UniqueInside ∨ k.columns ⊆ t.columns.keys) ∧ k.columns.Nodup
  naturalKey : ∀ k, t.uniqueKeys.get? naturalIdKey = some k →
    ∀ column ∈ k.columns, MayIdentify S r t.key column
  foreignKeys : ∀ name k, t.foreignKeys.get? name = some k →
    k.name = name ∧ k.Grounded S r t.name t.columns.keys
  denormalizedParent : ∀ id, t.denormalizedParent = some id → r.Holds id

/-! ## Grounded registries -/

/-- The columns of a foreign key that is put off are in its table, and an element describes
them. -/
structure PropertyRefPass.Grounded (pass : PropertyRefPass) : Prop where
  columns : ∃ id, pass.table = some id ∧ r.HasColumns id pass.columns
  element : ∃ node, S.Has node ∧
    (pass.hasFormula = false → pass.columns ≠ [] ∧ node.Names S.naming pass.columns) ∧
    (∀ name, pass.foreignKeyName = some name → node.attribute? "foreign-key" = some name) ∧
    node.referredProperty? = some pass.referencedProperty

/-- A deferred pass binds an element of the source, or is a grounded foreign key. -/
def DeferredPass.Grounded : DeferredPass → Prop
  | contents _ pass => S.Has pass.node ∧ pass.node.OpensTable
  | propertyRef pass => pass.Grounded S r

/-- Everything that is stored in a registry is grounded. -/
structure Registry.Grounded : Prop where
  naming : r.naming = S.naming
  keyed : r.TablesKeyed
  named : r.StoredByName
  tables : ∀ id t, r.table? id = some t → t.Grounded S r
  entities : ∀ name e, r.entity? name = some e → e.Grounded S r
  collections : ∀ role c, r.collection? role = some c → c.Grounded S r
  passes : ∀ pass ∈ r.passes, pass.Grounded S r
  waiting : ∀ pending ∈ r.waiting, S.documents pending.document

end

/-! ## Growth keeps what is grounded -/

section

variable {S : Source} {r r' : Registry} (h : r.IncludedIn r')
include h

/-- A value that is grounded by an element stays so. -/
theorem SimpleValue.GroundedBy.mono {v : SimpleValue} {P : Element → Prop}
    (hv : v.GroundedBy S r P) : v.GroundedBy S r' P := by
  obtain ⟨⟨id, htable, hcolumns⟩, hnode⟩ := hv
  exact ⟨⟨id, htable, hcolumns.mono h⟩, hnode⟩

/-- An association keeps its columns and what it refers to. -/
theorem ManyToOne.Grounded.mono {v : ManyToOne} (hv : v.Grounded S r) : v.Grounded S r' where
  base := SimpleValue.GroundedBy.mono h hv.base
  nonempty := hv.nonempty

/-- The name of a foreign key stays taken. -/
theorem Value.Secured.mono {v : Value} (hv : v.Secured r) : v.Secured r' := by
  have htaken : ∀ base : SimpleValue,
      (∃ id t, base.table = some id ∧ r.table? id = some t ∧
        t.foreignKeyName base.foreignKeyName base.columnNames ∈ t.foreignKeys.keys) →
      ∃ id t, base.table = some id ∧ r'.table? id = some t ∧
        t.foreignKeyName base.foreignKeyName base.columnNames ∈ t.foreignKeys.keys := by
    rintro base ⟨id, t, htable, ht, hin⟩
    obtain ⟨t', ht', hincluded⟩ := h.tables ht
    refine ⟨id, t', htable, ht', hincluded.foreignKeys ?_⟩
    rwa [Table.foreignKeyName, Table.name, hincluded.key]
  cases v with
  | manyToOne m =>
    exact fun hproperty hentity hformula hname =>
      htaken m.base (hv hproperty hentity hformula hname)
  | oneToOne o =>
    exact fun hconstrained hproperty hentity hformula hname hcolumns =>
      htaken o.base (hv hconstrained hproperty hentity hformula hname hcolumns)
  | any | collection | component | dependant | oneToMany | simple => trivial

/-- A value stays grounded, apart from the values inside it. -/
theorem Value.Rooted.mono {v : Value} (hv : v.Rooted S r) : v.Rooted S r' := by
  cases v with
  | component c =>
    obtain ⟨⟨id, htable, hid⟩, hmembers⟩ := hv
    exact ⟨⟨id, htable, hid.mono h⟩, fun p hp => (hmembers p hp).mono h⟩
  | oneToMany v => exact fun id hid => (hv id hid).mono h
  | collection role => trivial
  | manyToOne v => exact ManyToOne.Grounded.mono h hv
  | any | dependant | oneToOne | simple => exact SimpleValue.GroundedBy.mono h hv

/-- It stays grounded with these. -/
theorem Value.Grounded.mono {v : Value} (hv : v.Grounded S r) : v.Grounded S r' :=
  fun part hpart => (hv part hpart).mono h

theorem Property.Grounded.mono {p : Property} (hp : p.Grounded S r) : p.Grounded S r' :=
  ⟨hp.1.mono h, hp.2.mono h⟩

theorem Join.Grounded.mono {j : Join} (hj : j.Grounded S r) : j.Grounded S r' where
  table := hj.table.mono h
  key v hv := (hj.key v hv).mono h
  properties p hp := (hj.properties p hp).mono h

/-- What an entity stores stays grounded. -/
theorem Entity.Grounded.mono {e : Entity} (he : e.Grounded S r) : e.Grounded S r' where
  table := he.table.mono h
  properties p hp := (he.properties p hp).mono h
  joins j hj := (he.joins j hj).mono h
  kind v hv := (he.kind v hv).mono h

/-- So does what a collection stores. -/
theorem Collection.Grounded.mono {c : Collection} (hc : c.Grounded S r) : c.Grounded S r' where
  table id hid := (hc.table id hid).mono h
  located := hc.located
  values v hv := (hc.values v hv).mono h
  shown v hv := (hc.shown v hv).mono h

/-- A foreign key references the same columns if the referenced entity grows. -/
theorem ForeignKey.Grounded.mono {table : String} {columns : List String} {k : ForeignKey}
    (hk : k.Grounded S r table columns) : k.Grounded S r' table columns where
  columns := hk.columns
  nonempty := hk.nonempty
  element := by
    obtain ⟨node, hnode, hmade, hreferences⟩ := hk.element
    refine ⟨node, hnode, hmade, hreferences.identifier, fun path hpath => ?_⟩
    obtain ⟨e, he, hspan⟩ := hreferences.property path hpath
    obtain ⟨e', he', hincluded⟩ := he.mono h
    exact ⟨e', he', hincluded.spans hspan⟩

/-- A column that the unique key of natural identifiers may have is one that it may have later. -/
theorem MayIdentify.mono {key : TableKey} {column : String} (hcolumn : MayIdentify S r key column) :
    MayIdentify S r' key column := by
  refine hcolumn.imp id fun ⟨id, t, ht, hkey, hnatural⟩ => ?_
  obtain ⟨t', ht', hincluded⟩ := h.tables ht
  exact ⟨id, t', ht', hincluded.key.trans hkey, hnatural.mono h⟩

/-- The constraints of a table stay grounded if the rest of the registry grows. -/
theorem Table.Grounded.mono {t : Table} (ht : t.Grounded S r) : t.Grounded S r' where
  named := ht.named
  primaryKey := ht.primaryKey
  indexes := ht.indexes
  uniqueKeys := ht.uniqueKeys
  naturalKey k hk column hcolumn := (ht.naturalKey k hk column hcolumn).mono h
  foreignKeys name k hk := ⟨(ht.foreignKeys name k hk).1, (ht.foreignKeys name k hk).2.mono h⟩
  denormalizedParent id hid := (ht.denormalizedParent id hid).mono h

/-- A pass that is put off stays grounded. -/
theorem DeferredPass.Grounded.mono {pass : DeferredPass} (hpass : pass.Grounded S r) :
    pass.Grounded S r' := by
  cases pass with
  | contents kind pass => exact hpass
  | propertyRef pass =>
    obtain ⟨id, htable, hcolumns⟩ := hpass.columns
    exact ⟨⟨id, htable, hcolumns.mono h⟩, hpass.element⟩

end

/-! ## Building grounded values -/

section

variable {S : Source} {r : Registry}

/-- A component is grounded if its table exists and its members are grounded. -/
theorem Value.grounded_component_iff {c : Component} : (Value.component c).Grounded S r ↔
    (∃ id, c.table = some id ∧ r.Holds id) ∧ ∀ p ∈ c.properties, p.Grounded S r := by
  simp only [Value.Grounded, Value.parts_component, List.forall_mem_cons, List.forall_mem_flatMap,
    Property.Grounded]
  constructor
  · rintro ⟨⟨htable, hsecured⟩, hparts⟩
    exact ⟨htable, fun p hp => ⟨hparts p hp, hsecured p hp⟩⟩
  · rintro ⟨htable, hmembers⟩
    exact ⟨⟨htable, fun p hp => (hmembers p hp).2⟩, fun p hp => (hmembers p hp).1⟩

/-- A dependent key is grounded if its columns are, and what it refers to. -/
theorem Value.grounded_dependant {base : SimpleValue} {wrapped : Value}
    (hbase : base.GroundedTo S r none) (hwrapped : wrapped.Grounded S r)
    (nullable updatable : Bool) :
    (Value.dependant base wrapped nullable updatable).Grounded S r := by
  intro part hpart
  rw [Value.parts] at hpart
  rcases List.mem_cons.mp hpart with rfl | hinner
  · exact hbase
  · exact hwrapped part hinner

/-- A value that holds no other is grounded if it is so apart from the values inside it. -/
theorem Value.grounded_of_rooted {v : Value} (hparts : v.parts = [v]) (h : v.Rooted S r) :
    v.Grounded S r := by
  intro part hpart
  rw [hparts, List.mem_singleton] at hpart
  exact hpart ▸ h

/-- What the element of a grounded value is like may be forgotten. -/
theorem SimpleValue.GroundedBy.grounded {v : SimpleValue} {P : Element → Prop}
    (h : v.GroundedBy S r P) : v.Grounded S r := by
  obtain ⟨htable, node, hnode, -, hdescribed⟩ := h
  exact ⟨htable, node, hnode, trivial, hdescribed⟩

/-- A simple value is a grounded value if it is grounded by any element. -/
theorem Value.grounded_simple {v : SimpleValue} {P : Element → Prop} (h : v.GroundedBy S r P) :
    (Value.simple v).Grounded S r := Value.grounded_of_rooted rfl h.grounded

/-- The core of a dependent key is grounded by a key. -/
theorem Value.Grounded.base {base : SimpleValue} {wrapped : Value} {nullable updatable : Bool}
    (h : (Value.dependant base wrapped nullable updatable).Grounded S r) :
    base.GroundedTo S r none :=
  h _ (Value.mem_parts_self _)

end

end ObjectMapping
