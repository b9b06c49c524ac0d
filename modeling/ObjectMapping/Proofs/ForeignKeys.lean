import ObjectMapping.Proofs.Coherence

/-!
# Foreign keys

A table keeps its foreign keys by their names, and a later one takes the place of an earlier one
of its name.  So an association keeps the name of its foreign key, but not always the foreign key
itself: what is found under the name may have been made for another element.  If the name is
generated, it is derived from the columns alone, and what is found has the columns of the
association while its target may be another one.

Nothing compares the columns of a foreign key with those that it references.  Each side is what
the mapping says of it: the columns are those of the element that the foreign key was made for, and
the referenced columns are exactly those of the property that the element refers to, or none where
it refers to an identifier.  A property that is a formula has no columns, so what references it
cannot be told from a reference to the identifier.
-/

namespace ObjectMapping

open Binding Registry

/-! ## Associations -/

/-- The many-to-one that a value is. -/
def Value.manyToOne? : Value → Option ManyToOne
  | .manyToOne v => some v
  | .any _ | .collection _ | .component _ | .dependant _ _ _ _ | .oneToMany _ | .oneToOne _
  | .simple _ => none

namespace Registry

/-- The properties that are declared by entities, joins included, and by components. -/
def declaredProperties (r : Registry) : List Property :=
  r.entities.values.flatMap Entity.allProperties
    ++ (r.parts.filterMap Value.component?).flatMap Component.properties

/-- The many-to-ones of declared properties. -/
def associations (r : Registry) : List ManyToOne :=
  r.declaredProperties.filterMap fun p => p.value.manyToOne?

/-- The columns of foreign keys and of associations, with the names of their tables. -/
def constrainedColumns (r : Registry) : List (String × List String) :=
  (r.tables.values.flatMap fun t => t.foreignKeys.values.map fun k => (t.name, k.columns))
    ++ r.associations.filterMap fun v =>
      (v.base.table.bind r.table?).map fun t => (t.name, v.base.columnNames)

/-- No two lists of columns that are constrained get the same generated name. -/
def NamesApart (r : Registry) : Prop :=
  ∀ a ∈ r.constrainedColumns, ∀ b ∈ r.constrainedColumns,
    constraintName "FK" a.1 a.2 = constraintName "FK" b.1 b.2 → a = b

instance (r : Registry) : Decidable r.NamesApart := by
  unfold NamesApart
  infer_instance

end Registry

/-- An association asks for a foreign key to an entity: that is its target, it refers to the
identifier and has no formula, and the mapping does not say that there is to be none. -/
def ManyToOne.AsksFor (v : ManyToOne) (target : String) : Prop :=
  v.toOne.referencedEntity = some target ∧ v.toOne.referencedProperty = none ∧
    v.base.hasFormula = false ∧ v.base.foreignKeyName ≠ some "none"

instance (v : ManyToOne) (target : String) : Decidable (v.AsksFor target) := by
  unfold ManyToOne.AsksFor
  infer_instance

section

variable {S : Source} {r : Registry}

/-- The value of a declared property is secured. -/
theorem Registry.Grounded.secured_of_declared (hr : r.Grounded S) {p : Property}
    (hp : p ∈ r.declaredProperties) : p.value.Secured r := by
  rcases List.mem_append.mp hp with hentity | hcomponent
  · obtain ⟨e, he, hp⟩ := List.mem_flatMap.mp hentity
    have hgrounded := hr.entity_of_mem he
    rcases List.mem_append.mp hp with hown | hjoined
    · exact (hgrounded.properties p hown).2
    · obtain ⟨j, hj, hp⟩ := List.mem_flatMap.mp hjoined
      exact ((hgrounded.joins j hj).properties p hp).2
  · obtain ⟨c, hc, hp⟩ := List.mem_flatMap.mp hcomponent
    obtain ⟨v, hv, hvc⟩ := List.mem_filterMap.mp hc
    have hrooted := hr.part_of_mem hv
    cases v with
    | component => cases hvc; exact hrooted.2 p hp
    | any | collection | dependant | manyToOne | oneToMany | oneToOne | simple => cases hvc

/-- The foreign key of an association that asks for one has a name that is taken in its table. -/
theorem Registry.Grounded.name_taken (hr : r.Grounded S) {v : ManyToOne}
    (hv : v ∈ r.associations) {target : String} (hasks : v.AsksFor target) :
    ∃ id t k, v.base.table = some id ∧ r.table? id = some t ∧
      t.foreignKeys.get? (t.foreignKeyName v.base.foreignKeyName v.base.columnNames) = some k := by
  obtain ⟨p, hp, hvalue⟩ := List.mem_filterMap.mp hv
  have hsecured := hr.secured_of_declared hp
  obtain ⟨htarget, hproperty, hformula, hwanted⟩ := hasks
  have hmanyToOne : p.value = .manyToOne v := by
    cases hpv : p.value <;> simp_all [Value.manyToOne?]
  rw [hmanyToOne] at hsecured
  have hsome : v.toOne.referencedEntity.isSome := by
    rw [htarget]
    rfl
  obtain ⟨id, t, htable, ht, htaken⟩ := hsecured hproperty hsome hformula hwanted
  obtain ⟨k, hk⟩ := KeyedList.mem_keys_iff.mp htaken
  exact ⟨id, t, k, htable, ht, hk⟩

/-- A foreign key under a generated name has the columns that the name is generated from, if
names are apart and no element gives this name to another one. -/
theorem Registry.NamesApart.columns (h : r.NamesApart) {v : ManyToOne} (hv : v ∈ r.associations)
    {id : TableId} {t : Table} {k : ForeignKey} (htable : v.base.table = some id)
    (ht : r.table? id = some t) (hk : k ∈ t.foreignKeys.values)
    (hname : constraintName "FK" t.name k.columns
      = constraintName "FK" t.name v.base.columnNames) : k.columns = v.base.columnNames := by
  have hkey : (t.name, k.columns) ∈ r.constrainedColumns := by
    refine List.mem_append_left _ (List.mem_flatMap.mpr ⟨t, ?_, List.mem_map.mpr ⟨k, hk, rfl⟩⟩)
    exact KeyedList.mem_values_iff_getIdx?.mpr ⟨id.index, ht⟩
  have hassociation : (t.name, v.base.columnNames) ∈ r.constrainedColumns := by
    refine List.mem_append_right _ (List.mem_filterMap.mpr ⟨v, hv, ?_⟩)
    rw [htable, Option.bind_some, ht]
    rfl
  exact congrArg Prod.snd (h _ hkey _ hassociation hname)

end

/-- What an association finds under the name of its foreign key: a foreign key in its table that
was made for an element of the source.  If the name is generated, and no element gives the same
name to a foreign key of its own, the foreign key has the columns of the association. -/
def ManyToOne.FindsForeignKey (S : Source) (r : Registry) (v : ManyToOne) : Prop :=
  ∃ id t k, v.base.table = some id ∧ r.table? id = some t ∧
    t.foreignKeys.get? (t.foreignKeyName v.base.foreignKeyName v.base.columnNames) = some k ∧
    (∃ node, S.Has node ∧ k.MadeFor S.naming t.name node) ∧
    (v.base.foreignKeyName = none → r.NamesApart →
      (∀ node, S.Has node → node.attribute? "foreign-key" ≠ some k.name) →
      k.columns = v.base.columnNames)

namespace Session

/-- Every association that asks for a foreign key finds one under the name of its own. -/
theorem associations_constrained {options : RegistryOptions} {documents : Document → Prop}
    {r : Registry} (h : Driven options documents r) {v : ManyToOne} (hv : v ∈ r.associations)
    {target : String} (hasks : v.AsksFor target) :
    v.FindsForeignKey (sourceOf options documents) r := by
  have hr := h.grounded
  obtain ⟨id, t, k, htable, ht, hk⟩ := hr.name_taken hv hasks
  obtain ⟨hname, hgrounded⟩ := (hr.tables id t ht).foreignKeys _ k hk
  obtain ⟨node, hnode, hmade, -⟩ := hgrounded.element
  refine ⟨id, t, k, htable, ht, hk, ⟨node, hnode, hmade⟩, fun hgenerated hapart hunnamed => ?_⟩
  have hkname := hmade.2.resolve_right (hunnamed node hnode)
  rw [hname, Table.foreignKeyName, hgenerated, Option.getD_none] at hkname
  exact hapart.columns hv htable ht (KeyedList.mem_values_iff.mpr ⟨_, hk⟩) hkname.symm

/-- The buyer of an order has a foreign key on its own column. -/
theorem associations_constrained_orderBook :
    Driven {} (Arrives [⟨orderBook, .empty⟩]) builtOrderBook ∧ builtOrderBook.NamesApart ∧
      ∃ v ∈ builtOrderBook.associations, v.AsksFor "Person" ∧
        v.base.columnNames = ["buyer_id"] ∧ v.base.foreignKeyName = none ∧
        v.FindsForeignKey (sourceOf {} (Arrives [⟨orderBook, .empty⟩])) builtOrderBook := by
  have hdriven := built_orderBook.driven
  obtain ⟨v, hv, hasks, hcolumns, hgenerated⟩ : ∃ v ∈ builtOrderBook.associations,
      v.AsksFor "Person" ∧ v.base.columnNames = ["buyer_id"] ∧ v.base.foreignKeyName = none := by
    decide +kernel
  exact ⟨hdriven, by decide +kernel, v, hv, hasks, hcolumns, hgenerated,
    associations_constrained hdriven hv hasks⟩

/-- An order with a buyer and a seller whose keys are in the same column. -/
def sharedColumn : Document := documentOf [
  identifiedClass "Person" [],
  identifiedClass "Company" [],
  identifiedClass "Order" [
    { name := "many-to-one"
      attributes := .ofList [("name", "buyer"), ("class", "Person"), ("column", "partner_id")] },
    { name := "many-to-one"
      attributes := .ofList [("name", "seller"), ("class", "Company"), ("column", "partner_id")] }]]

/-- The foreign key of an association may be lost in a build: that of the buyer is displaced by
that of the seller, which has the same columns and so the same generated name. -/
theorem association_displaced : ¬ ∀ (options : RegistryOptions) (arrivals : List Arrival)
    (r : Registry), Built options arrivals r → r.NamesApart →
      ∀ v ∈ r.associations, ∀ target, v.AsksFor target →
        ∃ id t, v.base.table = some id ∧ r.table? id = some t ∧
          ∃ k ∈ t.foreignKeys.values, k.columns = v.base.columnNames ∧
            k.referencedEntity = target := by
  intro hclaim
  have hbuilt : Built {} [⟨sharedColumn, .empty⟩] _ :=
    built_of_succeeds (by decide +kernel) (by decide +kernel)
  set r := finish.after ((addAll [⟨sharedColumn, .empty⟩]).after { options := {} }) with hr
  obtain ⟨v, hv, hasks⟩ : ∃ v ∈ r.associations, v.AsksFor "Person" := by decide +kernel
  have hapart : r.NamesApart := by decide +kernel
  obtain ⟨id, t, -, ht, k, hk, -, htarget⟩ :=
    hclaim {} _ r hbuilt hapart v hv "Person" hasks
  -- No table has a foreign key to persons.
  have hnone : ∀ t ∈ r.tables.values, ∀ k ∈ t.foreignKeys.values,
      k.referencedEntity ≠ "Person" := by
    decide +kernel
  exact hnone t (KeyedList.mem_values_iff_getIdx?.mpr ⟨id.index, ht⟩) k hk htarget

end Session

/-! ## Arity -/

/-- A foreign key is as an element describes it.  It has as many columns as the element describes,
and it references what the element refers to: the identifier, for which no columns are listed, or
exactly the columns of a property.  So it lists none for a property only if that has none. -/
structure ForeignKey.AsDescribed (naming : NamingStrategy) (r : Registry) (table : String)
    (k : ForeignKey) (node : Element) : Prop where
  made : k.MadeFor naming table node
  length : k.columns.length = node.columnCount naming
  references : k.References r node

namespace Session

/-- Every foreign key of every table is as an element of the documents describes it. -/
theorem foreignKeys_as_described {options : RegistryOptions} {documents : Document → Prop}
    {r : Registry} (h : Driven options documents r) {t : Table} (ht : t ∈ r.tables.values)
    {k : ForeignKey} (hk : k ∈ t.foreignKeys.values) :
    ∃ node, (sourceOf options documents).Has node ∧
      k.AsDescribed (sourceOf options documents).naming r t.name node := by
  obtain ⟨name, hname⟩ := KeyedList.mem_values_iff.mp hk
  have hgrounded := ((h.grounded.table_of_mem ht).foreignKeys name k hname).2
  obtain ⟨node, hnode, hmade, hreferences⟩ := hgrounded.element
  exact ⟨node, hnode, hmade, hmade.1.length hgrounded.nonempty, hreferences⟩

/-- The reference of a tenant to the label of a flat. -/
def labelReference : Element where
  name := "many-to-one"
  attributes := .ofList [("name", "label"), ("class", "Flat"), ("column", "label"),
    ("property-ref", "label")]

/-- The class of tenants, who refer to a flat by one column, and to the code, the position and the
label of a flat by one column each. -/
def tenantClass : Element := identifiedClass "Tenant" [
  { name := "many-to-one"
    attributes := .ofList [("name", "flat"), ("class", "Flat"), ("column", "flat_id")] },
  { name := "many-to-one"
    attributes := .ofList [("name", "letterbox"), ("class", "Flat"), ("column", "letterbox"),
      ("property-ref", "code")] },
  { name := "many-to-one"
    attributes := .ofList [("name", "position"), ("class", "Flat"), ("column", "position"),
      ("property-ref", "position")] },
  labelReference]

/-- Flats, which are identified by street and number and have a code, a position of two columns and
a label that is made of the code, and their tenants. -/
def flatBook : Document := documentOf [
  { name := "class"
    attributes := .ofList [("name", "Flat")]
    children := [
      { name := "composite-id"
        children := [namedElement "key-property" "street" [],
          namedElement "key-property" "number" []] },
      namedElement "property" "code" [],
      namedElement "component" "position" [
        namedElement "property" "floor" [], namedElement "property" "door" []],
      { name := "property"
        attributes := .ofList [("name", "label"), ("formula", "upper(code)")] }] },
  tenantClass]

/-- The flat book as it is built. -/
def builtFlatBook : Registry :=
  finish.after ((addAll [⟨flatBook, .empty⟩]).after { options := {} })

/-- The flat book is built without an error. -/
theorem built_flatBook : Built {} [⟨flatBook, .empty⟩] builtFlatBook :=
  built_of_succeeds (by decide +kernel) (by decide +kernel)

/-- The foreign key of the letterbox references the code of flats. -/
theorem foreignKeys_as_described_flatBook :
    Driven {} (Arrives [⟨flatBook, .empty⟩]) builtFlatBook ∧
      ∃ t ∈ builtFlatBook.tables.values, ∃ k ∈ t.foreignKeys.values,
        k.columns = ["letterbox"] ∧ k.referencedColumns = ["code"] ∧
        ∃ node, (sourceOf {} (Arrives [⟨flatBook, .empty⟩])).Has node ∧
          k.AsDescribed (sourceOf {} (Arrives [⟨flatBook, .empty⟩])).naming builtFlatBook t.name
            node := by
  have hdriven := built_flatBook.driven
  obtain ⟨t, ht, k, hk, hcolumns, hreferenced⟩ : ∃ t ∈ builtFlatBook.tables.values,
      ∃ k ∈ t.foreignKeys.values, k.columns = ["letterbox"] ∧ k.referencedColumns = ["code"] := by
    decide +kernel
  exact ⟨hdriven, t, ht, k, hk, hcolumns, hreferenced, foreignKeys_as_described hdriven ht hk⟩

/-- The label of a flat has no columns, and the foreign key of the reference to it lists none. -/
theorem labelReference_described : ∃ t ∈ builtFlatBook.tables.values, ∃ k ∈ t.foreignKeys.values,
    k.AsDescribed (sourceOf {} (Arrives [⟨flatBook, .empty⟩])).naming builtFlatBook t.name
      labelReference ∧ k.referencedColumns = [] := by
  obtain ⟨t, ht, k, hk, hcolumns, hname, hreferenced, hentity⟩ :
      ∃ t ∈ builtFlatBook.tables.values, ∃ k ∈ t.foreignKeys.values, k.columns = ["label"] ∧
        k.name = constraintName "FK" t.name k.columns ∧ k.referencedColumns = [] ∧
        k.referencedEntity = "Flat" := by
    decide +kernel
  have hlabel : (builtFlatBook.entity? "Flat").any fun e => (["label"], []) ∈ e.spans := by
    decide +kernel
  obtain ⟨e, he, hspan⟩ := (Option.any_eq_true _ _).mp hlabel
  refine ⟨t, ht, k, hk, ⟨⟨.inl ?_, .inl hname⟩, ?_, fun hnone => ?_, fun path hpath => ?_⟩,
    hreferenced⟩
  · rw [hcolumns]
    decide +kernel
  · rw [hcolumns]
    decide +kernel
  · cases hnone
  · cases hpath
    refine ⟨e, hentity ▸ .self he, ?_⟩
    rw [hreferenced]
    exact of_decide_eq_true hspan

/-- A foreign key may have fewer columns than the property or the identifier that it references:
tenants refer to the position of a flat, and to a flat, by one column, while both have two.  And for
a property no columns may be listed, as if the foreign key were to the identifier: the label of a
flat has none. -/
theorem foreignKey_arity_unchecked :
    (¬ ∀ (options : RegistryOptions) (arrivals : List Arrival) (r : Registry),
      Built options arrivals r → ∀ t ∈ r.tables.values, ∀ k ∈ t.foreignKeys.values,
        k.referencedColumns ≠ [] → k.referencedColumns.length = k.columns.length) ∧
    (¬ ∀ (options : RegistryOptions) (arrivals : List Arrival) (r : Registry),
      Built options arrivals r → ∀ t ∈ r.tables.values, ∀ k ∈ t.foreignKeys.values,
        k.referencedColumns = [] → ∀ name v,
          r.resolveEntityName? k.referencedEntity = some name →
          r.identifierValue? name = some v → k.columns.length = v.columnNames.length) ∧
    ¬ ∀ (options : RegistryOptions) (arrivals : List Arrival) (r : Registry),
      Built options arrivals r → ∀ t ∈ r.tables.values, ∀ k ∈ t.foreignKeys.values,
        ∀ node, (sourceOf options (Arrives arrivals)).Has node →
          k.AsDescribed (sourceOf options (Arrives arrivals)).naming r t.name node →
          node.referredProperty? ≠ none → k.referencedColumns ≠ [] := by
  refine ⟨fun hclaim => ?_, fun hclaim => ?_, fun hclaim => ?_⟩
  · obtain ⟨t, ht, k, hk, hcolumns, hreferenced⟩ : ∃ t ∈ builtFlatBook.tables.values,
        ∃ k ∈ t.foreignKeys.values, k.columns = ["position"] ∧
          k.referencedColumns = ["floor", "door"] := by
      decide +kernel
    have hsame := hclaim {} _ builtFlatBook built_flatBook t ht k hk (by simp [hreferenced])
    rw [hcolumns, hreferenced] at hsame
    cases hsame
  · obtain ⟨t, ht, k, hk, hcolumns, hreferenced, hentity⟩ : ∃ t ∈ builtFlatBook.tables.values,
        ∃ k ∈ t.foreignKeys.values, k.columns = ["flat_id"] ∧ k.referencedColumns = [] ∧
          builtFlatBook.resolveEntityName? k.referencedEntity = some "Flat" := by
      decide +kernel
    have hidentifier : (builtFlatBook.identifierValue? "Flat").map Value.columnNames
        = some ["street", "number"] := by
      decide +kernel
    obtain ⟨v, hv, hnames⟩ := Option.map_eq_some_iff.mp hidentifier
    have hsame := hclaim {} _ builtFlatBook built_flatBook t ht k hk hreferenced "Flat" v hentity hv
    rw [hcolumns, hnames] at hsame
    cases hsame
  · obtain ⟨t, ht, k, hk, hdescribed, hreferenced⟩ := labelReference_described
    have hnode : (sourceOf {} (Arrives [⟨flatBook, .empty⟩])).Has labelReference := by
      have hbook : Arrives [⟨flatBook, .empty⟩] flatBook := ⟨_, List.mem_singleton_self _, rfl⟩
      have htenant := (Source.Has.root (S := sourceOf {} (Arrives [⟨flatBook, .empty⟩]))
        hbook).child (c := tenantClass) (.tail _ (.head _))
      exact htenant.child (by simp [tenantClass, identifiedClass])
    exact hclaim {} _ builtFlatBook built_flatBook t ht k hk labelReference hnode hdescribed nofun
      hreferenced

end Session

end ObjectMapping
