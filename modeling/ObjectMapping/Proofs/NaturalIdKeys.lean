import ObjectMapping.Proofs.Fulfilment
import ObjectMapping.Proofs.NaturalIdBinding
import ObjectMapping.Proofs.SessionGrounding

/-!
# Unique keys of natural identifiers

In a session in which nothing fails, the flagged properties of an entity are those in the groups of
its body, in their order, and no others; they are updated only if their group is mutable.  All of
their columns are in the unique key of natural identifiers on the table of the entity.  Nothing else
puts columns into that key, unless an element names it for a column of its own; so its columns are
exactly those of the natural identifiers in its table, and those of a group if the group is the only
one there.

There is one such key on a table, though, whatever the number of groups.  Two groups of a body, and
groups of entities that are stored in one table, share it, so that none of them is unique by itself.
-/

namespace ObjectMapping

open Binding Registry

/-- If natural identifiers are covered, the unique key on a table has the columns of those in the
table. -/
theorem Registry.NaturalIdsCovered.mem {r : Registry} (h : r.NaturalIdsCovered) {id : TableId}
    {t : Table} (ht : r.table? id = some t) {k : UniqueKey}
    (hk : t.uniqueKeys.get? naturalIdKey = some k) {column : String}
    (hcolumn : r.HasNaturalColumn id column) : column ∈ k.columns := by
  obtain ⟨name, e, he, rfl, hin⟩ := hcolumn
  obtain ⟨p, hp, hpart⟩ := List.mem_flatMap.mp hin
  have hnatural : r.naturalId? name = some e.naturalId := by rw [naturalId?, he, Option.map_some]
  obtain ⟨t', k', ht', hk', hcovered⟩ := h name _ hnatural p.naturalPart (List.mem_map_of_mem hp)
  cases ht.symm.trans ht'
  cases hk.symm.trans hk'
  exact hcovered hpart

/-- Natural identifiers are kept as the registry grows, and if the unique keys of tables cover all
of them, they still do. -/
structure Registry.KeepsNaturalIds (r r' : Registry) : Prop where
  upgrades : r.Upgrades r'
  kept : ∀ name k, r.naturalId? name = some k → r'.naturalId? name = some k
  covered : r.NaturalIdsCovered → r'.NaturalIdsCovered

namespace Registry.KeepsNaturalIds

variable {r r' r'' : Registry}

/-- What adds entities keeps the natural identifiers of others. -/
theorem of_adds {bodies : List (String × List Element)} (h : Adds bodies r r')
    (hupgrades : r.Upgrades r') : r.KeepsNaturalIds r' :=
  ⟨hupgrades, h.kept, h.covered hupgrades⟩

/-- Natural identifiers are kept if nothing is written that concerns them. -/
theorem of_same (h : r.SameNaturalIds r') (hupgrades : r.Upgrades r') : r.KeepsNaturalIds r' :=
  .of_adds (.of_same h) hupgrades

theorem trans (h : r.KeepsNaturalIds r') (h' : r'.KeepsNaturalIds r'') : r.KeepsNaturalIds r'' :=
  ⟨h.upgrades.trans h'.upgrades, fun name k hk => h'.kept name k (h.kept name k hk),
    h'.covered ∘ h.covered⟩

end Registry.KeepsNaturalIds

namespace Session

variable {r r' : Registry}

/-- The bodies of a document are realized when it is bound, and passes and references leave natural
identifiers alone. -/
theorem fulfils_naturalIds : Fulfils housing
    (fun root r => ∀ body ∈ documentBodies root, r.Realizes body) Registry.KeepsNaturalIds where
  upkept := upkept_housing
  refl r := .of_same (.refl r) (.refl r)
  trans := .trans
  kept hdone hlater body hbody := (hdone body hbody).later hlater.upgrades (hlater.kept body.1)
  setWaiting r _ := .of_same (.of_entities rfl) { Upgrades.refl r with }
  upholds_bindRoot root metas := (adds_bindRoot root metas).mono fun _ _ hlater hadds =>
    ⟨.of_adds hadds hlater, hadds.realized⟩
  nextPass {r rest r' pass} _ hnext hrun := by
    obtain ⟨passes, -, rfl⟩ := nextPass?_eq_some_iff.mp hnext
    have hsteps := passing_run pass { r with passes }
    rw [after_eq_of_ok hrun] at hsteps
    have htaken : r.Upgrades { r with passes } := { Upgrades.refl r with }
    have hsame : SameNaturalIds r { r with passes } := .of_entities rfl
    exact .of_same (hsame.trans (.of_steps (fun _ _ => Passing.sameNaturalIds) hsteps))
      (htaken.trans (.of_steps (fun _ _ => Passing.upgrades) hsteps))
  applyPropertyReferences happlied := by
    have hsteps := (marks_of_applyPropertyReferences happlied).1
    exact .of_same (.of_steps (fun _ _ => Mark.sameNaturalIds) hsteps)
      (.of_steps (fun _ _ => Mark.upgrades) hsteps)

/-- In a session in which nothing fails, all natural identifiers are covered by the unique keys of
their tables. -/
theorem Flawless.naturalIdsCovered {options : RegistryOptions} {arrivals : List Arrival}
    (hr : Flawless options arrivals r) : r.NaturalIdsCovered :=
  (fulfils_naturalIds.later_of_flawless (housed_empty options) hr).covered
    fun _ _ hk => by cases hk

/-- In a session in which nothing fails, every entity that a bound document declares has flagged
exactly the properties in the groups of its body, each of them updated only if its group is mutable,
and the one unique key of natural identifiers on its table has the columns of all of them.  Unless
an element names that key for a column of its own, the key has exactly the columns of the natural
identifiers of the entities in the table. -/
theorem naturalIds_covered {options : RegistryOptions} {arrivals : List Arrival}
    (hr : Flawless options arrivals r) {arrival : Arrival} (harrival : arrival ∈ arrivals)
    (hbound : arrival ∉ r.waiting.map arrivalOf) {name : String} {children : List Element}
    (hbody : (name, children) ∈ documentBodies arrival.document.root) :
    ∃ e t, r.entity? name = some e ∧ r.table? e.table = some t ∧
      e.naturalIdProperties.map Property.naturalMark = naturalMarks children ∧
      (∀ p ∈ e.naturalIdProperties, ∃ k, t.uniqueKeys.get? naturalIdKey = some k ∧
        p.value.columnNames ⊆ k.columns) ∧
      (¬ (sourceOf options (Arrives arrivals)).NamesUniqueKey naturalIdKey →
        ∀ k, t.uniqueKeys.get? naturalIdKey = some k →
          ∀ column, column ∈ k.columns ↔ r.HasNaturalColumn e.table column) := by
  obtain ⟨hhoused, hsettled⟩ := fulfils_naturalIds.of_flawless (housed_empty options) hr
  have hdone := (hsettled arrival harrival).resolve_left hbound
  obtain ⟨k, hk, hmarks, hcovered⟩ := hdone (name, children) hbody
  obtain ⟨e, he, rfl⟩ := Option.map_eq_some_iff.mp hk
  obtain ⟨t, ht⟩ := (hhoused.entities name e he).held
  refine ⟨e, t, he, ht, ?_, fun p hp => ?_, fun hunnamed key hkey column => ?_⟩
  · rw [← hmarks, Entity.naturalId, List.map_map]
    rfl
  · obtain ⟨t', key, ht', hkey, hcolumns⟩ := hcovered p.naturalPart (List.mem_map_of_mem hp)
    cases ht.symm.trans ht'
    exact ⟨key, hkey, hcolumns⟩
  · refine ⟨fun hin => ?_, hr.naturalIdsCovered.mem ht hkey⟩
    have hgrounded := hr.driven.grounded
    obtain ⟨id, t', ht', hsame, hnatural⟩ :=
      ((hgrounded.tables _ t ht).naturalKey key hkey column hin).resolve_left hunnamed
    rwa [hgrounded.keyed.id_eq ht ht' hsame] at hnatural

/-- A class that is stored in the table of parties, with a natural identifier. -/
def partyClass (name : String) (group : Element) : Element where
  name := "class"
  attributes := .ofList [("name", name), ("table", "party")]
  children := [{ name := "id", attributes := .ofList [("name", "id"), ("type", "long")] }, group]

/-- Persons and companies in one table.  Persons are known by numbers that never change, companies
by numbers that may. -/
def partyRegister : Document := documentOf [
  partyClass "Person" {
    name := "natural-id"
    children := [namedElement "property" "ssn" []] },
  partyClass "Company" {
    name := "natural-id"
    attributes := .ofList [("mutable", "true")]
    children := [namedElement "property" "vat" []] }]

/-- The register as it is built. -/
def builtPartyRegister : Registry :=
  finish.after ((addAll [⟨partyRegister, .empty⟩]).after { options := {} })

/-- The register is built without an error. -/
theorem built_partyRegister : Built {} [⟨partyRegister, .empty⟩] builtPartyRegister :=
  built_of_succeeds (by decide +kernel) (by decide +kernel)

/-- The property of a company is flagged as its group says, and the unique key has its column, and
no columns but those of the two groups. -/
theorem naturalIds_covered_partyRegister :
    Flawless {} [⟨partyRegister, .empty⟩] builtPartyRegister ∧
      (⟨partyRegister, .empty⟩ : Arrival) ∉ builtPartyRegister.waiting.map arrivalOf ∧
      ∃ children, ("Company", children) ∈ documentBodies partyRegister.root ∧
        naturalMarks children = [⟨"vat", true⟩] ∧
        ∃ e t, builtPartyRegister.entity? "Company" = some e ∧
          builtPartyRegister.table? e.table = some t ∧
          e.naturalIdProperties.map Property.naturalMark = naturalMarks children ∧
          (∀ p ∈ e.naturalIdProperties, ∃ k, t.uniqueKeys.get? naturalIdKey = some k ∧
            p.value.columnNames ⊆ k.columns) ∧
          ∀ k, t.uniqueKeys.get? naturalIdKey = some k →
            ∀ column, column ∈ k.columns ↔ builtPartyRegister.HasNaturalColumn e.table column := by
  have hflawless := built_partyRegister.flawless
  have hempty : builtPartyRegister.waiting.isEmpty = true := by decide +kernel
  have hbound : (⟨partyRegister, .empty⟩ : Arrival) ∉
      builtPartyRegister.waiting.map arrivalOf := by
    rw [List.isEmpty_iff.mp hempty]
    exact List.not_mem_nil
  obtain ⟨⟨name, children⟩, hbody, hname, hmarks⟩ :
      ∃ body ∈ documentBodies partyRegister.root, body.1 = "Company" ∧
        naturalMarks body.2 = [⟨"vat", true⟩] := by
    decide +kernel
  cases hname
  have hunnamed : ¬ (sourceOf {} (Arrives [⟨partyRegister, .empty⟩])).NamesUniqueKey
      naturalIdKey := by
    refine Source.not_namesUniqueKey ?_
    rintro d ⟨arrival, harrival, rfl⟩
    cases List.mem_singleton.mp harrival
    decide +kernel
  obtain ⟨e, t, he, ht, hflagged, hcovered, hexact⟩ :=
    naturalIds_covered hflawless (List.mem_singleton_self _) hbound hbody
  exact ⟨hflawless, hbound, children, hbody, hmarks, e, t, he, ht, hflagged, hcovered,
    hexact hunnamed⟩

/-- The columns of the properties that stand in a group. -/
def columnsIn (group : Element) (e : Entity) : List String :=
  (e.properties.filter fun p => p.name ∈ group.children.filterMap (·.attribute? "name")).flatMap
    (·.value.columnNames)

/-- There is no unique key with the columns of one of the two groups only. -/
theorem naturalIds_merged : ¬ ∀ (options : RegistryOptions) (arrivals : List Arrival)
    (r : Registry), Built options arrivals r → ∀ arrival ∈ arrivals,
      ∀ body ∈ documentBodies arrival.document.root, ∀ group ∈ body.2,
        group.tag? = some .naturalId → ∃ e t, r.entity? body.1 = some e ∧
          r.table? e.table = some t ∧ ∃ k ∈ t.uniqueKeys.values,
            ∀ column, column ∈ k.columns ↔ column ∈ columnsIn group e := by
  intro hclaim
  obtain ⟨body, hbody, group, hgroup, htag, hnone⟩ :
      ∃ body ∈ documentBodies partyRegister.root, ∃ group ∈ body.2,
        group.tag? = some .naturalId ∧ ∀ e ∈ builtPartyRegister.entities.values,
          ∀ t ∈ builtPartyRegister.tables.values, ∀ k ∈ t.uniqueKeys.values,
            ¬ k.columns ⊆ columnsIn group e := by
    decide +kernel
  obtain ⟨e, t, he, ht, k, hk, hcolumns⟩ := hclaim {} _ _ built_partyRegister _
    (List.mem_singleton_self _) body hbody group hgroup htag
  exact hnone e (KeyedList.mem_values_iff.mpr ⟨body.1, he⟩) t
    (KeyedList.mem_values_iff_getIdx?.mpr ⟨e.table.index, ht⟩) k hk
    fun column hin => (hcolumns column).mp hin

end Session

end ObjectMapping
