import ObjectMapping.Proofs.ForeignKeys
import ObjectMapping.Proofs.SessionTracing

/-!
# Orphans

A property has the cascade of its element, or the default of its document if the element gives
none.  Whether orphans are deleted is decided when the value is bound, from the element alone: a
collection deletes them if the element asks for it, and a many-to-one or one-to-one whose element
asks for it is refused.  So the cascade of a property and what its value does may differ where the
default asks to delete orphans, and references to any class are never refused.  `CascadesFrom` says
where the cascade of a property comes from; the theorems say exactly when it asks to delete the
orphans of a single-valued association, and when it agrees with its collection.
-/

namespace ObjectMapping

open Binding Registry

/-! ## Properties -/

/-- The properties of a registry: of entities, joins, components and identifiers. -/
def Registry.everyProperty (r : Registry) : List Property :=
  r.declaredProperties ++ r.entities.values.filterMap Entity.identifierProperty?

/-- Whether a value is an association to one entity, of one class or of any. -/
def Value.isSingleValued : Value → Bool
  | .any _ | .manyToOne _ | .oneToOne _ => true
  | .collection _ | .component _ | .dependant _ _ _ _ | .oneToMany _ | .simple _ => false

/-- The role of the collection that a value is. -/
def Value.collectionRole? : Value → Option String
  | .collection role => some role
  | .any _ | .component _ | .dependant _ _ _ _ | .manyToOne _ | .oneToMany _ | .oneToOne _
  | .simple _ => none

theorem Value.eq_collection_of_role? {v : Value} {role : String}
    (h : v.collectionRole? = some role) : v = .collection role := by
  cases v with
  | collection => cases h; rfl
  | any | component | dependant | manyToOne | oneToMany | oneToOne | simple => cases h

/-- The cascade of a document's elements that give none. -/
def Document.defaultCascade (d : Document) : String := (DocumentDefaults.ofRoot d.root).cascade

/-- The cascade of a property is that of an element of a document, or the default. -/
structure Property.CascadesFrom (p : Property) (d : Document) (node : Element) : Prop where
  within : node.Within d.root
  cascade : p.cascade = (node.attribute? "cascade").getD d.defaultCascade

section

variable {S : Source} {r : Registry}

namespace Registry.Traced

variable (hr : r.Traced S)
include hr

theorem entity_of_mem {e : Entity} (he : e ∈ r.entities.values) : e.Traced S r := by
  obtain ⟨name, hname⟩ := KeyedList.mem_values_iff.mp he
  exact (hr.entities name e hname).2

theorem collection_of_mem {c : Collection} (hc : c ∈ r.collections.values) : c.Traced S r := by
  obtain ⟨role, hrole⟩ := KeyedList.mem_values_iff.mp hc
  exact (hr.collections role c hrole).2

/-- Everything that a traced registry stores is sourced. -/
theorem part_of_mem {v : Value} (hv : v ∈ r.parts) : v.Sourced S r := by
  obtain ⟨w, hw, hpart⟩ := List.mem_flatMap.mp hv
  refine (?_ : w.Traced S r) v hpart
  rcases List.mem_append.mp hw with hentity | hcollection
  · obtain ⟨e, he, hin⟩ := List.mem_flatMap.mp hentity
    exact (hr.entity_of_mem he).value hin
  · obtain ⟨c, hc, hin⟩ := List.mem_flatMap.mp hcollection
    exact ((hr.collection_of_mem hc).values w hin).1

/-- Every property of a traced registry is sourced. -/
theorem property_of_mem {p : Property} (hp : p ∈ r.everyProperty) : p.Sourced S r := by
  rcases List.mem_append.mp hp with hdeclared | hidentifier
  · rcases List.mem_append.mp hdeclared with hentity | hcomponent
    · obtain ⟨e, he, hp⟩ := List.mem_flatMap.mp hentity
      exact ((hr.entity_of_mem he).properties p hp).sourced
    · obtain ⟨c, hc, hp⟩ := List.mem_flatMap.mp hcomponent
      obtain ⟨v, hv, hvc⟩ := List.mem_filterMap.mp hc
      have hsourced := hr.part_of_mem hv
      cases v with
      | component => cases hvc; exact hsourced p hp
      | any | collection | dependant | manyToOne | oneToMany | oneToOne | simple => cases hvc
  · obtain ⟨e, he, hp⟩ := List.mem_filterMap.mp hidentifier
    exact (hr.entity_of_mem he).identifier p hp

end Registry.Traced

/-- A property that is sourced is synthetic, or bound from an element of a document. -/
theorem Property.Sourced.cascadesFrom {p : Property} (h : p.Sourced S r) :
    p.cascade = "none" ∧ p.value.isCollection = false ∨
      ∃ d node, S.documents d ∧ p.CascadesFrom d node ∧ p.value.OrphansAs r node := by
  refine h.imp_right fun ⟨scope, node, ⟨d, hd, hwithin, hdefaults⟩, hbound⟩ => ?_
  refine ⟨d, node, hd, ⟨hwithin, ?_⟩, hbound.value⟩
  rw [hbound.cascade, hdefaults]
  rfl

end

namespace Property.CascadesFrom

variable {p : Property} {d : Document} {node : Element}

/-- A cascade asks to delete orphans if the element says so, or says nothing and the default
does. -/
theorem deletesOrphan_iff (h : p.CascadesFrom d node) : cascadesDeleteOrphan p.cascade = true ↔
    node.deletesOrphans = true ∨
      node.attribute? "cascade" = none ∧ cascadesDeleteOrphan d.defaultCascade = true := by
  rw [h.cascade, Element.deletesOrphans]
  cases node.attribute? "cascade" <;> simp

/-- What an element says about orphans agrees with the cascade, unless the element says nothing
and the default asks to delete them. -/
theorem agrees_iff (h : p.CascadesFrom d node) :
    node.deletesOrphans = cascadesDeleteOrphan p.cascade ↔
      ¬ (node.attribute? "cascade" = none ∧ cascadesDeleteOrphan d.defaultCascade = true) := by
  rw [h.cascade, Element.deletesOrphans]
  cases node.attribute? "cascade" with
  | none => cases hdefault : cascadesDeleteOrphan d.defaultCascade <;> simp [hdefault]
  | some cascade => simp

end Property.CascadesFrom

namespace Session

variable {options : RegistryOptions} {documents : Document → Prop} {r : Registry} {p : Property}

/-! ## Single-valued associations -/

/-- In every registry that a session can be driven to, the cascade of a single-valued association
asks to delete orphans in two cases only: its element gives no cascade and the default of the
document asks for it, or its element is a reference to any class and asks for it. -/
theorem orphanDelete_of_singleValued (h : Driven options documents r) (hp : p ∈ r.everyProperty)
    (hsingle : p.value.isSingleValued = true) :
    p.cascade = "none" ∨ ∃ d node, documents d ∧ p.CascadesFrom d node ∧
      (cascadesDeleteOrphan p.cascade = true ↔
        node.attribute? "cascade" = none ∧ cascadesDeleteOrphan d.defaultCascade = true ∨
          node.tag? = some .any ∧ node.deletesOrphans = true) := by
  refine (h.traced.2.property_of_mem hp).cascadesFrom.imp And.left ?_
  rintro ⟨d, node, hd, hcascade, horphans⟩
  refine ⟨d, node, hd, hcascade, ?_⟩
  rw [hcascade.deletesOrphan_iff, or_comm]
  refine or_congr_right ⟨fun hdeletes => ⟨?_, hdeletes⟩, And.right⟩
  cases hvalue : p.value with
  | any v =>
    rw [hvalue] at horphans
    exact horphans
  | manyToOne v | oneToOne v =>
    rw [hvalue] at horphans
    cases hdeletes.symm.trans horphans
  | collection | component | dependant | oneToMany | simple =>
    rw [hvalue] at hsingle
    cases hsingle

/-- An order with a buyer, a subject of any class whose orphans are to be deleted, and notes.  The
default of the document is to delete orphans. -/
def orphanBook : Document where
  root := {
    name := "hibernate-mapping"
    attributes := .ofList [("default-cascade", "all-delete-orphan")]
    children := [
      identifiedClass "Person" [],
      identifiedClass "Order" [
        { name := "many-to-one"
          attributes := .ofList [("name", "buyer"), ("class", "Person"), ("cascade", "all")] },
        { name := "any"
          attributes := .ofList [("name", "subject"), ("id-type", "long"),
            ("cascade", "delete-orphan")]
          children := [namedElement "column" "subject_class" [],
            namedElement "column" "subject_id" []] },
        namedElement "set" "notes" [columnElement "key" "order_id",
          columnElement "element" "note"]]] }

/-- The order with orphans as it is built. -/
def builtOrphanBook : Registry :=
  finish.after ((addAll [⟨orphanBook, .empty⟩]).after { options := {} })

theorem built_orphanBook : Built {} [⟨orphanBook, .empty⟩] builtOrphanBook :=
  built_of_succeeds (by decide +kernel) (by decide +kernel)

/-- The buyer of the order is bound with the cascade of its element. -/
theorem orphanDelete_of_singleValued_orphanBook :
    Driven {} (Arrives [⟨orphanBook, .empty⟩]) builtOrphanBook ∧
      ∃ p ∈ builtOrphanBook.everyProperty, p.name = "buyer" ∧ p.cascade = "all" ∧
        p.value.isSingleValued = true ∧
        (p.cascade = "none" ∨ ∃ d node, Arrives [⟨orphanBook, .empty⟩] d ∧
          p.CascadesFrom d node ∧ (cascadesDeleteOrphan p.cascade = true ↔
            node.attribute? "cascade" = none ∧ cascadesDeleteOrphan d.defaultCascade = true ∨
              node.tag? = some .any ∧ node.deletesOrphans = true)) := by
  have hdriven := built_orphanBook.driven
  obtain ⟨p, hp, hname, hcascade, hsingle⟩ : ∃ p ∈ builtOrphanBook.everyProperty,
      p.name = "buyer" ∧ p.cascade = "all" ∧ p.value.isSingleValued = true := by
    decide +kernel
  exact ⟨hdriven, p, hp, hname, hcascade, hsingle,
    orphanDelete_of_singleValued hdriven hp hsingle⟩

/-- Single-valued associations may ask to delete orphans: the subject of an order does, since
references to any class are not refused. -/
theorem singleValued_orphanDelete_accepted : ¬ ∀ (options : RegistryOptions)
    (arrivals : List Arrival) (r : Registry), Built options arrivals r →
      ∀ p ∈ r.everyProperty, p.value.isSingleValued = true →
        cascadesDeleteOrphan p.cascade = false := by
  intro hclaim
  obtain ⟨p, hp, hsingle, hdeletes⟩ : ∃ p ∈ builtOrphanBook.everyProperty,
      p.value.isSingleValued = true ∧ cascadesDeleteOrphan p.cascade = true := by
    decide +kernel
  cases hdeletes.symm.trans (hclaim {} _ builtOrphanBook built_orphanBook p hp hsingle)

/-! ## Collections -/

/-- In every registry that a session can be driven to, the collection of a property is registered,
and does with orphans what its element says.  It agrees with the cascade of the property, unless
the element gives none and the default of the document asks to delete orphans. -/
theorem orphanDelete_of_collection (h : Driven options documents r) (hp : p ∈ r.everyProperty)
    {role : String} (hvalue : p.value = .collection role) :
    ∃ c d node, r.collection? role = some c ∧ documents d ∧ p.CascadesFrom d node ∧
      c.orphanDelete = node.deletesOrphans ∧
      (c.orphanDelete = cascadesDeleteOrphan p.cascade ↔
        ¬ (node.attribute? "cascade" = none ∧ cascadesDeleteOrphan d.defaultCascade = true)) := by
  rcases (h.traced.2.property_of_mem hp).cascadesFrom with ⟨-, hcollection⟩ | hbound
  · rw [hvalue] at hcollection
    cases hcollection
  · obtain ⟨d, node, hd, hcascade, horphans⟩ := hbound
    rw [hvalue] at horphans
    obtain ⟨c, hc, hdeletes⟩ := horphans
    refine ⟨c, d, node, hc, hd, hcascade, hdeletes, ?_⟩
    rw [hdeletes]
    exact hcascade.agrees_iff

/-- The notes of the order are registered, and their element says nothing about orphans. -/
theorem orphanDelete_of_collection_orphanBook :
    Driven {} (Arrives [⟨orphanBook, .empty⟩]) builtOrphanBook ∧
      ∃ p ∈ builtOrphanBook.everyProperty, p.name = "notes" ∧ p.value = .collection "Order.notes" ∧
        ∃ c d node, builtOrphanBook.collection? "Order.notes" = some c ∧
          Arrives [⟨orphanBook, .empty⟩] d ∧ p.CascadesFrom d node ∧
          c.orphanDelete = node.deletesOrphans ∧
          (c.orphanDelete = cascadesDeleteOrphan p.cascade ↔
            ¬ (node.attribute? "cascade" = none ∧
              cascadesDeleteOrphan d.defaultCascade = true)) := by
  have hdriven := built_orphanBook.driven
  obtain ⟨p, hp, hname, hcollection⟩ : ∃ p ∈ builtOrphanBook.everyProperty,
      p.name = "notes" ∧ p.value.collectionRole? = some "Order.notes" := by
    decide +kernel
  have hvalue := Value.eq_collection_of_role? hcollection
  exact ⟨hdriven, p, hp, hname, hvalue, orphanDelete_of_collection hdriven hp hvalue⟩

/-- A collection may disagree with the cascade of its property: the notes of an order keep
orphans, while the cascade of their property is the default, which asks to delete them. -/
theorem collection_orphanDelete_disagrees : ¬ ∀ (options : RegistryOptions)
    (arrivals : List Arrival) (r : Registry), Built options arrivals r →
      ∀ p ∈ r.everyProperty, ∀ role, p.value = .collection role →
        ∃ c, r.collection? role = some c ∧ c.orphanDelete = cascadesDeleteOrphan p.cascade := by
  intro hclaim
  obtain ⟨p, hp, hcollection, hdeletes⟩ : ∃ p ∈ builtOrphanBook.everyProperty,
      p.value.collectionRole? = some "Order.notes" ∧ cascadesDeleteOrphan p.cascade = true := by
    decide +kernel
  obtain ⟨c, hc, hagrees⟩ := hclaim {} _ builtOrphanBook built_orphanBook p hp "Order.notes"
    (Value.eq_collection_of_role? hcollection)
  have hkeeps : (builtOrphanBook.collection? "Order.notes").map Collection.orphanDelete
      = some false := by
    decide +kernel
  rw [hc, Option.map_some, hagrees, hdeletes] at hkeeps
  cases hkeeps

end Session

end ObjectMapping
