import ObjectMapping.Proofs.AnnotatedContents
import ObjectMapping.Proofs.Driven
import ObjectMapping.Proofs.Enlistment

/-!
# Private meta attributes

A session may be fed with documents that bring no meta attributes along.  Then everything that ends
up in its registry is annotated: each entity, property, component and collection has the meta
attributes that the tags of its own element make, and otherwise only what is handed down to that
element and is inheritable.  So an entry that is private was made by the tags of the object's own
element.

The texts of private tags do not stay with their element altogether.  Where an element that is bound
as a component has both private and public tags of one name, and the last of them is public, all of
their texts are handed down to the members.
-/

namespace ObjectMapping

open Binding Registry

namespace Session

variable {documents : Document → Prop} {r : Registry}

/-- A document of a session that brings no meta attributes along. -/
def ArrivesBare (documents : Document → Prop) (arrival : Arrival) : Prop :=
  documents arrival.document ∧ arrival.metas = .empty

/-- Documents without meta attributes of their own, passes and references keep a registry
annotated. -/
theorem upkept_annotating : Upkept (annotating documents) (ArrivesBare documents) where
  waiting hr := hr.waiting
  setWaiting hr hwaiting := Registry.Annotated.setWaiting hr hwaiting
  upholds_bindRoot {r document} metas harrives := by
    obtain ⟨hdocument, rfl⟩ := harrives
    refine (kept_annotatedStock hdocument).walked.upholds_bindRoot .empty
      (fun c hc => ⟨rfl, .top hc⟩) ?_
    refine .of_writes _ fun hwrite hr => Registry.Annotated.of_alike hr ?_
    cases hwrite <;> exact ⟨rfl, rfl, rfl, rfl⟩
  nextPass hr hnext := by
    obtain ⟨hadvances, hpass⟩ := Registry.Annotated.nextPass hr hnext
    exact hadvances.trans ((annotates_run hpass).advances hadvances.invariant)
  applyPropertyReferences hr happlied :=
    .of_steps (fun hmark hr => Registry.Annotated.mark hr hmark)
      (marks_of_applyPropertyReferences happlied).1 hr

/-- An empty registry is annotated. -/
theorem annotated_empty (options : RegistryOptions) :
    ({ options } : Registry).Annotated documents where
  named := fun _ _ h => by cases h
  entities := fun _ _ h => by cases h
  collections := fun _ _ h => by cases h
  passes := fun _ _ h => absurd h List.not_mem_nil
  waiting := fun _ h => absurd h List.not_mem_nil

/-- If documents arrive without meta attributes, an element of theirs accounts for each entity, each
property, each component at any depth, and each collection, unless it is a property that was made
without an element, and that has no meta attributes. -/
theorem metas_accounted_for {options : RegistryOptions}
    (hr : Fed options (ArrivesBare documents) r) :
    (∀ name e, r.entity? name = some e → Accounted documents e.AccountedFor ∧
        ∀ p ∈ e.allProperties ++ e.identifierProperty?.toList,
          p.isSynthetic = true ∧ p.metas = .empty ∨ Accounted documents p.AccountedFor) ∧
      (∀ c, .component c ∈ r.parts → Accounted documents c.AccountedFor) ∧
      ∀ role c, r.collection? role = some c → Accounted documents c.AccountedFor := by
  have hannotated := (upkept_annotating.advances_of_fed (annotated_empty options) hr).invariant
  refine ⟨fun name e he => ?_, fun c hc => ?_, fun role c hc => ?_⟩
  · obtain ⟨hown, hstored⟩ := hannotated.entities name e he
    refine ⟨hown, fun p hp => ?_⟩
    rcases List.mem_append.mp hp with hp | hp
    · exact (hstored.properties p hp).2
    · exact hstored.identifier p (Option.mem_toList.mp hp)
  · obtain ⟨v, hv, hpart⟩ := List.mem_flatMap.mp hc
    rcases List.mem_append.mp hv with hv | hv
    · obtain ⟨e, he, hv⟩ := List.mem_flatMap.mp hv
      obtain ⟨name, hname⟩ := KeyedList.mem_values_iff.mp he
      exact (hannotated.entities name e hname).stored.value hv c hpart
    · obtain ⟨collection, hcollection, hv⟩ := List.mem_flatMap.mp hv
      obtain ⟨role, hrole⟩ := KeyedList.mem_values_iff.mp hcollection
      exact (hannotated.collections role collection hrole).values v hv c hpart
  · exact (hannotated.collections role c hc).own

/-- A street. -/
def street : Element where
  name := "property"
  attributes := .ofList [("name", "street"), ("type", "string")]

/-- An address with a private draft of a note and a public final one. -/
def draftedAddress : Element := namedElement "component" "address" [
  { name := "meta"
    attributes := .ofList [("attribute", "note"), ("inherit", "false")]
    text := "draft" },
  { name := "meta"
    attributes := .ofList [("attribute", "note")]
    text := "final" },
  street]

/-- Orders with such an address. -/
def draftedOrder : Document := documentOf [identifiedClass "Order" [draftedAddress]]

/-- The session of the orders, before it is ended. -/
def draftedSession : Registry := (Call.add draftedOrder .empty).run.after { options := {} }

/-- What a property of the orders says of the note. -/
def noteOf (r : Registry) (path : String) : Option MetaAttribute :=
  (r.referencedProperty? "Order" path).bind fun p => p.metas.get? "note"

theorem fed_draftedOrder :
    Fed {} (ArrivesBare (· = draftedOrder)) (finish.after draftedSession) := by
  have hstart : Fed {} (ArrivesBare (· = draftedOrder)) { options := {} } := .start
  have hadded := hstart.call (.add draftedOrder .empty) fun arrival harrival => by
    cases harrival
    exact ⟨rfl, rfl⟩
  exact hadded.call .finish nofun

/-- The orders are accounted for, and so is their address, which has all texts of the note. -/
theorem metas_accounted_for_draftedOrder :
    Fed {} (ArrivesBare (· = draftedOrder)) (finish.after draftedSession) ∧
      noteOf (finish.after draftedSession) "address" = some ⟨"note", ["draft", "final"], true⟩ ∧
      ∃ e p, (finish.after draftedSession).entity? "Order" = some e ∧ p ∈ e.allProperties ∧
        p.name = "address" ∧ Accounted (· = draftedOrder) e.AccountedFor ∧
        Accounted (· = draftedOrder) p.AccountedFor := by
  have hregistered : (((finish.after draftedSession).entity? "Order").bind fun e =>
      e.allProperties.find? fun p => p.name = "address" ∧ p.isSynthetic = false).isSome = true := by
    decide +kernel
  obtain ⟨p, hp⟩ := Option.isSome_iff_exists.mp hregistered
  obtain ⟨e, he, hfound⟩ := Option.bind_eq_some_iff.mp hp
  have hsought : p.name = "address" ∧ p.isSynthetic = false := by
    simpa using List.find?_some hfound
  obtain ⟨hname, hbound⟩ := hsought
  have hstored := List.mem_of_find?_eq_some hfound
  obtain ⟨hentities, -, -⟩ := metas_accounted_for fed_draftedOrder
  obtain ⟨hown, hproperties⟩ := hentities "Order" e he
  refine ⟨fed_draftedOrder, by decide +kernel, e, p, he, hstored, hname, hown, ?_⟩
  rcases hproperties p (List.mem_append_left _ hstored) with ⟨hsynthetic, -⟩ | haccounted
  · cases hsynthetic.symm.trans hbound
  · exact haccounted

/-- The text of a private tag is handed down: the street has no tags, and yet the private draft of
the address is among the texts of its note. -/
theorem private_text_handed_down :
    Fed {} (ArrivesBare (· = draftedOrder)) (finish.after draftedSession) ∧
      finish.succeeds draftedSession = true ∧
      metaTags draftedAddress = [⟨"note", false, "draft"⟩, ⟨"note", true, "final"⟩] ∧
      metaTags street = [] ∧
      noteOf (finish.after draftedSession) "address.street"
        = some ⟨"note", ["draft", "final"], true⟩ :=
  ⟨fed_draftedOrder, by decide +kernel, rfl, rfl, by decide +kernel⟩

end Session

end ObjectMapping
