import ObjectMapping.Proofs.ContentsTracing
import ObjectMapping.Proofs.Driven

/-!
# Tracing sessions

Every registry that a session can be driven to is traced in the documents of its calls: an empty
registry is, and documents, passes and references keep it so, one at a time.  The references that
are applied at the end of a session mark properties at most, and neither where a property comes
from nor what its value refers to is changed by a mark.
-/

namespace ObjectMapping

open Binding Registry

variable {S : Source} {r r' : Registry}

/-! ## Marked properties -/

/-- Marking a property as an alternate key keeps it traced. -/
theorem Property.Traced.markAlternateKey {p : Property} (h : p.Traced S r) :
    (Registry.markAlternateKey p).Traced S r := by
  obtain ⟨name, nodeName, value, access, cascade, _⟩ := p
  obtain ⟨hvalue, hsourced⟩ := h
  have hself := hvalue value value.mem_parts_self
  refine ⟨?_, hsourced.imp (fun hnone => ⟨hnone.1, ?_⟩) ?_⟩
  · cases value with
    | component | collection | oneToMany => exact hvalue
    | dependant base wrapped nullable updatable =>
      exact Value.traced_dependant _ (fun part hpart => hvalue part (List.mem_cons_of_mem _ hpart))
        nullable updatable
    | simple | any | manyToOne | oneToOne => exact Value.traced_of_sourced rfl hself
  · cases value <;> exact hnone.2
  · rintro ⟨scope, node, hnode, hcascade, horphans⟩
    refine ⟨scope, node, hnode, hcascade, ?_⟩
    cases value <;> exact horphans

/-- A change below a property keeps it traced if the change of the innermost one does. -/
theorem Property.Traced.modifyAt {f : Property → Property}
    (hf : ∀ p : Property, p.Traced S r → (f p).Traced S r) (members : List Nat) {p : Property}
    (h : p.Traced S r) : (p.modifyAt f members).Traced S r := by
  induction members generalizing p with
  | nil => exact hf p h
  | cons index rest ih =>
    unfold Property.modifyAt
    split
    · next c hc =>
      obtain ⟨hvalue, hsourced⟩ := h
      rw [hc, Value.traced_component_iff] at hvalue
      refine ⟨Value.traced_component_iff.mpr (forall_mem_modify (fun _ => ih) hvalue index), ?_⟩
      refine hsourced.imp (fun hnone => ⟨hnone.1, rfl⟩) ?_
      exact fun ⟨scope, node, hnode, hbound⟩ => ⟨scope, node, hnode, hbound.cascade, trivial⟩
    · exact h

/-- Changing a property keeps an entity traced if it keeps properties so. -/
theorem Entity.Traced.modifySlot {e : Entity} (h : e.Traced S r) (slot : PropertySlot)
    {f : Property → Property} (hf : ∀ p : Property, p.Traced S r → (f p).Traced S r) :
    (e.modifySlot f slot).Traced S r :=
  traced_iff.mpr ((traced_iff.mp h).modifySlot slot hf fun p hp =>
    ⟨(hf p hp.2).value, hf p hp.2⟩)

/-! ## Recorded references -/

/-- A registry stays traced if a property is marked. -/
theorem Registry.Traced.mark (hr : r.Traced S) (h : Mark r r') : S.tracing.Advances r r' := by
  cases h with
  | property place =>
    have hname : ∀ e : Entity, (e.modifySlot (·.modifyAt markAlternateKey place.members)
        place.slot).name = e.name := fun e =>
      congrArg EntitySkeleton.name (e.skeleton_modifySlot place.slot fun p =>
        Property.name_modifyAt (f := markAlternateKey) (fun _ => rfl) p place.members)
    refine hr.modifyEntity fun e hown he => ⟨(hname e).trans hown, ?_⟩
    exact he.modifySlot place.slot fun p hp =>
      hp.modifyAt (fun q hq => hq.markAlternateKey) place.members

/-- Applying all recorded references marks properties at most. -/
theorem Registry.Traced.applyPropertyReferences (hr : r.Traced S)
    (h : r.applyPropertyReferences = .ok r') : S.tracing.Advances r r' :=
  .of_steps (fun hmark hr => Registry.Traced.mark hr hmark)
      (marks_of_applyPropertyReferences h).1 hr

namespace Session

/-! ## Driven registries -/

/-- Documents, passes and references keep a registry traced. -/
theorem upkept_tracing : Upkept S.tracing fun arrival => S.documents arrival.document where
  waiting hr := hr.waiting
  setWaiting hr hwaiting := Registry.Traced.setWaiting hr hwaiting
  upholds_bindRoot metas hdocument := upholds_bindRoot hdocument metas
  nextPass hr hnext := by
    obtain ⟨hadvances, hpass⟩ := Registry.Traced.nextPass hr hnext
    exact hadvances.trans ((upholds_run hpass).advances hadvances.invariant)
  applyPropertyReferences hr happlied := Registry.Traced.applyPropertyReferences hr happlied

/-- An empty registry is traced. -/
theorem traced_empty (options : RegistryOptions) : ({ options } : Registry).Traced S where
  entities := fun _ _ h => by cases h
  foreignKeys := fun _ ⟨_, ht, _⟩ => absurd ht List.not_mem_nil
  collections := fun _ _ h => by cases h
  passes := fun _ _ h => absurd h List.not_mem_nil
  waiting := fun _ h => absurd h List.not_mem_nil

/-- Every registry that a session is driven to is traced in its documents, and has the options of
the session. -/
theorem Driven.traced {options : RegistryOptions} {documents : Document → Prop}
    (h : Driven options documents r) :
    r.options = options ∧ r.Traced (sourceOf options documents) := by
  have hadvances := (upkept_tracing (S := sourceOf options documents)).advances_of_driven
    (traced_empty options) h
  exact ⟨hadvances.keeps.options, hadvances.invariant⟩

end Session

end ObjectMapping
