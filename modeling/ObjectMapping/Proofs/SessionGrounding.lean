import ObjectMapping.Proofs.ContentsBinding
import ObjectMapping.Proofs.Driven

/-!
# Sessions are grounded

Every registry that a session can be driven to is grounded in the documents of its calls and in the
naming strategy of its options: an empty registry is, and documents, passes and references keep it
so, one at a time.
-/

namespace ObjectMapping

open Binding Registry

namespace Session

variable {S : Source} {r : Registry}

/-- The pass at the head of the queue keeps the registry grounded. -/
theorem advances_nextPass (hr : r.Grounded S) {pass : DeferredPass} {rest : Registry}
    (hnext : r.nextPass? = some (pass, rest)) : r.Advances S (pass.run.after rest) := by
  obtain ⟨hadvances, hpass⟩ := hr.nextPass hnext
  exact hadvances.trans ((leads_run hpass).advances hadvances.grounded)

/-- Documents, passes and references keep a registry grounded. -/
theorem upkept_grounding : Upkept S.grounding fun arrival => S.documents arrival.document where
  waiting hr := hr.waiting
  setWaiting hr hwaiting := (hr.setWaiting hwaiting).upkeep
  upholds_bindRoot metas hdocument := (leads_bindRoot (.root hdocument) metas).upholds
  nextPass hr hnext := (advances_nextPass hr hnext).upkeep
  applyPropertyReferences hr happlied := (hr.applyPropertyReferences happlied).upkeep

/-- An empty registry is grounded. -/
theorem grounded_empty (options : RegistryOptions) (documents : Document → Prop) :
    ({ options } : Registry).Grounded (sourceOf options documents) where
  naming := rfl
  keyed := fun _ _ _ h => by cases h
  named := fun _ _ h => by cases h
  tables := fun _ _ h => by cases h
  entities := fun _ _ h => by cases h
  collections := fun _ _ h => by cases h
  passes := fun _ h => absurd h List.not_mem_nil
  waiting := fun _ h => absurd h List.not_mem_nil

/-- Every registry that a session is driven to is grounded in its documents. -/
theorem Driven.grounded {options : RegistryOptions} {documents : Document → Prop}
    (h : Driven options documents r) : r.Grounded (sourceOf options documents) :=
  (upkept_grounding.advances_of_driven (grounded_empty options documents) h).invariant

end Session

end ObjectMapping
