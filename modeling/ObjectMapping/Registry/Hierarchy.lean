import ObjectMapping.Registry.Basic

/-!
# Hierarchies

An entity stands in a chain of superclasses that ends at a root.  The identifier, the
persister and the properties that may be referred to are found along the chain.  The chain
of a registry whose superclasses go in circles is cut after one entity more than there are.
-/

namespace ObjectMapping.Registry

/-- The entity of a name and its superclasses, at most as many as the bound says. -/
def chainWithin (r : Registry) : Nat → String → List Entity
  | 0, _ => []
  | bound + 1, name =>
    match r.entity? name with
    | none => []
    | some e =>
      e :: match e.superclass? with
        | none => []
        | some superclass => r.chainWithin bound superclass

/-- The entity of a name followed by its superclasses, ending at the root. -/
def superclassChain (r : Registry) (name : String) : List Entity :=
  r.chainWithin (r.entities.size + 1) name

/-- The root of an entity's hierarchy. -/
def rootOf? (r : Registry) (name : String) : Option Entity :=
  (r.superclassChain name).getLast?.filter Entity.isRoot

/-- Changes the root of an entity's hierarchy. -/
def modifyRootOf (r : Registry) (name : String) (f : RootData → RootData) : Registry :=
  match r.rootOf? name with
  | some root => r.modifyEntity root.name (·.modifyRoot f)
  | none => r

/-- The identifier of an entity's hierarchy. -/
def identifierValue? (r : Registry) (name : String) : Option Value :=
  ((r.rootOf? name).bind Entity.root?).bind RootData.identifierValue?

/-- Whether a persister is set on an entity, on a superclass, or for the hierarchy. -/
def hasPersister (r : Registry) (name : String) : Bool :=
  let chain := r.superclassChain name
  chain.any (·.persister.isSome)
    || ((chain.getLast?.bind Entity.root?).bind RootData.defaultPersister).isSome

/-! ## Referring to properties -/

/-- The property that a path from an entity leads to: a declared, joined or identifier
property of the entity or a superclass, and then properties of components. -/
def referencedProperty? (r : Registry) (entity path : String) : Option Property :=
  let (head, steps) := pathSteps path
  ((r.superclassChain entity).findSome? (·.referableProperty? head)).bind (·.below? steps)

/-- Where a registry holds a property: an entity, a slot of it, and the members of components
that lead on from there. -/
structure PropertyPlace where
  entity : String
  slot : PropertySlot
  members : List Nat := []
deriving DecidableEq, Inhabited

/-- The property at a place. -/
def propertyAt? (r : Registry) (place : PropertyPlace) : Option Property :=
  ((r.entity? place.entity).bind (·.slot? place.slot)).bind (·.at? place.members)

/-- Changes the property at a place, if there is one. -/
def modifyPropertyAt (r : Registry) (place : PropertyPlace) (f : Property → Property) :
    Registry :=
  r.modifyEntity place.entity (·.modifySlot (·.modifyAt f place.members) place.slot)

/-- The first entity of a chain with a property that may be referred to by a name. -/
def propertyOwner? (r : Registry) (entity name : String) : Option Entity :=
  (r.superclassChain entity).find? (·.hasReferable name)

/-- The place that a path from an entity leads to for a change: the owner of the head is sought
first, and the place in what is registered under the owner's name. -/
def referencedPlace? (r : Registry) (entity path : String) : Option PropertyPlace := do
  let (head, steps) := pathSteps path
  let owner ← r.propertyOwner? entity head
  let registered ← r.entity? owner.name
  let slot ← registered.referableSlot? head
  let p ← registered.slot? slot
  let members ← p.locate? steps
  return { entity := owner.name, slot, members }

/-- Marks the columns of a property as an alternate key. -/
def markAlternateKey (p : Property) : Property :=
  { p with value := p.value.modifySimple ({ · with alternateUniqueKey := true }) }

/-- Applies one reference to a property: it must lead to one, which becomes an alternate key
if the reference is unique. -/
def applyPropertyReference (r : Registry) (ref : PropertyReference) :
    Except MappingError Registry :=
  match r.resolveEntityName? ref.entity with
  | none => .error (.unmappedReferencedClass ref.entity)
  | some entity =>
    match r.referencedPlace? entity ref.property with
    | none => .error (.referencedPropertyNotFound ref.property entity)
    | some place => .ok <| if ref.unique then r.modifyPropertyAt place markAlternateKey else r

/-- Applies every recorded reference to a property, oldest first. -/
def applyPropertyReferences (r : Registry) : Except MappingError Registry :=
  r.propertyReferences.foldlM applyPropertyReference r

end ObjectMapping.Registry
