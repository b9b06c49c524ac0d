import ObjectMapping.Proofs.Declaration

/-!
# Faces of properties

What the deferred passes add to entities are synthetic properties that show a collection from
the side of its elements.  The face of a property is what such a property is about: its name,
its columns and formulas, whether it is updated and selected, and the collection that it shows.
Until a session is ended no face shows a collection.  Preparation changes no face, and neither
does marking the properties that others refer to as alternate keys.
-/

namespace ObjectMapping

open Binding Registry

/-- What a property shows of itself. -/
structure PropertyFace where
  name : String
  selectables : List Selectable
  updatable : Bool
  selectable : Bool
  backref : Option Backref
deriving DecidableEq

/-- The face of a property. -/
def Property.face (p : Property) : PropertyFace where
  name := p.name
  selectables := p.value.selectables
  updatable := p.updatable
  selectable := p.selectable
  backref := p.backref

/-- The faces of the properties of an entity. -/
structure EntityFace where
  /-- Those of its own properties, in order. -/
  own : List PropertyFace
  /-- Those of the properties of its joins, in order. -/
  joined : List PropertyFace
deriving DecidableEq

/-- The face of an entity. -/
def Entity.face (e : Entity) : EntityFace where
  own := e.properties.map Property.face
  joined := e.joins.flatMap fun j => j.properties.map Property.face

namespace EntityFace

/-- All faces of an entity, those of joins last. -/
def all (k : EntityFace) : List PropertyFace := k.own ++ k.joined

/-- The face of an entity after some properties are added. -/
def append (k : EntityFace) (ps : List PropertyFace) : EntityFace := { k with own := k.own ++ ps }

end EntityFace

/-- The faces of an entity are those of its properties. -/
theorem Entity.all_face (e : Entity) : e.face.all = e.allProperties.map Property.face := by
  simp [EntityFace.all, Entity.face, Entity.allProperties, List.map_flatMap]

/-- An added property shows its face after the others. -/
theorem Entity.face_addProperty (e : Entity) (p : Property) :
    (e.addProperty p).face = e.face.append [p.face] := by
  simp [Entity.face, Entity.addProperty, EntityFace.append]

/-! ## Changes that no face shows -/

/-- The columns and formulas of properties are those of each, in order. -/
theorem Property.selectablesOfAll_eq (ps : List Property) :
    Property.selectablesOfAll ps = (ps.map fun p => p.value.selectables).flatten := by
  induction ps with
  | nil => rfl
  | cons p ps ih =>
    rw [Property.selectablesOfAll, ih, List.map_cons, List.flatten_cons]
    cases p
    rfl

/-- A change below a property keeps its face if the change of the innermost one keeps the face
of that. -/
theorem Property.face_modifyAt {f : Property → Property} (h : ∀ p, (f p).face = p.face)
    (members : List Nat) (p : Property) : (p.modifyAt f members).face = p.face := by
  induction members generalizing p with
  | nil => exact h p
  | cons index rest ih =>
    unfold Property.modifyAt
    split
    · next c hvalue =>
      have hsame : (c.properties.modify index fun p => p.modifyAt f rest).map
          (fun p => p.value.selectables) = c.properties.map fun p => p.value.selectables :=
        map_modify_of_eq (fun p : Property => p.value.selectables)
          (fun p => congrArg PropertyFace.selectables (ih p)) _ _
      cases c
      simp only [Property.face, hvalue, Value.selectables, Component.selectables,
        Property.selectablesOfAll_eq, hsame]
    · rfl

/-- Marking a property as an alternate key keeps its face. -/
theorem Registry.face_markAlternateKey (p : Property) : (markAlternateKey p).face = p.face := by
  obtain ⟨_, _, value, _⟩ := p
  cases value <;> rfl

namespace Entity

/-- Changing a property that keeps its face keeps the face of the entity. -/
theorem face_modifySlot (e : Entity) (slot : PropertySlot) {f : Property → Property}
    (h : ∀ p, (f p).face = p.face) : (e.modifySlot f slot).face = e.face := by
  have hfaces : ∀ (i : Nat) (ps : List Property),
      (ps.modify i f).map Property.face = ps.map Property.face :=
    fun i ps => map_modify_of_eq Property.face h ps i
  cases slot with
  | own index => simp [modifySlot, face, hfaces]
  | joined join index =>
    have hjoin : ∀ j : Join, ({ j with properties := j.properties.modify index f } : Join
        ).properties.map Property.face = j.properties.map Property.face :=
      fun j => hfaces index j.properties
    simp only [modifySlot, face, List.flatMap_def]
    rw [map_modify_of_eq (fun j : Join => j.properties.map Property.face) hjoin]
  | identifier => rfl

end Entity

/-! ## The faces of a registry -/

namespace Registry

/-- The faces of the registered entities by name, in the order of registration. -/
def faces (r : Registry) : List (String × EntityFace) :=
  r.entities.entries.map fun e => (e.1, e.2.face)

/-- Changing an entity in what its face does not show leaves the faces alone. -/
theorem faces_modifyEntity_of_eq (r : Registry) (name : String) {f : Entity → Entity}
    (h : ∀ e, (f e).face = e.face) : (r.modifyEntity name f).faces = r.faces := by
  simp only [faces, modifyEntity, KeyedList.modify, List.map_map]
  apply List.map_congr_left
  intro e _
  by_cases he : e.1 = name <;> simp [he, h]

/-- A registry is like another in what the deferred passes are about, apart from the queue. -/
theorem Alike.faces {r r' : Registry} (h : Alike r r') : r'.faces = r.faces := by
  rw [Registry.faces, Registry.faces, h.entities]

/-- Preparation changes no face. -/
theorem Preparation.faces {r r' : Registry} (h : Preparation r r') : r'.faces = r.faces := by
  cases h with
  | quiet h => exact h.alike.faces
  | collection h =>
    obtain ⟨-, rfl⟩ := addCollection_eq_ok.mp h
    rfl
  | propertyRef => rfl
  | mark name => exact faces_modifyEntity_of_eq r name fun _ => rfl

/-- No number of steps of preparation changes a face. -/
theorem Preparations.faces {r r' : Registry} (h : Preparations r r') : r'.faces = r.faces := by
  induction h with
  | refl => rfl
  | tail _ hstep ih => exact hstep.faces.trans ih

/-- Marking properties changes no face. -/
theorem Marks.faces {r r' : Registry} (h : Marks r r') : r'.faces = r.faces := by
  induction h with
  | refl => rfl
  | tail _ hmark ih =>
    cases hmark with
    | property place =>
      refine (faces_modifyEntity_of_eq _ place.entity fun e => ?_).trans ih
      exact e.face_modifySlot place.slot
        (Property.face_modifyAt face_markAlternateKey place.members)

/-- Applying the recorded references to properties changes neither a face nor a collection, and
queues no pass. -/
theorem applyPropertyReferences_frame {r r' : Registry} (h : r.applyPropertyReferences = .ok r') :
    r'.faces = r.faces ∧ r'.collections = r.collections ∧ r'.passes = r.passes := by
  have hmarks := (marks_of_applyPropertyReferences h).1
  refine ⟨hmarks.faces, ?_⟩
  obtain ⟨entities, rfl⟩ := hmarks.frame
  exact ⟨rfl, rfl⟩

end Registry

end ObjectMapping
