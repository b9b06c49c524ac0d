import ObjectMapping.Proofs.SideWrite

/-!
# Marked properties

At the end of a session the recorded references to properties are applied, one after another.
Each has to be to a registered class, and marks a property as an alternate key at most.  So all of
them together are a number of marks, which are side writes and leave everything but the entities
alone; in particular, every name means the same class as before.
-/

namespace ObjectMapping

/-- A mark below a property keeps its name and its meta attributes, and shows the same of a
collection. -/
theorem Property.same_modifyAt (members : List Nat) (p : Property) :
    (p.modifyAt Registry.markAlternateKey members).name = p.name ∧
      (p.modifyAt Registry.markAlternateKey members).backref = p.backref ∧
        (p.modifyAt Registry.markAlternateKey members).metas = p.metas := by
  cases members with
  | nil => exact ⟨rfl, rfl, rfl⟩
  | cons index rest =>
    unfold Property.modifyAt
    split <;> exact ⟨rfl, rfl, rfl⟩

namespace Registry

open Binding

/-- Marking a property of an entity as an alternate key. -/
inductive Mark : Registry → Registry → Prop
  | property (r : Registry) (place : PropertyPlace) :
      Mark r (r.modifyPropertyAt place markAlternateKey)

/-- Any number of marks. -/
def Marks : Registry → Registry → Prop := Relation.ReflTransGen Mark

variable {r r' : Registry}

/-- Marking a property changes only what skeletons do not show. -/
theorem Mark.sideWrite (h : Mark r r') : SideWrite r r' := by
  cases h with
  | property place =>
    refine .entity r place.entity fun e => e.skeleton_modifySlot place.slot fun p => ?_
    exact Property.name_modifyAt (f := markAlternateKey) (fun _ => rfl) p place.members

namespace Marks

theorem refl (r : Registry) : Marks r r := Relation.ReflTransGen.refl

theorem sideWrites (h : Marks r r') : SideWrites r r' :=
  Relation.ReflTransGen.mono (fun _ _ => Mark.sideWrite) _ _ h

/-- Marks leave everything but the entities alone. -/
theorem frame (h : Marks r r') : ∃ entities, r' = { r with entities } := by
  induction h with
  | refl => exact ⟨r.entities, rfl⟩
  | tail _ hmark ih =>
    obtain ⟨entities, rfl⟩ := ih
    cases hmark with
    | property => exact ⟨_, rfl⟩

/-- Every name means the same class as before. -/
theorem resolveEntityName? (h : Marks r r') (name : String) :
    r'.resolveEntityName? name = r.resolveEntityName? name := by
  have hentities : r'.hasEntity = r.hasEntity := funext h.sideWrites.hasEntity
  unfold Registry.resolveEntityName?
  rw [hentities]
  obtain ⟨entities, rfl⟩ := h.frame
  rfl

end Marks

/-- A reference that is applied is to a registered class, and marks a property at most. -/
theorem marks_of_applyPropertyReference {ref : PropertyReference}
    (h : r.applyPropertyReference ref = .ok r') :
    Marks r r' ∧ ∃ entity, r.resolveEntityName? ref.entity = some entity := by
  unfold applyPropertyReference at h
  split at h
  · cases h
  · next entity hentity =>
    refine ⟨?_, entity, hentity⟩
    split at h
    · cases h
    · cases h
      split
      · exact .single (.property r _)
      · exact .refl r

/-- If all recorded references can be applied, each is to a class that is registered, and properties
are marked at most.  By induction on the references, since names mean the same in between. -/
theorem marks_of_applyPropertyReferences (h : r.applyPropertyReferences = .ok r') :
    Marks r r' ∧ ∀ ref ∈ r.propertyReferences,
      ∃ entity, r.resolveEntityName? ref.entity = some entity := by
  unfold applyPropertyReferences at h
  generalize r.propertyReferences = refs at h ⊢
  induction refs generalizing r with
  | nil =>
    cases h
    exact ⟨.refl _, fun _ href => absurd href List.not_mem_nil⟩
  | cons ref refs ih =>
    rw [List.foldlM_cons] at h
    obtain ⟨r₁, hfirst, hrest⟩ := except_bind_eq_ok.mp h
    obtain ⟨hmarks, hresolved⟩ := marks_of_applyPropertyReference hfirst
    obtain ⟨hothers, hall⟩ := ih hrest
    refine ⟨Relation.ReflTransGen.trans hmarks hothers,
      List.forall_mem_cons.mpr ⟨hresolved, fun other hother => ?_⟩⟩
    rw [← hmarks.resolveEntityName?]
    exact hall other hother

/-- References that can be applied are to classes that are registered afterwards. -/
theorem resolved_of_applyPropertyReferences (h : r.applyPropertyReferences = .ok r') :
    ∀ ref ∈ r'.propertyReferences, ∃ entity, r'.resolveEntityName? ref.entity = some entity := by
  obtain ⟨hmarks, hresolved⟩ := marks_of_applyPropertyReferences h
  intro ref href
  rw [hmarks.resolveEntityName?]
  obtain ⟨entities, rfl⟩ := hmarks.frame
  exact hresolved ref href

end Registry

end ObjectMapping
