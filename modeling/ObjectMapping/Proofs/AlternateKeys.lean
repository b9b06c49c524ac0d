import ObjectMapping.Proofs.Unmarked

/-!
# Alternate keys

The references to properties that a session records are applied when it ends: each must lead to a
property, and one that is unique makes an alternate key of it.  This file says exactly what that
does to a registry.  Every reference leads to the same place no matter how many others were applied
before it, since marks do not show in the registry unmarked and places are found there; so all of
them can be applied if each could be applied first, and what they leave behind is described by the
places that they lead to in the beginning.
-/

namespace ObjectMapping.Registry

open Binding

variable {r r' : Registry}

/-! ## Applied references -/

/-- The place that a recorded reference leads to. -/
def placeOf? (r : Registry) (ref : PropertyReference) : Option PropertyPlace :=
  (r.resolveEntityName? ref.entity).bind (r.referencedPlace? · ref.property)

/-- Whether one of some references is unique and leads to a place. -/
def marks (r : Registry) (refs : List PropertyReference) (place : PropertyPlace) : Bool :=
  refs.any fun ref => ref.unique && r.placeOf? ref = some place

/-- Registries that are the same unmarked store the same entities under their names. -/
theorem StoredByName.of_unmarked_eq (h : r.StoredByName) (hsame : r'.unmarked = r.unmarked) :
    r'.StoredByName := by
  intro name e he
  have hunmarked : r.unmarked.entity? name = some e.unmarked := by
    rw [← hsame, entity?_unmarked, he, Option.map_some]
  rw [entity?_unmarked] at hunmarked
  obtain ⟨e', he', heq⟩ := Option.map_eq_some_iff.mp hunmarked
  exact (congrArg Entity.name heq).symm.trans (h name e' he')

/-- Registries that are the same unmarked resolve names alike. -/
theorem resolveEntityName?_of_unmarked_eq (hsame : r'.unmarked = r.unmarked) (name : String) :
    r'.resolveEntityName? name = r.resolveEntityName? name := by
  have hentity : ∀ (r : Registry) name, r.unmarked.hasEntity name = r.hasEntity name := by
    intro r name
    simp [hasEntity, unmarked, KeyedList.contains, List.any_map, Function.comp_def]
  have hself : ∀ r : Registry, r.unmarked.resolveEntityName? name = r.resolveEntityName? name := by
    intro r
    unfold resolveEntityName?
    rw [funext (hentity r)]
    rfl
  rw [← hself r', hsame, hself r]

/-- Registries that are the same unmarked lead every path to the same place. -/
theorem referencedPlace?_of_unmarked_eq (hsame : r'.unmarked = r.unmarked) (entity path : String) :
    r'.referencedPlace? entity path = r.referencedPlace? entity path := by
  rw [← referencedPlace?_unmarked r', hsame, referencedPlace?_unmarked]

/-- Registries that are the same unmarked lead every reference to the same place. -/
theorem placeOf?_of_unmarked_eq (hsame : r'.unmarked = r.unmarked) (ref : PropertyReference) :
    r'.placeOf? ref = r.placeOf? ref := by
  unfold placeOf?
  rw [resolveEntityName?_of_unmarked_eq hsame]
  simp only [referencedPlace?_of_unmarked_eq hsame]

/-- A reference is applied exactly if it leads to a place, which is marked if it is unique. -/
theorem applyPropertyReference_eq_ok {ref : PropertyReference} :
    r.applyPropertyReference ref = .ok r' ↔ ∃ place, r.placeOf? ref = some place ∧
      r' = if ref.unique then r.modifyPropertyAt place markAlternateKey else r := by
  unfold applyPropertyReference placeOf?
  cases r.resolveEntityName? ref.entity with
  | none => simp
  | some entity =>
    cases hplace : r.referencedPlace? entity ref.property with
    | none => simp [hplace]
    | some place =>
      simp only [Option.bind_some, hplace, Option.some.injEq, exists_eq_left', Except.ok.injEq]
      exact eq_comm

/-- Applying one reference hides its mark from the registry unmarked, and shows it at the place
that the reference leads to. -/
theorem applied_of_applyPropertyReference {ref : PropertyReference}
    (h : r.applyPropertyReference ref = .ok r') :
    r'.unmarked = r.unmarked ∧ ∀ place, r'.coreAt? place = (r.coreAt? place).map fun v =>
      if r.marks [ref] place then { v with alternateUniqueKey := true } else v := by
  obtain ⟨target, htarget, rfl⟩ := applyPropertyReference_eq_ok.mp h
  cases hunique : ref.unique with
  | false => simp [marks, hunique]
  | true =>
    refine ⟨unmarked_modifyPropertyAt r target, fun place => ?_⟩
    simp [coreAt?_modifyPropertyAt, marks, hunique, htarget, eq_comm]

/-- Some references are applied one after another exactly if each leads to a place to begin
with. -/
theorem exists_applied_iff (refs : List PropertyReference) :
    (∃ r', refs.foldlM applyPropertyReference r = .ok r') ↔
      ∀ ref ∈ refs, ∃ place, r.placeOf? ref = some place := by
  induction refs generalizing r with
  | nil => exact ⟨fun _ _ href => absurd href List.not_mem_nil, fun _ => ⟨r, rfl⟩⟩
  | cons ref refs ih =>
    simp only [List.foldlM_cons, List.forall_mem_cons, except_bind_eq_ok]
    constructor
    · rintro ⟨r', r₁, hfirst, hrest⟩
      obtain ⟨place, hplace, -⟩ := applyPropertyReference_eq_ok.mp hfirst
      have hsame := (applied_of_applyPropertyReference hfirst).1
      refine ⟨⟨place, hplace⟩, fun other hother => ?_⟩
      rw [← placeOf?_of_unmarked_eq hsame]
      exact ih.mp ⟨r', hrest⟩ other hother
    · rintro ⟨⟨place, hplace⟩, hall⟩
      have hfirst := applyPropertyReference_eq_ok.mpr ⟨place, hplace, rfl⟩
      have hsame := (applied_of_applyPropertyReference hfirst).1
      obtain ⟨r', hrest⟩ := ih.mpr fun other hother => by
        rw [placeOf?_of_unmarked_eq hsame]
        exact hall other hother
      exact ⟨r', _, hfirst, hrest⟩

/-- Applying some references hides the marks from the registry unmarked, and shows them at the
places that unique ones lead to.  By induction on the references, which lead to the same places in
between. -/
theorem applied_of_foldlM {refs : List PropertyReference}
    (h : refs.foldlM applyPropertyReference r = .ok r') :
    r'.unmarked = r.unmarked ∧ ∀ place, r'.coreAt? place = (r.coreAt? place).map fun v =>
      if r.marks refs place then { v with alternateUniqueKey := true } else v := by
  induction refs generalizing r with
  | nil => cases h; simp [marks]
  | cons ref refs ih =>
    rw [List.foldlM_cons] at h
    obtain ⟨r₁, hfirst, hrest⟩ := except_bind_eq_ok.mp h
    obtain ⟨hsame₁, hcore₁⟩ := applied_of_applyPropertyReference hfirst
    obtain ⟨hsame, hcore⟩ := ih hrest
    refine ⟨hsame.trans hsame₁, fun place => ?_⟩
    have hrefs : r₁.marks refs place = r.marks refs place := by
      simp only [marks, placeOf?_of_unmarked_eq hsame₁]
    have hcons : r.marks (ref :: refs) place = (r.marks [ref] place || r.marks refs place) := by
      simp [marks]
    rw [hcore, hcore₁, hrefs, hcons]
    cases r.coreAt? place with
    | none => rfl
    | some v => cases r.marks [ref] place <;> cases r.marks refs place <;> rfl

/-- References to properties are applied exactly.  Whatever the hierarchies of a registry look
like, reading and changing lead a path to the same property; the recorded references can be applied
exactly if each names a registered class on which its path leads to a property; and then each
unique one whose property has a core reads an alternate key back, while without marks the registry
is the one before and marks are where they were or where a unique reference leads. -/
theorem applyPropertyReferences_exact (h : r.StoredByName) :
    (∀ entity path,
      r.referencedProperty? entity path = (r.referencedPlace? entity path).bind r.propertyAt?) ∧
    ((∃ r', r.applyPropertyReferences = .ok r') ↔
      ∀ ref ∈ r.propertyReferences, ∃ entity p, r.resolveEntityName? ref.entity = some entity ∧
        r.referencedProperty? entity ref.property = some p) ∧
    ∀ r', r.applyPropertyReferences = .ok r' →
      (∀ ref ∈ r.propertyReferences, ref.unique = true → ∀ entity v,
        r.resolveEntityName? ref.entity = some entity →
        (r.referencedProperty? entity ref.property).bind Property.core? = some v →
        r'.resolveEntityName? ref.entity = some entity ∧
          (r'.referencedProperty? entity ref.property).bind Property.core?
            = some { v with alternateUniqueKey := true }) ∧
      r'.unmarked = r.unmarked ∧
      ∀ place, r'.coreAt? place = (r.coreAt? place).map fun v =>
        if r.marks r.propertyReferences place then { v with alternateUniqueKey := true } else v := by
  refine ⟨h.referencedProperty?_eq_propertyAt?, ?_, fun r' happlied => ?_⟩
  · rw [applyPropertyReferences, exists_applied_iff]
    refine forall₂_congr fun ref _ => ?_
    simp only [placeOf?, Option.bind_eq_some_iff]
    constructor
    · rintro ⟨place, entity, hentity, hplace⟩
      obtain ⟨p, hp⟩ := (h.exists_referencedPlace?_iff entity ref.property).mp ⟨place, hplace⟩
      exact ⟨entity, p, hentity, hp⟩
    · rintro ⟨entity, p, hentity, hp⟩
      obtain ⟨place, hplace⟩ := (h.exists_referencedPlace?_iff entity ref.property).mpr ⟨p, hp⟩
      exact ⟨place, entity, hentity, hplace⟩
  · obtain ⟨hsame, hcore⟩ := applied_of_foldlM happlied
    refine ⟨fun ref href hunique entity v hentity hv => ?_, hsame, hcore⟩
    refine ⟨by rw [resolveEntityName?_of_unmarked_eq hsame, hentity], ?_⟩
    rw [h.referencedProperty?_eq_propertyAt?, Option.bind_assoc] at hv
    obtain ⟨place, hplace, hv⟩ := Option.bind_eq_some_iff.mp hv
    have hmarks : r.marks r.propertyReferences place = true :=
      List.any_eq_true.mpr ⟨ref, href, by simp [hunique, placeOf?, hentity, hplace]⟩
    have hat : r'.coreAt? place = some { v with alternateUniqueKey := true } := by
      rw [hcore, coreAt?, hv, Option.map_some, if_pos hmarks]
    rw [(h.of_unmarked_eq hsame).referencedProperty?_eq_propertyAt?,
      referencedPlace?_of_unmarked_eq hsame, hplace]
    exact hat

/-- A root with a component and a joined property, a subclass known by an import, and a subclass of
itself; a unique reference leads through the component of the root. -/
def exampleCatalogue : Registry where
  entities :=
    { entries :=
        [("Item",
          { name := "Item", kind := .root {}, table := ⟨0⟩
            properties :=
              [{ name := "maker"
                 value := .component
                  { ownerEntity := "Item", roleName := "Item.maker"
                    properties := [{ name := "code", value := .simple {} }] } }]
            joins := [{
              table := ⟨1⟩
              properties := [{ name := "stock", value := .simple {} }] }] }),
         ("Book", { name := "Book", kind := .subclass "Item", table := ⟨0⟩ }),
         ("Circle", { name := "Circle", kind := .subclass "Circle", table := ⟨0⟩ })]
      nodup_keys := by decide }
  imports := .ofList [("Volume", "Book")]
  propertyReferences :=
    [{ entity := "Volume", property := "maker.code", unique := true },
     { entity := "Item", property := "stock" }]

theorem storedByName_exampleCatalogue : exampleCatalogue.StoredByName := by
  intro name e he
  have hentry := KeyedList.get?_eq_some_iff.mp he
  simp only [exampleCatalogue, List.mem_cons, List.not_mem_nil, or_false, Prod.mk.injEq] at hentry
  rcases hentry with ⟨rfl, rfl⟩ | ⟨rfl, rfl⟩ | ⟨rfl, rfl⟩ <;> rfl

/-- The references of the catalogue are applied, and the unique one is read back as an alternate
key. -/
theorem applyPropertyReferences_exact_exampleCatalogue :
    exampleCatalogue.StoredByName ∧ ∃ r', exampleCatalogue.applyPropertyReferences = .ok r' ∧
      (r'.referencedProperty? "Book" "maker.code").bind Property.core?
        = some { alternateUniqueKey := true } ∧
      r'.coreAt? ⟨"Item", .joined 0 0, []⟩ = some {} := by
  obtain ⟨-, hiff, hexact⟩ := applyPropertyReferences_exact storedByName_exampleCatalogue
  obtain ⟨r', happlied⟩ := hiff.mpr fun ref href => by
    simp only [exampleCatalogue, List.mem_cons, List.not_mem_nil, or_false] at href
    rcases href with rfl | rfl
    · exact ⟨"Book", _, by decide +kernel, rfl⟩
    · exact ⟨"Item", _, by decide +kernel, rfl⟩
  obtain ⟨hread, -, hcore⟩ := hexact r' happlied
  refine ⟨storedByName_exampleCatalogue, r', happlied, ?_, ?_⟩
  · exact (hread _ List.mem_cons_self rfl "Book" {} rfl rfl).2
  · rw [hcore]
    rfl

end ObjectMapping.Registry
