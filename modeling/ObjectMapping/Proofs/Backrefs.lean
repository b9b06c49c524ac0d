import ObjectMapping.Proofs.Shown

/-!
# Backrefs of a collection

A backref is a synthetic property of an entity that shows a collection of such entities from
their side: who owns the collection, or at which index of it the entity stands.  A collection is
to have the first if its elements are entities that hold the key themselves, if it is not
inverse, and if its key may not be null; it is to have the second in addition if it is indexed by
something without a formula.  The pass of a collection shows exactly the backrefs that the
collection is to have.
-/

namespace ObjectMapping

open Binding Registry

/-! ## Which collections are shown -/

namespace Collection

/-- The elements are entities that hold the key themselves, and the key is the collection's to
write and not null. -/
def ownsElements (c : Collection) : Bool :=
  c.isOneToMany && !c.inverse && c.key.any fun key => !key.isNullable

/-- The collection is indexed, and its index has no formula. -/
def showsIndex (c : Collection) : Bool :=
  c.kind.isIndexed && c.index.any fun index => !index.hasFormula

/-- Whether the elements of a collection show it by a backref of a kind. -/
def hasBackref (c : Collection) : BackrefKind → Bool
  | .collection => c.ownsElements
  | .index => c.ownsElements && c.showsIndex

/-- The value of a collection that a backref of a kind shows. -/
def shownValue? (c : Collection) : BackrefKind → Option Value
  | .collection => c.key
  | .index => c.index

/-- The entity of the elements, if they are entities that hold the key themselves. -/
def target? (c : Collection) : Option String :=
  match c.element with
  | some (.oneToMany v) => v.referencedEntity
  | _ => none

/-- The name under which an element declares a collection. -/
def declaredName (c : Collection) (node : Element) : String :=
  (node.attribute? "name").getD c.propertyName

end Collection

/-- The name of a backref of a kind, for a collection of a name. -/
def backrefName : BackrefKind → String → String
  | .collection, name => "_" ++ name ++ "Backref"
  | .index, name => "_" ++ name ++ "IndexBackref"

/-- Whether a property shows the collection of a role by a backref of a kind. -/
def PropertyFace.shows (kind : BackrefKind) (role : String) (f : PropertyFace) : Bool :=
  f.backref.any fun b => b.kind = kind && b.collectionRole = role

/-! ## What a backref is like -/

namespace Collection

/-- A property shows a collection by a backref of a kind, on the entity of its elements. -/
structure ShownAs (c : Collection) (node : Element) (kind : BackrefKind) (target : String)
    (p : Property) : Prop where
  target : c.target? = some target
  selectables : (c.shownValue? kind).map Value.selectables = some p.value.selectables
  name : p.name = backrefName kind (c.declaredName node)
  backref : p.backref = some ⟨kind, c.role, c.ownerEntity⟩
  updatable : p.updatable = false
  selectable : p.selectable = false

/-- What shows a collection can be told from the face of a property. -/
theorem ShownAs.congr {c : Collection} {node : Element} {kind : BackrefKind} {target : String}
    {p p' : Property} (h : c.ShownAs node kind target p) (hface : p'.face = p.face) :
    c.ShownAs node kind target p' where
  target := h.target
  selectables := h.selectables.trans (congrArg some (congrArg PropertyFace.selectables hface).symm)
  name := (congrArg PropertyFace.name hface).trans h.name
  backref := (congrArg PropertyFace.backref hface).trans h.backref
  updatable := (congrArg PropertyFace.updatable hface).trans h.updatable
  selectable := (congrArg PropertyFace.selectable hface).trans h.selectable

/-- A backref shows the value that its kind says. -/
theorem shownAs_of_backref? {c : Collection} (htargeted : c.Targeted) {node : Element}
    {kind : BackrefKind} {s : String × Property} (h : c.backref? node kind = some s) :
    c.ShownAs node kind s.1 s.2 := by
  unfold Collection.backref? at h
  split at h
  · next v key helement hkey =>
    obtain ⟨target, htarget⟩ := htargeted v helement
    have hentity : c.target? = some (v.referencedEntity.getD "") := by
      simp [target?, helement, htarget]
    dsimp only at h
    split at h
    · cases h
    · cases kind with
      | collection =>
        cases h
        exact ⟨hentity, congrArg (Option.map Value.selectables) hkey, rfl, rfl, rfl, rfl⟩
      | index =>
        obtain ⟨⟨name, access, value⟩, hindex, h⟩ := Option.map_eq_some_iff.mp h
        obtain ⟨index, hsome, hfields⟩ := Option.map_eq_some_iff.mp hindex
        cases hfields
        cases h
        exact ⟨hentity, congrArg (Option.map Value.selectables) hsome, rfl, rfl, rfl, rfl⟩
  · cases h

/-- A collection is shown exactly if it owns its elements and has the value to show. -/
theorem isSome_backref? (c : Collection) (node : Element) (kind : BackrefKind) :
    (c.backref? node kind).isSome = (c.ownsElements && (c.shownValue? kind).isSome) := by
  unfold Collection.backref?
  split
  · next v key helement hkey =>
    dsimp only
    split
    · next hhidden =>
      have hnot : c.ownsElements = false := by
        rw [Bool.or_eq_true] at hhidden
        rcases hhidden with hinverse | hnullable
        · simp [ownsElements, hinverse]
        · simp [ownsElements, hkey, hnullable]
      rw [hnot]
      rfl
    · next hvisible =>
      have howns : c.ownsElements = true := by
        rw [Bool.or_eq_true, not_or] at hvisible
        simp [ownsElements, isOneToMany, helement, hkey, hvisible.1, hvisible.2]
      cases kind with
      | collection => simp [howns, shownValue?, hkey]
      | index => simp [howns, shownValue?]
  · next hother =>
    have hnot : c.ownsElements = false := by
      cases helement : c.element with
      | none => simp [ownsElements, isOneToMany, helement]
      | some element =>
        cases hkey : c.key with
        | none => simp [ownsElements, hkey]
        | some key =>
          cases element <;> simp_all [ownsElements, isOneToMany]
    rw [hnot]
    rfl

/-! ## What a pass shows -/

/-- The backref of a kind that the pass of a collection adds. -/
def shown? (c : Collection) (node : Element) : BackrefKind → Option (String × Property)
  | .collection => c.backref? node .collection
  | .index => c.indexBackref? c.kind.passKind node

/-- A pass shows the ownership first, and the index second. -/
theorem shown_eq (c : Collection) (node : Element) :
    c.shown c.kind.passKind node
      = (c.shown? node .collection).toList ++ (c.shown? node .index).toList := rfl

/-- A pass shows exactly what the collection says that it does. -/
theorem isSome_shown? (c : Collection) (node : Element) (kind : BackrefKind) :
    (c.shown? node kind).isSome = c.hasBackref kind := by
  cases kind with
  | collection =>
    rw [shown?, isSome_backref?, hasBackref]
    cases hkey : c.key <;> simp [shownValue?, ownsElements, hkey]
  | index =>
    have hindexed : (if c.index.any Value.hasFormula then none
        else c.backref? node .index).isSome
          = (c.ownsElements && c.index.any fun index => !index.hasFormula) := by
      cases hindex : c.index with
      | none => simp [isSome_backref?, shownValue?, hindex]
      | some index =>
        cases hformula : index.hasFormula with
        | true => simp [hformula]
        | false => simp [hformula, isSome_backref?, shownValue?, hindex]
    unfold shown? indexBackref? hasBackref showsIndex
    cases c.kind <;>
      simp [CollectionKind.passKind, CollectionKind.isIndexed, CollectionKind.isListLike, hindexed]

/-- The index is shown by a backref of that kind. -/
theorem backref?_of_indexBackref? {c : Collection} {kind : PassKind} {node : Element}
    {s : String × Property} (h : c.indexBackref? kind node = some s) :
    c.backref? node .index = some s := by
  unfold indexBackref? at h
  split at h
  · split at h
    · cases h
    · exact h
  · split at h
    · cases h
    · exact h
  · cases h
  · cases h

/-- Whatever a pass shows is a backref of its collection. -/
theorem shownAs_of_shown? {c : Collection} (htargeted : c.Targeted) {node : Element}
    {kind : BackrefKind} {s : String × Property} (h : c.shown? node kind = some s) :
    c.ShownAs node kind s.1 s.2 := by
  cases kind with
  | collection => exact shownAs_of_backref? htargeted h
  | index => exact shownAs_of_backref? htargeted (backref?_of_indexBackref? h)

/-- The backrefs that a pass shows are of the one kind or the other. -/
theorem mem_shown {c : Collection} {node : Element} {s : String × Property} :
    s ∈ c.shown c.kind.passKind node ↔ ∃ kind, c.shown? node kind = some s := by
  rw [shown_eq, List.mem_append, Option.mem_toList, Option.mem_toList]
  constructor
  · rintro (hownership | hindex)
    · exact ⟨.collection, hownership⟩
    · exact ⟨.index, hindex⟩
  · rintro ⟨kind, hkind⟩
    cases kind with
    | collection => exact .inl hkind
    | index => exact .inr hkind

/-- The backrefs of a kind that a pass shows, counted. -/
theorem countP_shown {c : Collection} (htargeted : c.Targeted) (node : Element)
    (kind : BackrefKind) :
    ((c.shown c.kind.passKind node).map fun s => s.2.face).countP (·.shows kind c.role)
      = if c.hasBackref kind then 1 else 0 := by
  have hone : ∀ shownKind, ((c.shown? node shownKind).toList.map fun s => s.2.face).countP
      (·.shows kind c.role) = if shownKind = kind ∧ c.hasBackref shownKind then 1 else 0 := by
    intro shownKind
    rw [← isSome_shown? c node]
    cases hshown : c.shown? node shownKind with
    | none => simp
    | some s =>
      have hbackref := (shownAs_of_shown? htargeted hshown).backref
      simp [PropertyFace.shows, Property.face, hbackref]
  rw [shown_eq, List.map_append, List.countP_append, hone, hone]
  cases kind <;> simp

/-- The backrefs by which a collection is shown on an entity, that of the ownership first. -/
def backrefsOn (c : Collection) (target : String) : List Backref :=
  if c.target? = some target then
    ([.collection, .index].filter c.hasBackref).map fun kind => ⟨kind, c.role, c.ownerEntity⟩
  else []

/-- A pass shows the backrefs of its collection on the entity of the elements. -/
theorem filterMap_facesOn_shown {c : Collection} (htargeted : c.Targeted) (node : Element)
    (target : String) :
    (facesOn target (c.shown c.kind.passKind node)).filterMap PropertyFace.backref
      = c.backrefsOn target := by
  have hone : ∀ kind, (facesOn target (c.shown? node kind).toList).filterMap PropertyFace.backref
      = if c.target? = some target ∧ c.hasBackref kind then [⟨kind, c.role, c.ownerEntity⟩]
        else [] := by
    intro kind
    rw [← isSome_shown? c node]
    cases hshown : c.shown? node kind with
    | none => simp [facesOn]
    | some s =>
      have hshownAs := shownAs_of_shown? htargeted hshown
      rw [hshownAs.target]
      by_cases hs : s.1 = target
      · simp [facesOn, hs, Property.face, hshownAs.backref]
      · simp [facesOn, hs]
  rw [shown_eq, facesOn_append, List.filterMap_append, hone, hone, backrefsOn]
  by_cases htarget : c.target? = some target
  · cases hownership : c.hasBackref .collection <;> cases hindex : c.hasBackref .index <;>
      simp [htarget, hownership, hindex]
  · simp [htarget]

end Collection

end ObjectMapping
