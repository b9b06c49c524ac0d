import ObjectMapping.Proofs.Marking
import ObjectMapping.Proofs.Preparation
import ObjectMapping.Proofs.Upkeep

/-!
# Reading definitions

Preparation leaves the definitions of a registry alone.  So everything that a pass looks up while
it binds the contents of a collection is looked up in the same definitions, and what it binds is
what the element of the collection says if it is read in the registry that the pass starts from.
-/

namespace ObjectMapping

open Binding Registry

/-! ## Definitions that stay -/

namespace Registry

/-- Registries in which the same aliases and filters are defined. -/
structure SameDefinitions (r r' : Registry) : Prop where
  types : r'.typeDefinitions = r.typeDefinitions
  filters : r'.filterDefinitions = r.filterDefinitions

variable {r r' r'' : Registry}

namespace SameDefinitions

theorem refl (r : Registry) : SameDefinitions r r := ⟨rfl, rfl⟩

/-- Definitions that are kept twice are kept. -/
theorem trans (h : SameDefinitions r r') (h' : SameDefinitions r' r'') : SameDefinitions r r'' :=
  ⟨h'.types.trans h.types, h'.filters.trans h.filters⟩

/-- Steps that leave definitions alone. -/
theorem of_steps {S : Registry → Registry → Prop} (hS : ∀ r r', S r r' → SameDefinitions r r')
    (h : Relation.ReflTransGen S r r') : SameDefinitions r r' := by
  induction h with
  | refl => exact refl r
  | tail _ hstep ih => exact ih.trans (hS _ _ hstep)

/-- Types are resolved alike. -/
theorem declaredType (h : SameDefinitions r r') : r'.declaredType = r.declaredType := by
  funext node
  unfold Registry.declaredType DeclaredType.resolve Registry.typeDefinition?
  rw [h.types]

/-- Filters get the same conditions. -/
theorem filterUse (h : SameDefinitions r r') : r'.filterUse = r.filterUse := by
  funext node
  unfold Registry.filterUse Registry.filterDefinition?
  rw [h.filters]

/-- What a child of a collection says is read alike. -/
theorem readContent (h : SameDefinitions r r') : r'.readContent = r.readContent := by
  funext t child
  unfold Registry.readContent
  rw [h.declaredType, h.filterUse]

/-- So is what a child of a map says of its keys. -/
theorem readMapKey (h : SameDefinitions r r') : r'.readMapKey = r.readMapKey := by
  funext t child
  unfold Registry.readMapKey
  rw [h.declaredType]

/-- So is what an element says of an index. -/
theorem readIndex (h : SameDefinitions r r') : r'.readIndex = r.readIndex := by
  funext t node kind
  unfold Registry.readIndex
  rw [h.declaredType, h.readMapKey]

/-- So is what an element says of all contents. -/
theorem readContents (h : SameDefinitions r r') : r'.readContents = r.readContents := by
  funext kind node
  unfold Registry.readContents
  rw [h.readContent, h.readIndex]

end SameDefinitions

/-- Quiet writes keep definitions. -/
theorem QuietWrite.sameDefinitions (h : QuietWrite r r') : SameDefinitions r r' := by
  cases h with
  | table | tableBinding | auxiliaryObject | propertyReference | defaults => exact ⟨rfl, rfl⟩
  | addTable q => rcases r.addTable_cases q with h | ⟨id, h⟩ | h <;> rw [h] <;> exact ⟨rfl, rfl⟩
  | addDenormalizedTable h =>
    cases eq_of_addDenormalizedTable h
    exact ⟨rfl, rfl⟩
  | addImport h => obtain ⟨-, rfl⟩ | ⟨-, rfl⟩ := addImportUnless_eq_ok.mp h <;> exact ⟨rfl, rfl⟩
  | addQuery h =>
    obtain ⟨-, rfl⟩ := addQuery_eq_ok.mp h
    exact ⟨rfl, rfl⟩
  | addSqlQuery h =>
    obtain ⟨-, rfl⟩ := addSqlQuery_eq_ok.mp h
    exact ⟨rfl, rfl⟩
  | addResultSet h =>
    obtain ⟨-, rfl⟩ := addResultSet_eq_ok.mp h
    exact ⟨rfl, rfl⟩

/-- So does preparation. -/
theorem Preparation.sameDefinitions (h : Preparation r r') : SameDefinitions r r' := by
  cases h with
  | quiet h => exact h.sameDefinitions
  | collection h =>
    obtain ⟨-, rfl⟩ := addCollection_eq_ok.mp h
    exact ⟨rfl, rfl⟩
  | propertyRef | mark => exact ⟨rfl, rfl⟩

/-- Preparation leaves definitions alone. -/
theorem Preparations.sameDefinitions (h : Preparations r r') : SameDefinitions r r' :=
  .of_steps (fun _ _ => Preparation.sameDefinitions) h

/-- So does the application of recorded references. -/
theorem sameDefinitions_applyPropertyReferences (h : r.applyPropertyReferences = .ok r') :
    SameDefinitions r r' := by
  obtain ⟨entities, rfl⟩ := (marks_of_applyPropertyReferences h).1.frame
  exact ⟨rfl, rfl⟩

end Registry

namespace Binding

/-- The definitions stay. -/
def fixedDefinitions : Upkeep where
  invariant _ := True
  keeps := SameDefinitions
  refl := .refl
  trans := .trans

variable {α : Type} {m : Binding α} {r : Registry}

/-- A computation that prepares leaves definitions alone. -/
theorem Prepares.fixes (h : m.Prepares) : Upholds fixedDefinitions m r fun _ _ => True :=
  .of_steps h fun _ _ hstep _ => ⟨hstep.sameDefinitions, trivial⟩

/-- So does a steady computation. -/
theorem Steady.fixes (h : m.Steady) : Upholds fixedDefinitions m r fun _ _ => True :=
  h.prepares.fixes

end Binding

/-! ## Values and filters -/

section

variable {r : Registry}

/-- A simple value gets the type that its element means. -/
theorem reads_bindSimpleValue (site : ColumnSite) (node : Element) :
    Upholds fixedDefinitions (bindSimpleValue site node) r fun v _ =>
      v.type = r.declaredType node := by
  unfold bindSimpleValue
  exact .get_bind (.bind (steady_bindColumnsOrFormula _ _).fixes fun _ _ _ _ => .pure rfl)

/-- The type of a key is that of its simple value. -/
theorem reads_bindCollectionKey (c : Collection) (owner : Owner) (node : Element) :
    Upholds fixedDefinitions (bindCollectionKey c owner node) r fun v _ =>
      v.type? = some (r.declaredType node) := by
  unfold bindCollectionKey
  refine .get_bind (.ofExcept_bind fun wrapped _ => ?_)
  refine .bind (reads_bindSimpleValue _ _) fun base r₁ _ htype => ?_
  refine .ite (fun _ => .pure (congrArg some htype)) fun _ => ?_
  exact .bind (steady_changeTable _ (f := (·.requireColumns _)) (fun _ => rfl)
    fun t => .requireColumns t _).fixes
    fun _ _ _ _ => .pure (congrArg some htype)

/-- A filter gets the condition that its element means. -/
theorem reads_bindFilterUse (node : Element) :
    Upholds fixedDefinitions (bindFilterUse node) r fun f _ => r.filterUse node = .ok f := by
  unfold bindFilterUse
  exact .get_bind (.ofExcept fun _ => id)

/-- By induction on the elements, which are all read in the same definitions. -/
theorem reads_bindFilterUses (nodes : List Element) :
    Upholds fixedDefinitions (nodes.mapM bindFilterUse) r fun fs _ =>
      nodes.mapM r.filterUse = .ok fs := by
  induction nodes generalizing r with
  | nil => exact .pure rfl
  | cons node rest ih =>
    rw [List.mapM_cons]
    refine .bind (reads_bindFilterUse node) fun f r₁ hsame hf => ?_
    refine .bind ih fun fs r₂ _ hfs => .pure ?_
    rw [hsame.filterUse] at hfs
    rw [List.mapM_cons, hf, hfs]
    rfl

/-! ## Keys and elements -/

/-- The filters of a many-to-many get the conditions that their elements mean, and its element has
no simple type. -/
theorem reads_bindManyToMany (scope : Scope) (c : Collection) (node : Element) :
    Upholds fixedDefinitions (bindManyToMany scope c node) r fun c' _ =>
      (node.childrenNamed "filter").mapM r.filterUse = .ok c'.manyToManyFilters ∧
        c'.reading = { c.reading with element := none, filters := c'.manyToManyFilters } := by
  unfold bindManyToMany
  refine .bind (steady_bindManyToOne _ _ _).fixes fun v r₁ hsame _ => ?_
  refine .bind (Quiet.prepares (.modify fun r => quietWrites_referTo r _)).fixes
    fun _ r₂ hsame₁ _ => ?_
  refine .bind (reads_bindFilterUses _) fun filters r₃ _ hfilters => ?_
  rw [(hsame.trans hsame₁).filterUse] at hfilters
  exact .ite (fun _ => .throw_bind _ _) fun _ => .pure ⟨hfilters, rfl⟩

/-- A child of a collection's element is bound as it reads. -/
theorem reads_bindContent (scope : Scope) (owner : Owner) (c : Collection) (node : Element) :
    Upholds fixedDefinitions (bindContent scope owner c node) r fun c' _ =>
      r.readContent c.reading node = .ok c'.reading := by
  unfold bindContent Registry.readContent
  dsimp only
  generalize node.tag? = tag
  split
  · refine .bind (reads_bindCollectionKey c owner node) fun v r₁ _ htype => .pure ?_
    rw [← htype]
    rfl
  · refine .bind (reads_bindSimpleValue _ _) fun v r₁ _ htype => .pure ?_
    rw [← htype]
    rfl
  · refine .bind (reads_bindManyToMany scope c node) fun c' r₁ _ ⟨hfilters, hreading⟩ => .pure ?_
    show (_ >>= _ : Except MappingError ContentReading) = .ok c'.reading
    rw [hfilters, hreading]
    rfl
  · exact .bind (prepares_bindComponent _ _ _).fixes fun v r₁ _ _ => .pure rfl
  · exact .bind (steady_bindAny _ _ _).fixes fun v r₁ _ _ => .pure rfl
  · exact .ofExcept_bind fun _ _ => .pure rfl
  · refine .pure ?_
    split
    all_goals first | rfl | contradiction

/-- By induction on the children, which are all read in the same definitions. -/
theorem reads_bindContentsOf (scope : Scope) (owner : Owner) (c : Collection)
    (children : List Element) :
    Upholds fixedDefinitions (bindContentsOf scope owner c children) r fun c' _ =>
      children.foldlM r.readContent c.reading = .ok c'.reading := by
  induction children generalizing r c with
  | nil => exact .pure rfl
  | cons node rest ih =>
    refine .bind (reads_bindContent scope owner c node) fun c₁ r₁ hsame hfirst => ?_
    refine (ih c₁).mono fun c' _ _ hrest => ?_
    rw [hsame.readContent] at hrest
    rw [List.foldlM_cons, hfirst]
    exact hrest

/-! ## Indexes -/

/-- A child of a map's element is bound as it reads. -/
theorem reads_bindMapKey (scope : Scope) (c : Collection) (node : Element) :
    Upholds fixedDefinitions (bindMapKey scope c node) r fun c' _ =>
      c'.reading = r.readMapKey c.reading node := by
  unfold bindMapKey
  dsimp only
  split <;> rename_i htag
  · refine .bind (reads_bindSimpleValue _ _) fun v r₁ _ htype => ?_
    refine .ite (fun _ => .throw_bind _ _) fun _ => .pure ?_
    rw [Registry.readMapKey, htag, ← htype]
    rfl
  · refine .bind (steady_bindManyToOne _ _ _).fixes fun v r₁ _ _ => ?_
    refine .bind (Prepares.fixes (.modify fun r => (quietWrites_referTo r _).preparations))
      fun _ r₂ _ _ => ?_
    refine .bind (Prepares.fixes (.modify fun r => preparations_queuePropertyRef r _))
      fun _ r₃ _ _ => ?_
    exact .bind (Prepares.fixes (.modify fun r => (quietWrites_constrainValue r _).preparations))
      fun _ r₄ _ _ => .pure (by rw [Registry.readMapKey, htag]; rfl)
  · exact .bind (steady_find _).fixes fun _ _ _ _ =>
      .bind (prepares_bindComponent _ _ _).fixes fun _ _ _ _ =>
        .pure (by rw [Registry.readMapKey, htag]; rfl)
  · exact .bind (steady_bindAny _ _ _).fixes fun _ _ _ _ =>
      .pure (by rw [Registry.readMapKey, htag]; rfl)
  · refine .pure ?_
    unfold Registry.readMapKey
    split
    all_goals first | rfl | contradiction

/-- The children of a map are read one after another. -/
theorem reads_bindMapKeys (scope : Scope) (c : Collection) (children : List Element) :
    Upholds fixedDefinitions (bindMapKeys scope c children) r fun c' _ =>
      c'.reading = children.foldl r.readMapKey c.reading := by
  induction children generalizing r c with
  | nil => exact .pure rfl
  | cons node rest ih =>
    refine .bind (reads_bindMapKey scope c node) fun c₁ r₁ hsame hfirst => ?_
    refine (ih c₁).mono fun c' _ _ hrest => ?_
    rw [hsame.readMapKey, hfirst] at hrest
    exact hrest

end

end ObjectMapping
