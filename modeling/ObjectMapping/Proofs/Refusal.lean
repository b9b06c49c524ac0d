import ObjectMapping.Binding.Contents
import ObjectMapping.Proofs.Run

/-!
# What a deferred pass refuses

A deferred pass may fail for many reasons, but never because superclasses are missing: these
errors belong to the subclasses of a document, and to the end of a session, which is refused before
the first pass is run.  A computation `Spares` the superclasses if no run of it ends in one of them.
-/

namespace ObjectMapping

/-- Whether an error says that superclasses are missing. -/
def MappingError.blamesSuperclasses : MappingError → Bool
  | .superclassesNotFound _ | .unmappedSuperclass _ => true
  | _ => false

namespace Binding

variable {α β : Type}

/-- No run ends in an error that says that superclasses are missing. -/
def Spares (m : Binding α) : Prop :=
  ∀ r e r', m.run r = .error e r' → e.blamesSuperclasses = false

namespace Spares

/-- What does nothing fails nowhere. -/
theorem pure (a : α) : Spares (Pure.pure a) := by
  intro r e r' h
  cases h

/-- Any other error spares the superclasses. -/
theorem throw (e : MappingError) (h : e.blamesSuperclasses = false) :
    Spares (MonadExcept.throw e : Binding α) := by
  intro r e' r' hrun
  cases hrun
  exact h

/-- Reading the registry fails nowhere. -/
theorem get : Spares (MonadState.get : Binding Registry) := by
  intro r e r' h
  cases h

/-- Neither does changing it. -/
theorem modify (f : Registry → Registry) : Spares (modify f : Binding PUnit) := by
  intro r e r' h
  cases h

/-- A sequence fails where one of its halves does. -/
theorem bind {m : Binding α} {f : α → Binding β} (hm : Spares m) (hf : ∀ a, Spares (f a)) :
    Spares (m >>= f) := by
  intro r e r' h
  cases hrun : m.run r with
  | ok a r₁ =>
    rw [run_bind_of_ok hrun] at h
    exact hf a r₁ e r' h
  | error e₁ r₁ =>
    rw [run_bind_of_error hrun] at h
    cases h
    exact hm r e r' hrun

/-- An error that spares the superclasses does so with anything after it. -/
theorem throw_bind (e : MappingError) (f : α → Binding β)
    (h : e.blamesSuperclasses = false) : Spares (MonadExcept.throw e >>= f) := by
  intro r e' r' hrun
  cases hrun
  exact h

/-- A choice fails where what is chosen does. -/
theorem ite {c : Prop} [Decidable c] {m n : Binding α} (hm : Spares m) (hn : Spares n) :
    Spares (if c then m else n) := by
  split
  · exact hm
  · exact hn

/-- A step that is taken or left out before the rest. -/
theorem optional {c : Prop} [Decidable c] {m : Binding Unit} {k : Unit → Binding β}
    (hm : Spares m) (hk : ∀ u, Spares (k u)) : Spares (if c then m >>= k else k ()) :=
  ite (bind hm hk) (hk ())

/-- A value that is missing is an error of its own. -/
theorem require (e : MappingError) (o : Option α) (h : e.blamesSuperclasses = false) :
    Spares (Binding.require e o) := by
  cases o with
  | none => exact throw e h
  | some a => exact pure a

/-- A check that passes cannot fail. -/
theorem ok (a : α) : Spares (ofExcept (.ok a)) := pure a

/-- A check fails with the error that it finds. -/
theorem error (e : MappingError) (h : e.blamesSuperclasses = false) :
    Spares (ofExcept (.error e) : Binding α) := throw e h

/-- A sequence of checks fails where one of them does. -/
theorem andThen {x : Except MappingError α} {f : α → Except MappingError β}
    (hx : Spares (ofExcept x)) (hf : ∀ a, Spares (ofExcept (f a))) :
    Spares (ofExcept (x >>= f)) := by
  cases x with
  | ok a => exact hf a
  | error e => exact error e (hx {} e {} rfl)

/-- A registration fails with the error of its check. -/
theorem register {f : Registry → Except MappingError Registry}
    (h : ∀ r, Spares (ofExcept (f r))) : Spares (Binding.register f) :=
  bind get fun r => bind (h r) fun r' => modify fun _ => r'

/-- A loop that collects values fails where one of its rounds does. -/
theorem mapM {f : α → Binding β} (h : ∀ a, Spares (f a)) (l : List α) : Spares (l.mapM f) := by
  induction l with
  | nil => exact pure _
  | cons a l ih =>
    rw [List.mapM_cons]
    exact bind (h a) fun _ => bind ih fun _ => pure _

/-- Changing a table cannot fail. -/
theorem changeTable (id : Option TableId) (f : Table → Table) :
    Spares (Binding.changeTable id f) := by
  cases id with
  | none => exact pure _
  | some id => exact modify _

end Spares

end Binding

open Binding

/-! ## Columns and values -/

/-- A number is refused if it cannot be read. -/
theorem spares_number {α : Type} (read : String → Option α) (node : Element) (name : String) :
    Spares (Binding.ofExcept (node.number read name)) := by
  unfold Element.number
  split
  · exact .ok _
  · split
    · exact .ok _
    · exact .error _ rfl

/-- The length, the precision and the scale of a column are numbers. -/
theorem spares_describedBy (c : Column) (node : Element) (nullable : Bool) :
    Spares (Binding.ofExcept (c.describedBy node nullable)) := by
  unfold Column.describedBy
  exact .andThen (spares_number _ _ _) fun _ => .andThen (spares_number _ _ _) fun _ =>
    .andThen (spares_number _ _ _) fun _ => .ok _

/-- Columns are registered without a check. -/
theorem spares_registerColumn (table : Option TableId) (c : Column) (sources : List Element) :
    Spares (registerColumn table c sources) := by
  unfold registerColumn
  exact .bind (.changeTable _ _) fun _ => .pure _

/-- A nested column is refused if it has no name. -/
theorem spares_bindNestedColumns (site : ColumnSite) (owner : Element) (position : Nat)
    (children : List Element) : Spares (bindNestedColumns site owner position children) := by
  induction children generalizing position with
  | nil => exact .pure _
  | cons child rest ih =>
    rw [bindNestedColumns]
    refine .ite ?_ (.ite ?_ (ih _))
    · exact .bind (.require _ _ rfl) fun _ => .bind .get fun _ =>
        .bind (spares_describedBy _ _ _) fun _ =>
        .bind (spares_registerColumn _ _ _) fun _ => .bind (ih _) fun _ => .pure _
    · exact .bind (ih _) fun _ => .pure _

/-- The column of an element is refused over its numbers only. -/
theorem spares_bindOwnColumn (site : ColumnSite) (node : Element) (name : String) :
    Spares (bindOwnColumn site node name) := by
  unfold bindOwnColumn
  exact .bind (spares_describedBy _ _ _) fun _ =>
    .bind (spares_registerColumn _ _ _) fun _ => .pure _

/-- An element may not mix the attribute for a column with nested columns or formulas. -/
theorem spares_bindNamedColumns (site : ColumnSite) (node : Element) :
    Spares (bindNamedColumns site node) := by
  unfold bindNamedColumns
  split
  · exact .ite (.throw_bind _ _ rfl) (.ite (.throw_bind _ _ rfl)
      (.bind .get fun _ => spares_bindOwnColumn _ _ _))
  · exact spares_bindNestedColumns _ _ _ _

/-- A formula is taken as it is, and columns are refused as they always are. -/
theorem spares_bindColumnsOrFormula (site : ColumnSite) (node : Element) :
    Spares (bindColumnsOrFormula site node) := by
  unfold bindColumnsOrFormula
  split
  · exact .pure _
  · unfold bindColumns
    exact .bind (spares_bindNamedColumns _ _) fun _ =>
      .ite (.bind .get fun _ => spares_bindOwnColumn _ _ _) (.pure _)

/-- A simple value is refused with its columns. -/
theorem spares_bindSimpleValue (site : ColumnSite) (node : Element) :
    Spares (bindSimpleValue site node) := by
  unfold bindSimpleValue
  exact .bind .get fun _ => .bind (spares_bindColumnsOrFormula _ _) fun _ => .pure _

/-! ## Associations -/

/-- An association to one may not delete orphans. -/
theorem spares_checkCascade (node : Element) (path : String) :
    Spares (checkCascade node path) := by
  unfold checkCascade
  exact .ite (.throw _ rfl) (.pure _)

/-- A many-to-one is refused with its columns or over its cascade. -/
theorem spares_bindManyToOne (scope : Scope) (site : ColumnSite) (node : Element) :
    Spares (bindManyToOne scope site node) := by
  unfold bindManyToOne
  exact .bind (spares_bindColumnsOrFormula _ _) fun _ =>
    .bind (spares_checkCascade _ _) fun _ => .pure _

/-- So is a one-to-one. -/
theorem spares_bindOneToOne (scope : Scope) (site : ColumnSite) (owner : String)
    (node : Element) : Spares (bindOneToOne scope site owner node) := by
  unfold bindOneToOne
  exact .bind (spares_bindNamedColumns _ _) fun _ =>
    .bind (spares_checkCascade _ _) fun _ => .pure _

/-- An association to any entity is refused with its columns. -/
theorem spares_bindAny (scope : Scope) (site : ColumnSite) (node : Element) :
    Spares (bindAny scope site node) := by
  unfold bindAny
  exact .bind .get fun _ => .bind (spares_bindNamedColumns _ _) fun _ => .pure _

/-- A simple member is refused for the reasons of its kind. -/
theorem spares_bindSimpleMember (scope : Scope) (site : ColumnSite) (node : Element)
    (tag : Tag) : Spares (bindSimpleMember scope site node tag) := by
  unfold bindSimpleMember
  split
  · exact .bind (spares_bindManyToOne _ _ _) fun _ => .pure _
  · exact .bind (spares_bindAny _ _ _) fun _ => .pure _
  · exact .bind (spares_bindSimpleValue _ _) fun _ => .pure _
  · exact .pure _

/-! ## Properties -/

/-- A property without a name is refused. -/
theorem spares_propertyName (node : Element) : Spares (Binding.ofExcept node.propertyName) := by
  unfold Element.propertyName
  split
  · exact .ok _
  · exact .error _ rfl

/-- A generated property may not ask to be written, and the caller says which error that is. -/
theorem spares_writable (node : Element) (name : String) (generated : Bool) (e : MappingError)
    (h : e.blamesSuperclasses = false) :
    Spares (Binding.ofExcept (writable node name generated e)) := by
  unfold writable
  split
  · split
    · exact .error e h
    · exact .ok _
  · exact .ok _

/-- There are three ways to generate a property, and any other is refused. -/
theorem spares_generationOf (node : Element) : Spares (Binding.ofExcept (generationOf node)) := by
  unfold generationOf
  split
  · exact .ok _
  · split
    · exact .ok _
    · exact .error _ rfl

/-- The settings of a property are refused over its generation. -/
theorem spares_bindProperty (scope : Scope) (node : Element) (value : Value) (name : String) :
    Spares (Binding.ofExcept (bindProperty scope node value name)) := by
  unfold bindProperty
  exact .andThen (spares_generationOf _) fun _ => .andThen (spares_writable _ _ _ _ rfl) fun _ =>
    .andThen (spares_writable _ _ _ _ rfl) fun _ => .ok _

/-- A property is refused over its name or its settings, and not over what it refers to. -/
theorem spares_createProperty (scope : Scope) (node : Element) (value : Value)
    (className : Option String) (owner : String) :
    Spares (createProperty scope node value className owner) := by
  unfold createProperty
  exact .bind (spares_propertyName _) fun _ => .bind .get fun _ => .bind (.modify _) fun _ =>
    .bind (.modify _) fun _ => spares_bindProperty _ _ _ _

/-! ## Collections and components -/

/-- A filter is refused if it has no name, or no condition and no definition with one. -/
theorem spares_bindFilterUse (node : Element) : Spares (bindFilterUse node) := by
  unfold bindFilterUse
  refine .bind .get fun r => ?_
  unfold Registry.filterUse
  split
  · exact .error _ rfl
  · split
    · exact .ok _
    · exact .error _ rfl

/-- The table of a collection is opened without a check. -/
theorem spares_openElement (scope : Scope) (node : Element) (role : String) (owner : Owner) :
    Spares (openElement scope node role owner) := by
  unfold openElement
  split
  · exact .pure _
  · refine .bind (.bind .get fun _ => .bind ?_ fun _ => .bind ?_ fun _ => .pure _) fun _ => .pure _
    · exact fun r e r' h => nomatch h
    unfold commentTable
    split
    · exact .modify _
    · exact .pure _

/-- A collection is refused if its role is taken. -/
theorem spares_addCollection (r : Registry) (c : Collection) :
    Spares (Binding.ofExcept (r.addCollection c)) := by
  unfold Registry.addCollection
  split
  · exact .error _ rfl
  · exact .ok _

/-- A collection is refused over its batch size, its filters or its role. -/
theorem spares_bindCollection (scope : Scope) (node : Element) (kind : CollectionKind)
    (role : String) (owner : Owner) : Spares (bindCollection scope node kind role owner) := by
  unfold bindCollection
  refine .bind (spares_number _ _ _) fun _ => ?_
  refine .optional (.modify _) fun _ => ?_
  refine .bind (spares_openElement _ _ _ _) fun ⟨element, table⟩ => ?_
  refine .bind (.mapM (fun _ => spares_bindFilterUse _) _) fun filters => ?_
  split
  exact .bind (.register fun r => spares_addCollection r _) fun _ =>
    .bind (.modify _) fun _ => .pure _

/-- An owner that is not registered is missed under its own name. -/
theorem spares_find (name : String) : Spares (Owner.find name) := by
  unfold Owner.find
  exact .bind .get fun _ => .require _ _ rfl

mutual

/-- A component is refused with its members. -/
theorem spares_bindComponent (scope : Scope) (site : ComponentSite) :
    ∀ node, Spares (bindComponent scope site node)
  | ⟨name, attributes, children, text⟩ => by
    rw [bindComponent]
    refine .bind .get fun r => ?_
    split
    refine .bind (spares_bindMembers _ _ _ children) fun properties => ?_
    exact .ite (.bind (.changeTable _ _) fun _ => .pure _) (.pure _)

/-- The members of a component are refused for the reasons of their kinds. -/
theorem spares_bindMembers (scope : Scope) (site : ComponentSite) (className : Option String) :
    ∀ children, Spares (bindMembers scope site className children)
  | [] => by
    rw [bindMembers]
    exact .pure _
  | node :: rest => by
    unfold bindMembers
    extract_lets name rest'
    have hrest : ∀ value, Spares (rest' value) := by
      intro value
      cases value with
      | none => exact spares_bindMembers _ _ _ rest
      | some value =>
        exact .bind (spares_createProperty _ _ _ _ _) fun _ =>
          .bind (spares_bindMembers _ _ _ rest) fun _ => .pure _
    clear_value rest'
    split
    · exact .bind (spares_bindCollection _ _ _ _ _) fun _ => .bind (.pure _) hrest
    · exact .bind (spares_bindComponent _ _ node) fun _ => .bind (.pure _) hrest
    · exact .bind (spares_bindComponent _ _ node) fun _ => .bind (.pure _) hrest
    · exact .bind (spares_bindComponent _ _ node) fun _ => .bind (.pure _) hrest
    · exact .bind (spares_bindOneToOne _ _ _ _) fun _ => .bind (.pure _) hrest
    · exact .bind (spares_bindSimpleMember _ _ _ _) hrest
    · exact .bind (.pure _) hrest

end

/-! ## Contents -/

/-- The target of a one-to-many has to be mapped, which is an error of its own. -/
theorem spares_resolveTarget (r : Registry) (c : Collection) :
    Spares (Binding.ofExcept (c.resolveTarget r)) := by
  unfold Collection.resolveTarget
  split
  · dsimp only
    split
    · exact .ok _
    · exact .error _ rfl
  · exact .ok _

/-- What the key of a collection refers to has to be found. -/
theorem spares_keyTarget (r : Registry) (c : Collection) (owner : Owner) :
    Spares (Binding.ofExcept (r.keyTarget c owner)) := by
  unfold Registry.keyTarget
  split <;> split
  · exact .ok _
  · exact .error _ rfl
  · exact .ok _
  · exact .error _ rfl

/-- The check constraint of a collection is added to its table as it is. -/
theorem spares_bindCollectionCheck (c : Collection) (node : Element) :
    Spares (bindCollectionCheck c node) := by
  unfold bindCollectionCheck
  split
  · exact .bind (.changeTable _ _) fun _ => .pure _
  · exact .pure _

/-- The key of a collection is refused over its target or its columns. -/
theorem spares_bindCollectionKey (c : Collection) (owner : Owner) (node : Element) :
    Spares (bindCollectionKey c owner node) := by
  unfold bindCollectionKey
  refine .bind .get fun _ => .bind (spares_keyTarget _ _ _) fun _ =>
    .bind (spares_bindSimpleValue _ _) fun _ => ?_
  exact .ite (.pure _) (.bind (.changeTable _ _) fun _ => .pure _)

/-- A many-to-many is refused as an association, over its filters, or if nothing joins what
restricts it. -/
theorem spares_bindManyToMany (scope : Scope) (c : Collection) (node : Element) :
    Spares (bindManyToMany scope c node) := by
  unfold bindManyToMany
  exact .bind (spares_bindManyToOne _ _ _) fun _ => .bind (.modify _) fun _ =>
    .bind (.mapM spares_bindFilterUse _) fun _ => .ite (.throw_bind _ _ rfl) (.pure _)

/-- The children of a collection are refused for the reasons of their kinds. -/
theorem spares_bindContent (scope : Scope) (owner : Owner) (c : Collection) (node : Element) :
    Spares (bindContent scope owner c node) := by
  unfold bindContent
  dsimp only
  split
  · exact .bind (spares_bindCollectionKey _ _ _) fun _ => .pure _
  · exact .bind (spares_bindSimpleValue _ _) fun _ => .pure _
  · exact .bind (spares_bindManyToMany _ _ _) fun _ => .pure _
  · exact .bind (spares_bindComponent _ _ _) fun _ => .pure _
  · exact .bind (spares_bindAny _ _ _) fun _ => .pure _
  · refine .bind ?_ fun _ => .pure _
    unfold Element.cacheSettings
    split
    · exact .error _ rfl
    · exact .ok _
  · exact .pure _

/-- The children of a collection are bound one after another. -/
theorem spares_bindContentsOf (scope : Scope) (owner : Owner) (c : Collection)
    (children : List Element) : Spares (bindContentsOf scope owner c children) := by
  induction children generalizing c with
  | nil => exact .pure _
  | cons node rest ih => exact .bind (spares_bindContent _ _ _ _) fun c => ih c

/-- The entity that gets a backref has to be registered, which is an error of its own. -/
theorem spares_addBackref (node : Element) (c : Collection) (kind : BackrefKind) :
    Spares (addBackref node c kind) := by
  unfold addBackref
  split
  · exact .pure _
  · exact .bind .get fun _ => .ite (.modify _) (.throw _ rfl)

/-- The key and the element of a collection are refused over the role, the owner, the target or a
child. -/
theorem spares_bindContents (pass : CollectionPass) : Spares (bindContents pass) := by
  unfold bindContents
  exact .bind .get fun _ => .bind (.require _ _ rfl) fun _ => .bind (spares_find _) fun _ =>
    .bind .get fun _ => .bind (spares_resolveTarget _ _) fun _ =>
    .bind (spares_bindCollectionCheck _ _) fun _ =>
    .bind (spares_bindContentsOf _ _ _ _) fun _ => .bind (.modify _) fun _ =>
    .bind (spares_addBackref _ _ _) fun _ => .pure _

/-! ## Indexes -/

/-- An identifier is refused if its generator has no class. -/
theorem spares_asIdentifier (v : SimpleValue) (scope : Scope) (node : Element) :
    Spares (Binding.ofExcept (v.asIdentifier scope node)) := by
  unfold SimpleValue.asIdentifier
  refine .andThen ?_ fun _ => .ok _
  unfold generatorOf
  split
  · exact .ok _
  · split
    · exact .error _ rfl
    · exact .ok _

/-- A backref for an index is refused as any other. -/
theorem spares_addIndexBackref (node : Element) (c : Collection) :
    Spares (addIndexBackref node c) := by
  unfold addIndexBackref
  exact .ite (.pure _) (spares_addBackref _ _ _)

/-- The keys of a map are refused for the reasons of their kind, or if they have no type. -/
theorem spares_bindMapKey (scope : Scope) (c : Collection) (node : Element) :
    Spares (bindMapKey scope c node) := by
  unfold bindMapKey
  dsimp only
  split
  · exact .bind (spares_bindSimpleValue _ _) fun _ => .ite (.throw_bind _ _ rfl) (.pure _)
  · exact .bind (spares_bindManyToOne _ _ _) fun _ => .bind (.modify _) fun _ =>
      .bind (.modify _) fun _ => .bind (.modify _) fun _ => .pure _
  · exact .bind (spares_find _) fun _ => .bind (spares_bindComponent _ _ _) fun _ => .pure _
  · exact .bind (spares_bindAny _ _ _) fun _ => .pure _
  · exact .pure _

/-- The children of a map are bound one after another. -/
theorem spares_bindMapKeys (scope : Scope) (c : Collection) (children : List Element) :
    Spares (bindMapKeys scope c children) := by
  induction children generalizing c with
  | nil => exact .pure _
  | cons node rest ih => exact .bind (spares_bindMapKey _ _ _) fun c => ih c

/-- What comes with the kind of a collection may be missing, which is an error of its own. -/
theorem spares_bindIndexing (kind : PassKind) (pass : CollectionPass) (c : Collection) :
    Spares (bindIndexing kind pass c) := by
  cases kind with
  | plain => exact .pure _
  | identifierBag =>
    exact .bind (.require _ _ rfl) fun _ => .bind (spares_bindSimpleValue _ _) fun _ =>
      .bind (spares_asIdentifier _ _ _) fun _ => .pure _
  | list =>
    exact .bind (.require _ _ rfl) fun _ => .bind (spares_bindSimpleValue _ _) fun _ =>
      .bind (spares_number _ _ _) fun _ => .bind (spares_addIndexBackref _ _) fun _ => .pure _
  | map =>
    exact .bind (spares_bindMapKeys _ _ _) fun _ => .ite (.throw_bind _ _ rfl)
      (.bind (spares_addIndexBackref _ _) fun _ => .pure _)

/-! ## Passes -/

/-- A deferred pass never blames the superclasses. -/
theorem spares_run (pass : DeferredPass) : Spares pass.run := by
  cases pass with
  | contents kind pass =>
    refine .bind (spares_bindContents _) fun _ => .bind (spares_bindIndexing _ _ _) fun _ => ?_
    exact .bind .get fun _ => .ite (.modify _) (.throw _ rfl)
  | propertyRef pass =>
    exact .bind .get fun _ => .bind (.require _ _ rfl) fun _ => .bind (.require _ _ rfl) fun _ =>
      .ite (.pure _) (.changeTable _ _)

/-- Applying the recorded references to properties never blames the superclasses. -/
theorem spares_applyPropertyReferences :
    Spares (Binding.register Registry.applyPropertyReferences) := by
  refine .register fun r => ?_
  unfold Registry.applyPropertyReferences
  generalize r.propertyReferences = refs
  induction refs generalizing r with
  | nil => exact .ok _
  | cons ref refs ih =>
    refine .andThen ?_ ih
    unfold Registry.applyPropertyReference
    split
    · exact .error _ rfl
    · split
      · exact .error _ rfl
      · exact .ok _

end ObjectMapping
