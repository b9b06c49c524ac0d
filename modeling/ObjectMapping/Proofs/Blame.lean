import ObjectMapping.Binding.Document
import ObjectMapping.Proofs.Refusal

/-!
# What a document blames on superclasses

A document may be refused for many reasons.  That a class cannot be extended because it is not
mapped is said in two places only: where the superclass of a subclass at the top of a document is
looked up, and where the table of a superclass is.  Everything else that is run for a document
spares the superclasses.

`Blames` says of which names a computation complains in this way.  Unlike sparing, it is a property
of a run from a given registry: whether a superclass is found depends on what the run has registered
by then.
-/

namespace ObjectMapping

open Binding

namespace Binding

variable {α β : Type}

/-! ## Checks -/

namespace Spares

/-- A checked value may be changed. -/
theorem map {x : Except MappingError α} (f : α → β) (h : Spares (ofExcept x)) :
    Spares (ofExcept (f <$> x)) := by
  cases x with
  | ok a => exact ok (f a)
  | error e => exact error e (h {} e {} rfl)

/-- Checks of the members of a list fail where one of them does. -/
theorem checkAll {f : α → Except MappingError β} (h : ∀ a, Spares (ofExcept (f a)))
    (l : List α) : Spares (ofExcept (l.mapM f)) := by
  induction l with
  | nil => exact ok _
  | cons a l ih =>
    rw [List.mapM_cons]
    exact andThen (h a) fun _ => andThen ih fun _ => ok _

/-- So do checks that build a result on the way. -/
theorem checkFrom {f : β → α → Except MappingError β} (h : ∀ b a, Spares (ofExcept (f b a)))
    (l : List α) (b : β) : Spares (ofExcept (l.foldlM f b)) := by
  induction l generalizing b with
  | nil => exact ok _
  | cons a l ih =>
    rw [List.foldlM_cons]
    exact andThen (h b a) fun b => ih b

/-- A loop fails where one of its rounds does. -/
theorem forM {f : α → Binding PUnit} (h : ∀ a, Spares (f a)) (l : List α) : Spares (l.forM f) := by
  induction l with
  | nil => exact pure _
  | cons a l ih => exact bind (h a) fun _ => ih

/-- Changing an entity fails only if there is none. -/
theorem changeEntity (name : String) (f : Entity → Entity) :
    Spares (Binding.changeEntity name f) := by
  unfold Binding.changeEntity
  exact bind get fun _ => ite (modify _) (throw _ rfl)

end Spares

/-! ## Blame -/

/-- A run that ends in the error that a class cannot be extended complains of a name with a
property. -/
def Blames (m : Binding α) (r : Registry) (P : String → Prop) : Prop :=
  ∀ name r', m.run r = .error (.unmappedSuperclass name) r' → P name

/-- What spares the superclasses complains of none of them. -/
theorem Spares.blames {m : Binding α} (h : Spares m) (r : Registry) (P : String → Prop) :
    Blames m r P := by
  intro name r' hrun
  have hspared : true = false := h r _ r' hrun
  cases hspared

namespace Blames

variable {r : Registry} {P : String → Prop}

/-- What is said of the names that are complained of may be weakened. -/
theorem mono {m : Binding α} {P' : String → Prop} (hm : Blames m r P)
    (h : ∀ name, P name → P' name) : Blames m r P' :=
  fun name r' hrun => h name (hm name r' hrun)

/-- The second half of a sequence runs only where the first half ends well. -/
theorem bind {m : Binding α} {f : α → Binding β} (hm : Blames m r P)
    (hf : ∀ a r', m.run r = .ok a r' → Blames (f a) r' P) : Blames (m >>= f) r P := by
  intro name r'' hrun
  cases hfirst : m.run r with
  | error e r' =>
    rw [run_bind_of_error hfirst] at hrun
    cases hrun
    exact hm name r'' hfirst
  | ok a r' =>
    rw [run_bind_of_ok hfirst] at hrun
    exact hf a r' hfirst name r'' hrun

/-- A first half that spares the superclasses does not matter. -/
theorem after {m : Binding α} {f : α → Binding β} (hm : Spares m)
    (hf : ∀ a r', m.run r = .ok a r' → Blames (f a) r' P) : Blames (m >>= f) r P :=
  bind (hm.blames r P) hf

/-- A loop whose rounds keep an invariant, under which each complains of such names only. -/
theorem forM {I : Registry → Prop} {f : α → Binding PUnit} {l : List α} (hr : I r)
    (hkeeps : ∀ a r, I r → I ((f a).after r)) (h : ∀ a ∈ l, ∀ r, I r → Blames (f a) r P) :
    Blames (l.forM f) r P := by
  induction l generalizing r with
  | nil => exact (Spares.pure _).blames r P
  | cons a l ih =>
    rw [List.forall_mem_cons] at h
    refine bind (h.1 r hr) fun _ r' hrun => ih ?_ h.2
    have hkept := hkeeps a r hr
    rwa [after_eq_of_ok hrun] at hkept

end Blames

end Binding

/-! ## Headers and rows -/

/-- An entity without a name is refused. -/
theorem spares_entityNameOf (scope : Scope) (node : Element) :
    Spares (Binding.ofExcept (entityNameOf scope node)) := by
  unfold entityNameOf
  split
  · exact .ok _
  · exact .error _ rfl

/-- A table is asked for by a name that is only recorded. -/
theorem spares_requestTable (scope : Scope) (node : Element) (entity : String)
    (isAbstract : Bool) : Spares (requestTable scope node entity isAbstract) := by
  unfold requestTable
  refine .bind .get fun r => ?_
  dsimp only
  exact .bind (.modify _) fun _ => .pure _

/-- An ordinary request for a table is always granted. -/
theorem spares_openTable (q : Registry.TableRequest) : Spares (openTable q) := by
  intro r e r' hrun
  cases hrun

/-- A comment is added to a table as it is. -/
theorem spares_commentTable (table : TableId) (node : Element) :
    Spares (commentTable table node) := by
  unfold commentTable
  split
  · exact .modify _
  · exact .pure _

/-- So is a check constraint. -/
theorem spares_checkTable (table : TableId) (node : Element) : Spares (checkTable table node) := by
  unfold checkTable
  split
  · exact .changeTable _ _
  · exact .pure _

/-- An import that conflicts with another one is an error of its own. -/
theorem spares_addImportUnless (r : Registry) (refuse : Bool) (target shortName : String) :
    Spares (Binding.ofExcept (r.addImportUnless refuse target shortName)) := by
  unfold Registry.addImportUnless
  split
  · split
    · exact .ok _
    · split
      · exact .error _ rfl
      · exact .ok _
  · exact .ok _

/-- The imports that an entity implies are refused over such conflicts only. -/
theorem spares_importEntity (scope : Scope) (name : String) :
    Spares (importEntity scope name) := by
  unfold importEntity
  exact .bind (.register fun r => spares_addImportUnless r _ _ _) fun _ =>
    .ite (.register fun r => spares_addImportUnless r _ _ _) (.pure _)

/-- A header is refused over its imports, its batch size or its lock style. -/
theorem spares_bindHeader (scope : Scope) (node : Element) (name : String) (kind : EntityKind)
    (table : TableId) : Spares (bindHeader scope node name kind table) := by
  have hlock : Spares (Binding.ofExcept (optimisticLockOf node)) := by
    unfold optimisticLockOf
    split
    · exact .ok _
    · split
      · exact .ok _
      · exact .error _ rfl
  unfold bindHeader
  exact .bind (spares_importEntity _ _) fun _ => .bind (spares_number _ _ _) fun _ =>
    .bind hlock fun _ => .pure _

/-- Only the root of a hierarchy has the data of one. -/
theorem spares_changeRoot (e : Entity) (f : RootData → RootData) : Spares (changeRoot e f) := by
  unfold changeRoot
  exact .ite (.pure _) (.throw _ rfl)

/-- An identifier is refused over its columns, its type, its generator or its settings. -/
theorem spares_bindSimpleId (scope : Scope) (e : Entity) (node : Element) :
    Spares (bindSimpleId scope e node) := by
  unfold bindSimpleId
  refine .bind (spares_bindSimpleValue _ _) fun v => .bind .get fun r => ?_
  refine .ite (.throw_bind _ _ rfl) (.bind (spares_asIdentifier _ _ _) fun v => ?_)
  split
  · exact .bind (.bind (spares_bindProperty _ _ _ _) fun _ => .pure _) fun _ =>
      spares_changeRoot _ _
  · exact .bind (.pure _) fun _ => spares_changeRoot _ _

/-- A composite identifier is refused with its members, or if it is mapped and has a name. -/
theorem spares_bindCompositeId (scope : Scope) (e : Entity) (node : Element) :
    Spares (bindCompositeId scope e node) := by
  unfold bindCompositeId
  refine .ite (.throw_bind _ _ rfl) (.bind (spares_bindComponent _ _ _) fun id => ?_)
  extract_lets key finish
  have hfinish : ∀ e, Spares (finish e) := by
    intro e
    unfold finish
    dsimp only
    split
    · exact .bind (spares_bindProperty _ _ _ _) fun _ => spares_changeRoot _ _
    · exact spares_changeRoot _ _
  clear_value finish
  refine .ite (.bind ?_ hfinish) (.bind (.pure _) hfinish)
  unfold bindIdentifierMapper
  exact .bind (spares_bindComponent _ _ _) fun _ => spares_changeRoot _ _

/-- A version is refused over its columns or its settings, or if it is generated on insert. -/
theorem spares_bindVersion (scope : Scope) (e : Entity) (node : Element) :
    Spares (bindVersion scope e node) := by
  unfold bindVersion
  refine .bind (spares_propertyName _) fun _ => .bind (spares_bindSimpleValue _ _) fun _ =>
    .bind (spares_bindProperty _ _ _ _) fun _ => ?_
  exact .ite (.throw_bind _ _ rfl) (.bind (spares_changeRoot _ _) fun _ => .pure _)

/-- A cache without a usage is refused. -/
theorem spares_cacheSettings (node : Element) : Spares (Binding.ofExcept node.cacheSettings) := by
  unfold Element.cacheSettings
  split
  · exact .error _ rfl
  · exact .ok _

/-- The children of a class that describe its rows are refused for the reasons of their kinds. -/
theorem spares_bindRowChild (scope : Scope) (e : Entity) (node : Element) :
    Spares (bindRowChild scope e node) := by
  unfold bindRowChild
  split
  · exact spares_bindSimpleId _ _ _
  · exact spares_bindCompositeId _ _ _
  · exact spares_bindVersion _ _ _
  · exact spares_bindVersion _ _ _
  · exact .bind (spares_bindSimpleValue _ _) fun _ => spares_changeRoot _ _
  · exact .bind (spares_cacheSettings _) fun _ => .pure _
  · exact .pure _

/-- They are bound one after another. -/
theorem spares_bindRow (scope : Scope) (e : Entity) (children : List Element) :
    Spares (bindRow scope e children) := by
  induction children generalizing e with
  | nil => exact .pure _
  | cons node rest ih => exact .bind (spares_bindRowChild _ _ _) fun e => ih e

/-- A root class extends nothing. -/
theorem spares_prepareRootClass (scope : Scope) (node : Element) :
    Spares (prepareRootClass scope node) := by
  unfold prepareRootClass
  refine .bind (spares_entityNameOf _ _) fun _ => .bind (spares_requestTable _ _ _ _) fun _ =>
    .bind (spares_openTable _) fun _ => .bind (spares_commentTable _ _) fun _ =>
    .bind (spares_bindHeader _ _ _ _ _) fun e => .bind (spares_checkTable _ _) fun _ => ?_
  extract_lets rows
  have hrows : ∀ u, Spares (rows u) := fun u =>
    .bind (spares_bindRow _ _ _) fun e => .ite (.pure _) (.bind (.changeTable _ _) fun _ => .pure _)
  clear_value rows
  split
  · exact .bind (.changeTable _ _) hrows
  · exact hrows _

/-- An entity is refused if its name is taken. -/
theorem spares_addEntity (e : Entity) : Spares (Binding.register (·.addEntity e)) := by
  refine .register fun r => ?_
  unfold Registry.addEntity
  split
  · exact .error _ rfl
  · exact .ok _

/-- Registering a subclass fails for other reasons, if at all. -/
theorem spares_registerSubclass (e : Entity) (superclass : String)
    (strategy : PersisterStrategy) : Spares (registerSubclass e superclass strategy) := by
  unfold registerSubclass
  exact .bind (spares_addEntity e) fun _ => .bind (.changeEntity _ _) fun _ => .modify _

/-! ## Joins and bodies -/

/-- A key to a superclass is refused if that has no identifier, even if it is not mapped at all. -/
theorem spares_bindDependantKey (table : TableId) (referenced path : String) (node : Element) :
    Spares (bindDependantKey table referenced path node) := by
  unfold bindDependantKey
  exact .bind .get fun _ => .bind (.require _ _ rfl) fun _ =>
    .bind (spares_bindSimpleValue _ _) fun _ => .bind (.changeTable _ _) fun _ =>
    .bind (.modify _) fun _ => .pure _

/-- The children of a join are refused for the reasons of their kinds. -/
theorem spares_bindJoinedValue (scope : Scope) (owner : Owner) (table : TableId)
    (node : Element) : Spares (bindJoinedValue scope owner table node) := by
  unfold bindJoinedValue
  dsimp only
  split
  · exact .bind (spares_bindComponent _ _ _) fun _ => .pure _
  · exact .bind (spares_bindComponent _ _ _) fun _ => .pure _
  · exact spares_bindSimpleMember _ _ _ _
  · exact .pure _

/-- The properties of a join are bound one after another. -/
theorem spares_bindJoinedProperties (scope : Scope) (owner : Owner) (table : TableId)
    (isOptional : Bool) (children : List Element) :
    Spares (bindJoinedProperties scope owner table isOptional children) := by
  induction children with
  | nil => exact .pure _
  | cons node rest ih =>
    rw [bindJoinedProperties]
    refine .bind (spares_bindJoinedValue _ _ _ _) fun value => ?_
    cases value with
    | none => exact ih
    | some value =>
      exact .bind (spares_createProperty _ _ _ _ _) fun _ => .bind ih fun _ => .pure _

/-- A join is refused over its key or one of its properties. -/
theorem spares_bindJoin (scope : Scope) (owner : Owner) (node : Element) :
    Spares (bindJoin scope owner node) := by
  unfold bindJoin
  exact .bind (spares_requestTable _ _ _ _) fun _ => .bind (spares_openTable _) fun _ =>
    .bind (spares_commentTable _ _) fun _ => .bind (.require _ _ rfl) fun _ =>
    .bind (spares_bindDependantKey _ _ _ _) fun _ =>
    .bind (spares_bindJoinedProperties _ _ _ _ _) fun _ => .pure _

/-- The children of a body are refused for the reasons of their kinds. -/
theorem spares_bindBodyValue (scope : Scope) (owner : Owner) (walk : BodyWalk)
    (node : Element) : Spares (bindBodyValue scope owner walk node) := by
  unfold bindBodyValue
  dsimp only
  split
  · exact .bind (spares_bindCollection _ _ _ _ _) fun _ => .pure _
  · exact .bind (spares_bindOneToOne _ _ _ _) fun _ => .pure _
  · exact .bind (spares_bindComponent _ _ _) fun _ => .pure _
  · exact .bind (spares_bindComponent _ _ _) fun _ => .pure _
  · exact .bind (spares_bindComponent _ _ _) fun _ => .pure _
  · exact spares_bindSimpleMember _ _ _ _
  · exact .pure _

/-- A property of a body is refused as such, or if its owner is not registered. -/
theorem spares_bindBodyProperty (scope : Scope) (owner : Owner) (walk : BodyWalk)
    (node : Element) : Spares (bindBodyProperty scope owner walk node) := by
  unfold bindBodyProperty
  refine .bind (spares_bindBodyValue _ _ _ _) fun value => ?_
  cases value with
  | none => exact .pure _
  | some value =>
    exact .bind (spares_createProperty _ _ _ _ _) fun _ => .bind (.changeEntity _ _) fun _ =>
      .pure _

/-! ## Queries -/

/-- A query without a name is refused. -/
theorem spares_queryName (node : Element) (owner : Option String) :
    Spares (Binding.ofExcept (queryName node owner)) := by
  unfold queryName
  split
  · exact .error _ rfl
  · exact .ok _

/-- A literal that is not known is refused with an error of the caller. -/
theorem spares_literalOf {α : Type} (node : Element) (name : String) (read : String → Option α)
    (e : String → MappingError) (h : ∀ raw, (e raw).blamesSuperclasses = false) :
    Spares (Binding.ofExcept (literalOf node name read e)) := by
  unfold literalOf
  split
  · exact .ok _
  · split
    · exact .ok _
    · exact .error _ (h _)

/-- The settings of a query are numbers and literals. -/
theorem spares_querySettings (node : Element) : Spares (Binding.ofExcept (querySettings node)) := by
  unfold querySettings
  exact .andThen (spares_number _ _ _) fun _ => .andThen (spares_number _ _ _) fun _ =>
    .andThen (spares_literalOf _ _ _ _ fun _ => rfl) fun _ =>
    .andThen (spares_literalOf _ _ _ _ fun _ => rfl) fun _ => .ok _

/-- A query is refused over its name or its settings, or if its name is taken. -/
theorem spares_bindNamedQuery (owner : Option String) (node : Element) :
    Spares (bindNamedQuery owner node) := by
  unfold bindNamedQuery
  refine .bind (spares_queryName _ _) fun _ => .bind (spares_querySettings _) fun _ =>
    .register fun r => ?_
  unfold Registry.addQuery
  split
  · exact .error _ rfl
  · exact .ok _

/-- The properties of a result are refused over their names and their columns. -/
theorem spares_propertyResults (aliasName : String) (node : Element) :
    Spares (Binding.ofExcept (propertyResults aliasName node)) := by
  unfold propertyResults
  refine .checkFrom (fun results property => ?_) _ _
  unfold addPropertyResult
  dsimp only
  split
  · exact .error _ rfl
  · split
    · exact .error _ rfl
    · split
      · exact .error _ rfl
      · exact .ok _

/-- A lock mode that is not known is refused. -/
theorem spares_lockModeOf (node : Element) : Spares (Binding.ofExcept (lockModeOf node)) := by
  unfold lockModeOf
  exact .andThen (spares_literalOf _ _ _ _ fun _ => rfl) fun _ => .ok _

/-- A return that belongs to another one is refused over its path, with an error of the caller. -/
theorem spares_dependentReturn (node : Element) (pathAttribute : String)
    (source : String → String → ReturnSource) (malformed : String → MappingError)
    (h : ∀ aliasName, (malformed aliasName).blamesSuperclasses = false) :
    Spares (Binding.ofExcept (dependentReturn node pathAttribute source malformed)) := by
  unfold dependentReturn
  refine .andThen (spares_lockModeOf _) fun _ => ?_
  split
  · exact .error _ (h _)
  · exact .andThen (spares_propertyResults _ _) fun _ => .ok _

/-- A return is refused for the reasons of its kind. -/
theorem spares_returnOf (scope : Scope) (node : Element) (position : Nat) :
    Spares (Binding.ofExcept (returnOf? scope node position)) := by
  have hentity : Spares (Binding.ofExcept (entityReturn scope node position)) := by
    unfold entityReturn
    dsimp only
    split
    · exact .error _ rfl
    · exact .andThen (spares_lockModeOf _) fun _ =>
        .andThen (spares_propertyResults _ _) fun _ => .ok _
  unfold returnOf?
  split
  · exact hentity.map _
  · split
    · exact (spares_dependentReturn _ _ _ _ fun _ => rfl).map _
    · split
      · exact (spares_dependentReturn _ _ _ _ fun _ => rfl).map _
      · exact .ok _

/-- The returns of a result are checked one after another. -/
theorem spares_returnsOf (scope : Scope) (position : Nat) (children : List Element) :
    Spares (Binding.ofExcept (returnsOf scope position children)) := by
  induction children generalizing position with
  | nil => exact .ok _
  | cons node rest ih =>
    exact .andThen (spares_returnOf _ _ _) fun _ => .andThen (ih _) fun _ => .ok _

/-- A result is refused over a scalar without a type or over one of its returns. -/
theorem spares_resultSetOf (scope : Scope) (node : Element) (name : String) :
    Spares (Binding.ofExcept (resultSetOf scope node name)) := by
  unfold resultSetOf
  refine .andThen (.checkAll (fun scalar => ?_) _) fun _ =>
    .andThen (spares_returnsOf _ _ _) fun _ => .ok _
  unfold scalarReturn
  dsimp only
  split
  · exact .ok _
  · exact .error _ rfl

/-- A native query is refused as a query is, or over its results. -/
theorem spares_bindNamedSqlQuery (scope : Scope) (owner : Option String) (node : Element) :
    Spares (bindNamedSqlQuery scope owner node) := by
  unfold bindNamedSqlQuery
  refine .bind (spares_queryName _ _) fun _ => .bind (spares_querySettings _) fun _ =>
    .bind ?_ fun _ => .register fun r => ?_
  · unfold queryResultsOf
    split
    · exact .ok _
    · exact (spares_resultSetOf _ _ _).map _
  · unfold Registry.addSqlQuery
    split
    · exact .error _ rfl
    · exact .ok _

/-- The description of a result is refused over its name or its returns. -/
theorem spares_bindResultSet (scope : Scope) (owner : Option String) (node : Element) :
    Spares (bindResultSet scope owner node) := by
  unfold bindResultSet
  refine .bind (spares_queryName _ _) fun _ => .bind (spares_resultSetOf _ _ _) fun _ =>
    .register fun r => ?_
  unfold Registry.addResultSet
  split
  · exact .error _ rfl
  · exact .ok _

/-- What a body has besides properties and subclasses is refused for the reasons of its kind. -/
theorem spares_bindBodyExtra (scope : Scope) (owner : Owner) (node : Element) (tag : Tag) :
    Spares (bindBodyExtra scope owner node tag) := by
  unfold bindBodyExtra
  split
  · exact .bind (spares_bindJoin _ _ _) fun _ => .changeEntity _ _
  · exact .bind (spares_bindFilterUse _) fun _ => .changeEntity _ _
  · exact spares_bindNamedQuery _ _
  · exact spares_bindNamedSqlQuery _ _ _
  · exact spares_bindResultSet _ _ _
  · exact .pure _

/-! ## Definitions and imports -/

/-- The definition of a filter is refused if it has no name. -/
theorem spares_bindFilterDefinition (node : Element) : Spares (bindFilterDefinition node) := by
  unfold bindFilterDefinition
  exact .bind (.require _ _ rfl) fun _ => .modify _

/-- The definition of a type is refused if it has no name or no class. -/
theorem spares_bindTypeDefinition (node : Element) : Spares (bindTypeDefinition node) := by
  unfold bindTypeDefinition
  exact .bind (.require _ _ rfl) fun _ => .bind (.require _ _ rfl) fun _ => .modify _

/-- An import is refused if it has no class, or over a conflict. -/
theorem spares_bindImport (scope : Scope) (node : Element) : Spares (bindImport scope node) := by
  unfold bindImport
  exact .bind (.require _ _ rfl) fun _ => .register fun r => spares_addImportUnless r _ _ _

/-! ## Subclasses -/

/-- Looking up the table of a superclass complains of that superclass, and only if it is not
registered. -/
theorem blames_superclassTable (superclass : String) (r : Registry) :
    Blames (superclassTable superclass) r fun name =>
      name = superclass ∧ r.hasEntity superclass = false := by
  intro name r' hrun
  unfold superclassTable at hrun
  rw [run_get_bind] at hrun
  cases hentity : r.entity? superclass with
  | some e =>
    rw [hentity] at hrun
    cases hrun
  | none =>
    rw [hentity] at hrun
    cases hrun
    exact ⟨rfl, by rw [Registry.hasEntity, ← KeyedList.isSome_get?]; exact congrArg _ hentity⟩

/-- So does binding a subclass up to its registration, whatever its kind. -/
theorem blames_prepareSubclass (kind : SubclassKind) (scope : Scope) (superclass : String)
    (node : Element) (r : Registry) :
    Blames (prepareSubclass kind scope superclass node) r fun name =>
      name = superclass ∧ r.hasEntity superclass = false := by
  cases kind with
  | plain =>
    refine .bind (blames_superclassTable _ _) fun _ r' _ => ?_
    exact Spares.blames (.bind (spares_entityNameOf _ _) fun _ => spares_bindHeader _ _ _ _ _) _ _
  | joined =>
    exact Spares.blames (.bind (spares_entityNameOf _ _) fun _ =>
      .bind (spares_requestTable _ _ _ _) fun _ => .bind (spares_openTable _) fun _ =>
      .bind (spares_commentTable _ _) fun _ => .bind (.require _ _ rfl) fun _ =>
      .bind (spares_bindDependantKey _ _ _ _) fun _ => .bind (spares_checkTable _ _) fun _ =>
      spares_bindHeader _ _ _ _ _) _ _
  | union =>
    refine .bind (blames_superclassTable _ _) fun parent r' _ => ?_
    refine Spares.blames (.bind (spares_entityNameOf _ _) fun _ =>
      .bind (spares_requestTable _ _ _ _) fun q => .bind .get fun r => .bind ?_ fun _ =>
      .bind (.modify fun _ => _) fun _ => spares_bindHeader _ _ _ _ _) _ _
    unfold Registry.addDenormalizedTable
    split
    · exact .error _ rfl
    · exact .ok _

/-- The registration of a subclass adds no complaint to that. -/
theorem blames_openSubclass (kind : SubclassKind) (scope : Scope) (superclass : String)
    (node : Element) (r : Registry) :
    Blames (openSubclass kind scope superclass node) r fun name =>
      name = superclass ∧ r.hasEntity superclass = false := by
  unfold openSubclass
  refine .bind (blames_prepareSubclass _ _ _ _ _) fun e r' _ => ?_
  exact Spares.blames (.bind (spares_registerSubclass _ _ _) fun _ => .pure _) _ _

end ObjectMapping
