import ObjectMapping.Proofs.Reading
import ObjectMapping.Proofs.SideWrite

/-!
# Preparation

What belongs to an entity is bound before the entity is known to all others: columns and
values at once, but the contents of collections and some foreign keys are put off.  A step of
preparation is a quiet write, or registers a collection together with the pass for its
contents, or queues a foreign key, or marks the owner of a collection.  Properties, components,
identifiers and joins are bound by steps of preparation only, and so is most of what a deferred
pass binds.
-/

namespace ObjectMapping

/-- A collection is registered along with the pass that is to bind its contents. -/
structure Collection.EnlistedBy (c : Collection) (pass : CollectionPass) : Prop where
  role : pass.role = c.role
  /-- The role ends in the name of the element. -/
  named : ∃ path, c.role = qualify path ((pass.node.attribute? "name").getD "")
  /-- None of the contents that depend on definitions is bound yet. -/
  blank : c.reading = {}

namespace Registry

/-- One step of preparation. -/
inductive Preparation : Registry → Registry → Prop
  | quiet {r r' : Registry} (h : QuietWrite r r') : Preparation r r'
  /-- A collection is registered, and the pass for its contents is queued. -/
  | collection {r r' : Registry} {c : Collection} {pass : CollectionPass}
      (h : r.addCollection c = .ok r') (henlisted : c.EnlistedBy pass) :
      Preparation r (r'.addPass (.contents c.kind.passKind pass))
  /-- A foreign key is put off. -/
  | propertyRef (r : Registry) (pass : PropertyRefPass) :
      Preparation r (r.addPass (.propertyRef pass))
  /-- An entity is marked as the owner of a collection that is loaded by subselects. -/
  | mark (r : Registry) (name : String) :
      Preparation r (r.modifyEntity name ({ · with subselectLoadableCollections := true }))

/-- Any number of steps of preparation. -/
def Preparations : Registry → Registry → Prop := Relation.ReflTransGen Preparation

/-- Steps of preparation are side writes. -/
theorem Preparation.sideWrites {r r' : Registry} (h : Preparation r r') : SideWrites r r' := by
  cases h with
  | quiet h => exact .of h.sideWrite
  | collection h => exact (SideWrites.of (.addCollection h)).trans (.of (.addPass _ _))
  | propertyRef pass => exact .of (.addPass r _)
  | mark name => exact .of (.entity r name fun _ => rfl)

/-- Any number of steps of preparation are side writes. -/
theorem Preparations.sideWrites {r r' : Registry} (h : Preparations r r') : SideWrites r r' :=
  Relation.reflTransGen_closed (fun _ _ => Preparation.sideWrites) _ _ h

/-- Quiet writes are preparation. -/
theorem QuietWrites.preparations {r r' : Registry} (h : QuietWrites r r') : Preparations r r' :=
  Relation.ReflTransGen.mono (fun _ _ => Preparation.quiet) _ _ h

/-- Queueing the foreign key of an association is preparation. -/
theorem preparations_queuePropertyRef (r : Registry) (v : ManyToOne) :
    Preparations r (r.queuePropertyRef v) := by
  unfold queuePropertyRef
  split
  · split
    · exact .refl
    · exact .single (.propertyRef r _)
  · exact .refl

/-- Recording the references of a value writes references and passes only. -/
theorem recordReferences_eq (r : Registry) (owner : String) (isManyToMany : Bool) (v : Value) :
    ∃ propertyReferences passes, r.recordReferences owner isManyToMany v
      = { r with propertyReferences, passes } := by
  have hrefer : ∀ toOne, ∃ propertyReferences, r.referTo toOne = { r with propertyReferences } := by
    intro toOne
    unfold referTo
    split <;> exact ⟨_, rfl⟩
  have hqueue : ∀ (s : Registry) v, ∃ passes, s.queuePropertyRef v = { s with passes } := by
    intro s v
    unfold queuePropertyRef
    split
    · split <;> exact ⟨_, rfl⟩
    · exact ⟨_, rfl⟩
  unfold recordReferences
  split
  · next m =>
    obtain ⟨propertyReferences, hreferred⟩ := hrefer m.toOne
    obtain ⟨passes, hqueued⟩ := hqueue (r.referTo m.toOne) m
    dsimp only
    rw [hqueued, hreferred]
    split
    · exact ⟨_, r.passes, rfl⟩
    · exact ⟨_, passes, rfl⟩
  · next o =>
    obtain ⟨propertyReferences, hreferred⟩ := hrefer o.toOne
    exact ⟨_, r.passes, hreferred⟩
  · split <;> exact ⟨_, _, rfl⟩
  · exact ⟨_, _, rfl⟩

/-- Recording the references of a value is preparation. -/
theorem preparations_recordReferences (r : Registry) (owner : String) (isManyToMany : Bool)
    (v : Value) : Preparations r (r.recordReferences owner isManyToMany v) := by
  unfold recordReferences
  split
  · split
    · exact (quietWrites_referTo r _).preparations
    · exact Relation.ReflTransGen.trans (quietWrites_referTo r _).preparations
        (preparations_queuePropertyRef _ _)
  · exact (quietWrites_referTo r _).preparations
  · split
    · exact .single (.quiet (.propertyReference r _))
    · exact .refl
  · exact .refl

end Registry

namespace Binding

open Registry

variable {α : Type}

/-- Every run takes steps of preparation only, whether it ends well or in an error. -/
def Prepares (m : Binding α) : Prop := Makes Preparation m

/-- A quiet computation prepares. -/
theorem Quiet.prepares {m : Binding α} (h : m.Quiet) : m.Prepares :=
  Makes.mono h fun _ _ hstep => .single (.quiet hstep)

/-- A computation that prepares makes side writes only. -/
theorem Prepares.aside {m : Binding α} (h : m.Prepares) : m.Aside :=
  Makes.mono h fun _ _ hstep => hstep.sideWrites

/-- A quiet computation makes side writes only. -/
theorem Quiet.aside {m : Binding α} (h : m.Quiet) : m.Aside := h.prepares.aside

/-- A steady computation prepares. -/
theorem Steady.prepares {m : Binding α} (h : m.Steady) : m.Prepares := h.quiet.prepares

/-- A steady computation makes side writes only. -/
theorem Steady.aside {m : Binding α} (h : m.Steady) : m.Aside := h.prepares.aside

end Binding

open Binding Registry

/-! ## Properties -/

/-- Creating a property records what it refers to, but declares it for no entity. -/
theorem prepares_createProperty (scope : Scope) (node : Element) (value : Value)
    (className : Option String) (owner : String) :
    Prepares (createProperty scope node value className owner) := by
  unfold createProperty
  exact .bind (.ofExcept _) fun _ => .bind .get fun _ =>
    .bind (.modify fun r => preparations_recordReferences r _ _ _) fun _ =>
    .bind (.modify fun r => (quietWrites_constrainValue r _).preparations) fun _ => .ofExcept _

/-! ## Collections and components -/

/-- Registering a collection and queueing its pass is one step, since nothing can fail between
the two. -/
theorem prepares_enlist {c : Collection} {pass : CollectionPass} (v : Value)
    (henlisted : c.EnlistedBy pass) : Prepares (do
      Binding.register (·.addCollection c)
      modify (·.addPass (.contents c.kind.passKind pass))
      return v : Binding Value) := by
  intro r
  cases hadd : r.addCollection c with
  | error e =>
    have hrefused : (Binding.register (·.addCollection c)).run r = .error e r := by
      simp [Binding.register, Binding.ofExcept, hadd, EStateM.run_bind, EStateM.run_get]
    rw [after_bind_of_error hrefused]
  | ok r' =>
    rw [after_bind_of_ok (run_register_eq_ok (u := ()).mpr hadd), after_bind_pure]
    exact .single (.collection hadd henlisted)

/-- The elements of a collection are entities, or not known before its contents are bound. -/
theorem yields_openElement (scope : Scope) (node : Element) (role : String) (owner : Owner) :
    Yields (openElement scope node role owner) fun p =>
      ∀ v, p.1 = some v → ∃ target, v = .oneToMany target := by
  unfold openElement
  split
  · exact .pure fun v hv => ⟨_, (Option.some.inj hv).symm⟩
  · exact .next fun _ => .pure nofun

/-- Binding a collection is preparation: its contents are put off to a deferred pass. -/
theorem prepares_bindCollection (scope : Scope) (node : Element) (kind : CollectionKind)
    (path : String) (owner : Owner) : Prepares
      (bindCollection scope node kind (qualify path ((node.attribute? "name").getD "")) owner) := by
  unfold bindCollection
  refine .bind (.ofExcept _) fun batchSize => ?_
  refine .optional (.modify fun r => .single (.mark r _)) fun _ => ?_
  refine .bindOf (steady_openElement _ _ _ _).prepares (yields_openElement _ _ _ _)
    fun ⟨element, table⟩ helement => ?_
  refine .bind (.mapM (fun _ => (steady_bindFilterUse _).prepares) _) fun filters => ?_
  split
  refine prepares_enlist _ ⟨rfl, ⟨path, rfl⟩, ?_⟩
  have hblank : element.bind Value.type? = none := by
    rw [Option.bind_eq_none_iff]
    intro v hv
    obtain ⟨target, rfl⟩ := helement v hv
    rfl
  simp only [Collection.reading, Option.bind_none, hblank]

mutual

/-- A component is bound member by member, down through nested components. -/
theorem prepares_bindComponent (scope : Scope) (site : ComponentSite) :
    ∀ node, Prepares (bindComponent scope site node)
  | ⟨name, attributes, children, text⟩ => by
    rw [bindComponent]
    refine .bind .get fun r => ?_
    split
    refine .bind (prepares_bindMembers _ _ _ children) fun properties => ?_
    exact .optional (quiet_changeTable _ fun t => .createUniqueKey t _).prepares fun _ => .pure _

/-- Binding the members of a component is preparation. -/
theorem prepares_bindMembers (scope : Scope) (site : ComponentSite) (className : Option String) :
    ∀ children, Prepares (bindMembers scope site className children)
  | [] => by
    rw [bindMembers]
    exact .pure _
  | node :: rest => by
    unfold bindMembers
    extract_lets name rest'
    have hrest : ∀ value, Prepares (rest' value) := by
      intro value
      cases value with
      | none => exact prepares_bindMembers _ _ _ rest
      | some value =>
        exact .bind (prepares_createProperty _ _ _ _ _) fun _ =>
          .bind (prepares_bindMembers _ _ _ rest) fun _ => .pure _
    clear_value rest'
    split
    · exact .bind (prepares_bindCollection _ _ _ _ _) fun _ => .bind (.pure _) hrest
    · exact .bind (prepares_bindComponent _ _ node) fun _ => .bind (.pure _) hrest
    · exact .bind (prepares_bindComponent _ _ node) fun _ => .bind (.pure _) hrest
    · exact .bind (prepares_bindComponent _ _ node) fun _ => .bind (.pure _) hrest
    · exact .bind (steady_bindOneToOne _ _ _ _).prepares fun _ => .bind (.pure _) hrest
    · exact .bind (steady_bindSimpleMember _ _ _ _).prepares hrest
    · exact .bind (.pure _) hrest

end

/-! ## Identifiers and joins -/

/-- Binding the shadow of an identifier makes preparations only. -/
theorem prepares_bindIdentifierMapper (scope : Scope) (e : Entity) (path : String)
    (node : Element) : Prepares (bindIdentifierMapper scope e path node) := by
  unfold bindIdentifierMapper
  exact .bind (prepares_bindComponent _ _ _) fun _ => (steady_changeRoot _ _).prepares

/-- Binding a composite identifier is preparation. -/
theorem prepares_bindCompositeId (scope : Scope) (e : Entity) (node : Element) :
    Prepares (bindCompositeId scope e node) := by
  unfold bindCompositeId
  refine .ite (.throw_bind _ _) (.bind (prepares_bindComponent _ _ _) fun id => ?_)
  extract_lets key finish
  have hfinish : ∀ e, Prepares (finish e) := by
    intro e
    unfold finish
    dsimp only
    split
    · exact .bind (.ofExcept _) fun _ => (steady_changeRoot _ _).prepares
    · exact (steady_changeRoot _ _).prepares
  clear_value finish
  exact .ite (.bind (prepares_bindIdentifierMapper _ _ _ _) hfinish) (.bind (.pure _) hfinish)

/-- So does binding a part of a row. -/
theorem prepares_bindRowChild (scope : Scope) (e : Entity) (node : Element) :
    Prepares (bindRowChild scope e node) := by
  unfold bindRowChild
  split
  · exact (steady_bindSimpleId _ _ _).prepares
  · exact prepares_bindCompositeId _ _ _
  · exact (steady_bindVersion _ _ _).prepares
  · exact (steady_bindVersion _ _ _).prepares
  · exact (steady_bindDiscriminator _ _).prepares
  · exact (steady_bindCache _ _).prepares
  · exact .pure _

/-- Binding what an element says about the rows of its class is preparation. -/
theorem prepares_bindRow (scope : Scope) (e : Entity) (children : List Element) :
    Prepares (bindRow scope e children) := by
  induction children generalizing e with
  | nil => exact .pure _
  | cons node rest ih => exact .bind (prepares_bindRowChild _ _ _) fun e => ih e

/-- A value of a join is bound by preparations only. -/
theorem prepares_bindJoinedValue (scope : Scope) (owner : Owner) (table : TableId)
    (node : Element) : Prepares (bindJoinedValue scope owner table node) := by
  unfold bindJoinedValue
  dsimp only
  split
  · exact .bind (prepares_bindComponent _ _ _) fun _ => .pure _
  · exact .bind (prepares_bindComponent _ _ _) fun _ => .pure _
  · exact (steady_bindSimpleMember _ _ _ _).prepares
  · exact .pure _

/-- So are the properties of a join, which are stored with it later. -/
theorem prepares_bindJoinedProperties (scope : Scope) (owner : Owner) (table : TableId)
    (isOptional : Bool) (children : List Element) :
    Prepares (bindJoinedProperties scope owner table isOptional children) := by
  induction children with
  | nil => exact .pure _
  | cons node rest ih =>
    rw [bindJoinedProperties]
    refine .bind (prepares_bindJoinedValue _ _ _ _) fun value => ?_
    cases value with
    | none => exact ih
    | some value =>
      exact .bind (prepares_createProperty _ _ _ _ _) fun _ => .bind ih fun _ => .pure _

/-- Binding a join is preparation: it does not add the join to its owner. -/
theorem prepares_bindJoin (scope : Scope) (owner : Owner) (node : Element) :
    Prepares (bindJoin scope owner node) := by
  unfold bindJoin
  exact .bind (steady_requestTable _ _ _ _).prepares fun _ =>
    .bind (steady_openTable _).prepares fun _ =>
    .bind (steady_commentTable _ _).prepares fun _ => .bind (.require _ _) fun _ =>
    .bind (quiet_bindDependantKey _ _ _ _).prepares fun _ =>
    .bind (prepares_bindJoinedProperties _ _ _ _ _) fun _ => .pure _

/-! ## Classes -/

/-- Binding a root class up to its registration is preparation. -/
theorem prepares_prepareRootClass (scope : Scope) (node : Element) :
    Prepares (prepareRootClass scope node) := by
  unfold prepareRootClass
  refine .bind (.ofExcept _) fun name => .bind (steady_requestTable _ _ _ _).prepares fun _ => ?_
  refine .bind (steady_openTable _).prepares fun table =>
    .bind (steady_commentTable _ _).prepares fun _ => ?_
  refine .bind (steady_bindHeader _ _ _ _ _).prepares fun e =>
    .bind (steady_checkTable _ _).prepares fun _ => ?_
  extract_lets rows
  have hrows : ∀ u, Prepares (rows u) := by
    intro u
    refine .bind (prepares_bindRow _ _ _) fun e => ?_
    exact .ite (.pure _)
      (.bind (quiet_changeTable _ fun t => .setPrimaryKey t _).prepares fun _ => .pure _)
  clear_value rows
  split
  · exact .bind (quiet_changeTable _ fun t => .setRowId t _).prepares hrows
  · exact hrows _

/-- Binding the value of a child of a body is preparation. -/
theorem prepares_bindBodyValue (scope : Scope) (owner : Owner) (walk : BodyWalk)
    (node : Element) : Prepares (bindBodyValue scope owner walk node) := by
  unfold bindBodyValue
  dsimp only
  split
  · exact .bind (prepares_bindCollection _ _ _ _ _) fun _ => .pure _
  · exact .bind (steady_bindOneToOne _ _ _ _).prepares fun _ => .pure _
  · exact .bind (prepares_bindComponent _ _ _) fun _ => .pure _
  · exact .bind (prepares_bindComponent _ _ _) fun _ => .pure _
  · exact .bind (prepares_bindComponent _ _ _) fun _ => .pure _
  · exact (steady_bindSimpleMember _ _ _ _).prepares
  · exact .pure _

/-! ## Deferred passes -/

/-- Binding the content of a collection is preparation. -/
theorem prepares_bindContent (scope : Scope) (owner : Owner) (c : Collection) (node : Element) :
    Prepares (bindContent scope owner c node) := by
  unfold bindContent
  dsimp only
  split
  · exact .bind (steady_bindCollectionKey _ _ _).prepares fun _ => .pure _
  · exact .bind (steady_bindSimpleValue _ _).prepares fun _ => .pure _
  · exact .bind (quiet_bindManyToMany _ _ _).prepares fun _ => .pure _
  · exact .bind (prepares_bindComponent _ _ _) fun _ => .pure _
  · exact .bind (steady_bindAny _ _ _).prepares fun _ => .pure _
  · exact .bind (.ofExcept _) fun _ => .pure _
  · exact .pure _

/-- The contents of a collection are bound by preparations only. -/
theorem prepares_bindContentsOf (scope : Scope) (owner : Owner) (c : Collection)
    (children : List Element) : Prepares (bindContentsOf scope owner c children) := by
  induction children generalizing c with
  | nil => exact .pure _
  | cons node rest ih => exact .bind (prepares_bindContent _ _ _ _) fun c => ih c

/-- So is a map key. -/
theorem prepares_bindMapKey (scope : Scope) (c : Collection) (node : Element) :
    Prepares (bindMapKey scope c node) := by
  unfold bindMapKey
  dsimp only
  split
  · exact .bind (steady_bindSimpleValue _ _).prepares fun _ => .ite (.throw_bind _ _) (.pure _)
  · exact .bind (steady_bindManyToOne _ _ _).prepares fun _ =>
      .bind (.modify fun r => (quietWrites_referTo r _).preparations) fun _ =>
      .bind (.modify fun r => preparations_queuePropertyRef r _) fun _ =>
      .bind (.modify fun r => (quietWrites_constrainValue r _).preparations) fun _ => .pure _
  · exact .bind (steady_find _).prepares fun _ => .bind (prepares_bindComponent _ _ _) fun _ =>
      .pure _
  · exact .bind (steady_bindAny _ _ _).prepares fun _ => .pure _
  · exact .pure _

/-- So are all map keys. -/
theorem prepares_bindMapKeys (scope : Scope) (c : Collection) (children : List Element) :
    Prepares (bindMapKeys scope c children) := by
  induction children generalizing c with
  | nil => exact .pure _
  | cons node rest ih => exact .bind (prepares_bindMapKey _ _ _) fun c => ih c

end ObjectMapping
