import ObjectMapping.Proofs.Reachable
import ObjectMapping.Proofs.Walk

/-!
# What documents declare

Binding documents takes steps of a few kinds: entities are elaborated, by preparation and by changes
that extend them, further entities are registered, definitions are written, and documents wait.
The properties that documents declare are plain: none of them shows a collection from the side of
its elements, since that is for the deferred passes to add.  Hence no entity has such a property
before a session is ended.

A class is prepared by its children one after the other.  What they may do to it is said once: a
condition on entities that survives a change of the root and an ordinary property more
(`Entity.RowKept`) survives them all.
-/

namespace ObjectMapping

open Binding Registry

/-! ## Plain entities -/

namespace Entity

/-- What holds of all declared properties does so after one is added of which it holds. -/
theorem forall_addProperty {P : Property → Prop} {e : Entity} (h : ∀ p ∈ e.allProperties, P p)
    {p : Property} (hp : P p) : ∀ q ∈ (e.addProperty p).allProperties, P q := by
  intro q hq
  unfold allProperties addProperty at hq
  rcases List.mem_append.mp hq with hown | hjoined
  · rcases List.mem_append.mp hown with hold | hnew
    · exact h q (List.mem_append_left _ hold)
    · rwa [List.mem_singleton.mp hnew]
  · exact h q (List.mem_append_right _ hjoined)

/-- None of the declared properties of an entity is a backref. -/
def Plain (e : Entity) : Prop := ∀ p ∈ e.allProperties, p.backref = none

namespace Plain

variable {e : Entity}

/-- Adding a plain property keeps an entity plain. -/
theorem addProperty (h : e.Plain) {p : Property} (hp : p.backref = none) :
    (e.addProperty p).Plain :=
  forall_addProperty h hp

/-- Adding a join of plain properties keeps an entity plain. -/
theorem addJoin (h : e.Plain) {j : Join} (hj : ∀ p ∈ j.properties, p.backref = none) :
    ({ e with joins := e.joins ++ [j] } : Entity).Plain := by
  intro q hq
  unfold allProperties at hq
  rcases List.mem_append.mp hq with hown | hjoined
  · exact h q (List.mem_append_left _ hown)
  · rw [List.flatMap_append] at hjoined
    rcases List.mem_append.mp hjoined with hold | hnew
    · exact h q (List.mem_append_right _ hold)
    · rw [List.flatMap_singleton] at hnew
      exact hj q hnew

end Plain

end Entity

/-- A property with the settings of its element only: it shows no collection and is no part of a
natural identifier. -/
def Property.Ordinary (p : Property) : Prop := p.backref = none ∧ p.naturalIdentifier = false

/-- All declared properties of an entity are ordinary. -/
def Entity.Ordinary (e : Entity) : Prop := ∀ p ∈ e.allProperties, p.Ordinary

namespace Entity.Ordinary

variable {e : Entity} (h : e.Ordinary)
include h

theorem plain : e.Plain := fun p hp => (h p hp).1

theorem modifyRoot (f : RootData → RootData) : (e.modifyRoot f).Ordinary := h

theorem addProperty {p : Property} (hp : p.Ordinary) : (e.addProperty p).Ordinary :=
  forall_addProperty h hp

end Entity.Ordinary

/-! ## Ordinary properties -/

/-- The settings of an element leave a property ordinary. -/
theorem yields_ordinaryProperty (scope : Scope) (node : Element) (value : Value) (name : String) :
    Yields (Binding.ofExcept (bindProperty scope node value name)) Property.Ordinary := by
  refine .ofExcept fun p hp => ?_
  have hbound := boundAs_of_bindProperty hp
  exact ⟨hbound.backref, hbound.naturalIdentifier⟩

theorem yields_ordinaryCreated (scope : Scope) (node : Element) (value : Value)
    (className : Option String) (owner : String) :
    Yields (createProperty scope node value className owner) Property.Ordinary := by
  unfold createProperty
  exact .next fun _ => .next fun _ => .next fun _ => .next fun _ => yields_ordinaryProperty _ _ _ _

/-- The properties of a join are ordinary. -/
theorem yields_ordinaryJoined (scope : Scope) (owner : Owner) (table : TableId)
    (isOptional : Bool) (children : List Element) :
    Yields (bindJoinedProperties scope owner table isOptional children)
      fun ps => ∀ p ∈ ps, p.Ordinary := by
  induction children with
  | nil => exact .pure fun _ hp => absurd hp List.not_mem_nil
  | cons node rest ih =>
    rw [bindJoinedProperties]
    refine .next fun value => ?_
    cases value with
    | none => exact ih
    | some value =>
      refine .bind (yields_ordinaryCreated _ _ _ _ _) fun p hp => .bind ih fun ps hps => .pure ?_
      exact List.forall_mem_cons.mpr ⟨hp, hps⟩

theorem yields_ordinaryJoin (scope : Scope) (owner : Owner) (node : Element) :
    Yields (bindJoin scope owner node) fun j => ∀ p ∈ j.properties, p.Ordinary := by
  unfold bindJoin
  exact .next fun _ => .next fun _ => .next fun _ => .next fun _ => .next fun _ =>
    .bind (yields_ordinaryJoined _ _ _ _ _) fun _ hps => .pure hps

/-! ## Rows -/

/-- A condition on an entity that is kept by all that the children of a class may do to it before it
is registered: they set data of the root, but not the strategy of its hierarchy, and add ordinary
properties. -/
structure Entity.RowKept (P : Entity → Prop) : Prop where
  modifyRoot : ∀ {e : Entity} {f : RootData → RootData},
    (∀ data, (f data).defaultPersister = data.defaultPersister) → P e → P (e.modifyRoot f)
  addProperty : ∀ {e : Entity} {p : Property}, p.Ordinary → P e → P (e.addProperty p)

namespace Entity.RowKept

variable {P : Entity → Prop} (hP : RowKept P) (scope : Scope) {e : Entity} (he : P e)
  (node : Element)
include hP he

theorem root {f : RootData → RootData}
    (hf : ∀ data, (f data).defaultPersister = data.defaultPersister) :
    Yields (changeRoot e f) P := by
  unfold changeRoot
  exact .ite (fun _ => .pure (hP.modifyRoot hf he)) fun _ => .throw _ _

theorem simpleId : Yields (bindSimpleId scope e node) P := by
  unfold bindSimpleId
  refine .next fun _ => .next fun _ => .ite (fun _ => .throw_bind _ _ _) fun _ => .next fun _ => ?_
  split
  · exact .next fun _ => hP.root he fun _ => rfl
  · exact .next fun _ => hP.root he fun _ => rfl

/-- The shadow of a composite identifier is an ordinary property. -/
theorem mapper (path : String) : Yields (bindIdentifierMapper scope e path node) P := by
  unfold bindIdentifierMapper
  exact .next fun _ => hP.root (hP.addProperty ⟨rfl, rfl⟩ he) fun _ => rfl

theorem compositeId : Yields (bindCompositeId scope e node) P := by
  unfold bindCompositeId
  refine .ite (fun _ => .throw_bind _ _ _) fun _ => .next fun id => ?_
  extract_lets key finish
  have hfinish : ∀ e₁ : Entity, P e₁ → Yields (finish e₁) P := by
    intro e₁ he₁
    unfold finish
    dsimp only
    split
    · exact .next fun _ => hP.root he₁ fun _ => rfl
    · exact hP.root he₁ fun _ => rfl
  clear_value finish
  exact .ite (fun _ => .bind (hP.mapper scope he node _) hfinish) fun _ => .bind (.pure he) hfinish

theorem version : Yields (bindVersion scope e node) P := by
  unfold bindVersion
  refine .next fun _ => .next fun _ => .bind (yields_ordinaryProperty _ _ _ _) fun p hp => ?_
  exact .ite (fun _ => .throw_bind _ _ _) fun _ =>
    .bind (hP.root he fun _ => rfl) fun _ he => .pure (hP.addProperty hp he)

theorem rowChild : Yields (bindRowChild scope e node) P := by
  unfold bindRowChild
  split
  · exact hP.simpleId scope he node
  · exact hP.compositeId scope he node
  · exact hP.version scope he node
  · exact hP.version scope he node
  · exact .next fun _ => hP.root he fun _ => rfl
  · exact .next fun _ => .pure (hP.modifyRoot (fun _ => rfl) he)
  · exact .pure he

/-- The children of a class keep the condition one after the other. -/
theorem row (children : List Element) : Yields (bindRow scope e children) P := by
  induction children generalizing e with
  | nil => exact .pure he
  | cons node rest ih => exact .bind (hP.rowChild scope he node) fun _ he₁ => ih he₁

end Entity.RowKept

/-- Entities with ordinary properties remain such. -/
theorem rowKept_ordinary : Entity.RowKept Entity.Ordinary where
  modifyRoot _ he := he.modifyRoot _
  addProperty hp he := he.addProperty hp

/-! ## Opening an entity -/

theorem yields_ordinaryHeader (scope : Scope) (node : Element) (name : String) (kind : EntityKind)
    (table : TableId) : Yields (bindHeader scope node name kind table) Entity.Ordinary := by
  unfold bindHeader
  exact .next fun _ => .next fun _ => .next fun _ => .pure fun _ hp => absurd hp List.not_mem_nil

/-- The properties of a subclass are ordinary when it is registered. -/
theorem yields_ordinarySubclass (kind : SubclassKind) (scope : Scope) (superclass : String)
    (node : Element) : Yields (prepareSubclass kind scope superclass node) Entity.Ordinary := by
  cases kind with
  | plain => exact .next fun _ => .next fun _ => yields_ordinaryHeader _ _ _ _ _
  | joined =>
    exact .next fun _ => .next fun _ => .next fun _ => .next fun _ => .next fun _ =>
      .next fun _ => .next fun _ => yields_ordinaryHeader _ _ _ _ _
  | union =>
    exact .next fun _ => .next fun _ => .next fun _ => .next fun _ => .next fun _ =>
      .next fun _ => yields_ordinaryHeader _ _ _ _ _

/-- A root whose header is bound, and none of its rows: it has no identifier, no version, no
discriminator, no strategy and no properties. -/
structure Entity.Rowless (e : Entity) : Prop where
  root : ∃ data, e.root? = some data ∧ data.identifier = none ∧ data.version = none ∧
    data.discriminator = none ∧ data.defaultPersister = none
  allProperties : e.allProperties = []

/-- What binding the rows of a class makes sure of holds when the class is prepared. -/
theorem yields_prepared {scope : Scope} {node : Element} {P : Entity → Prop}
    (hrow : ∀ e : Entity, e.Rowless → Yields (bindRow (scope.descend node) e node.children) P) :
    Yields (prepareRootClass scope node) P := by
  unfold prepareRootClass
  refine .next fun name => .next fun _ => .next fun table => .next fun _ =>
    .bind (P := Entity.Rowless) ?_ fun e he => .next fun _ => ?_
  · unfold bindHeader
    exact .next fun _ => .next fun _ => .next fun _ => .pure ⟨⟨_, rfl, rfl, rfl, rfl, rfl⟩, rfl⟩
  extract_lets rows
  have hrows : ∀ u, Yields (rows u) P := fun u =>
    .bind (hrow e he) fun e' he' => .ite (fun _ => .pure he') fun _ => .next fun _ => .pure he'
  clear_value rows
  split
  · exact .next hrows
  · exact hrows _

/-- The properties of a root class are ordinary when it is registered, too. -/
theorem yields_ordinaryRootClass (scope : Scope) (node : Element) :
    Yields (prepareRootClass scope node) Entity.Ordinary := by
  refine yields_prepared fun e he => rowKept_ordinary.row _ (fun p hp => ?_) _
  rw [he.allProperties] at hp
  cases hp

/-! ## Declarations -/

/-- One step of binding what is not a property of its own: an entity may get other settings, and
joins of ordinary properties. -/
inductive Supplement : Registry → Registry → Prop
  | prepare {r r' : Registry} (h : Preparation r r') : Supplement r r'
  /-- An entity is extended, and its properties are left alone. -/
  | change (r : Registry) (name : String) {f : Entity → Entity}
      (hextends : ∀ e : Entity, e.Extends (f e))
      (hproperties : ∀ e : Entity, (f e).properties = e.properties)
      (hjoins : ∀ e : Entity, (f e).joins = e.joins) : Supplement r (r.modifyEntity name f)
  | join (r : Registry) (name : String) {j : Join} (hj : ∀ p ∈ j.properties, p.Ordinary) :
      Supplement r (r.modifyEntity name fun e => { e with joins := e.joins ++ [j] })

/-- One step of elaborating the entities that are registered. -/
inductive Elaboration : Registry → Registry → Prop
  | prepare {r r' : Registry} (h : Preparation r r') : Elaboration r r'
  /-- An entity is extended, and stays plain. -/
  | change (r : Registry) (name : String) {f : Entity → Entity}
      (h : ∀ e : Entity, e.Plain → (f e).Plain) (hextends : ∀ e : Entity, e.Extends (f e)) :
      Elaboration r (r.modifyEntity name f)

/-- One step of binding the classes of documents. -/
inductive Enrollment : Registry → Registry → Prop
  | elaborate {r r' : Registry} (h : Elaboration r r') : Enrollment r r'
  /-- A plain entity is registered. -/
  | entity {r r' : Registry} {e : Entity} (h : r.addEntity e = .ok r') (hplain : e.Plain) :
      Enrollment r r'

/-- One step of binding the contents of documents. -/
inductive Entry : Registry → Registry → Prop
  | enroll {r r' : Registry} (h : Enrollment r r') : Entry r r'
  | define {r r' : Registry} (h : DefinitionWrite r r') : Entry r r'

/-- One step of binding documents. -/
inductive Declaration : Registry → Registry → Prop
  | entry {r r' : Registry} (h : Entry r r') : Declaration r r'
  /-- The queue of waiting documents is changed. -/
  | waiting (r : Registry) (waiting : List PendingDocument) : Declaration r { r with waiting }

/-- What supplements an entity keeps it plain. -/
theorem Supplement.elaboration {r r' : Registry} (h : Supplement r r') : Elaboration r r' := by
  cases h with
  | prepare h => exact .prepare h
  | change name hextends hproperties hjoins =>
    refine .change r name (fun e he => ?_) hextends
    unfold Entity.Plain Entity.allProperties
    rw [hproperties, hjoins]
    exact he
  | join name hj =>
    exact .change r name (fun _ he => he.addJoin fun p hp => (hj p hp).1)
      fun _ => ⟨rfl, rfl, rfl, rfl⟩

namespace Binding

variable {α : Type} {m : Binding α}

/-- Every run supplements entities only, whether it ends well or in an error. -/
def Supplementing (m : Binding α) : Prop := Makes Supplement m

/-- Every run elaborates only, whether it ends well or in an error. -/
def Elaborating (m : Binding α) : Prop := Makes Elaboration m

/-- Every run binds classes only, whether it ends well or in an error. -/
def Enrolling (m : Binding α) : Prop := Makes Enrollment m

/-- Every run takes steps of binding documents only, whether it ends well or in an error. -/
def Declaring (m : Binding α) : Prop := Makes Declaration m

/-- Elaboration is part of binding classes. -/
theorem Elaborating.enrolling (h : m.Elaborating) : m.Enrolling :=
  Makes.mono h fun _ _ hstep => .single (.elaborate hstep)

/-- Supplements are part of elaboration. -/
theorem Supplementing.elaborating (h : m.Supplementing) : m.Elaborating :=
  Makes.mono h fun _ _ hstep => .single hstep.elaboration

/-- Preparation supplements entities, at most by a mark. -/
theorem Prepares.supplementing (h : m.Prepares) : m.Supplementing :=
  Makes.mono h fun _ _ hstep => .single (.prepare hstep)

/-- Preparation is part of elaboration. -/
theorem Prepares.elaborating (h : m.Prepares) : m.Elaborating :=
  Makes.mono h fun _ _ hstep => .single (.prepare hstep)

end Binding

theorem elaborating_changeEntity {name : String} {f : Entity → Entity}
    (h : ∀ e : Entity, e.Plain → (f e).Plain) (hextends : ∀ e : Entity, e.Extends (f e)) :
    Elaborating (changeEntity name f) := by
  unfold changeEntity
  exact .bind .get fun _ => .ite (.modify fun r => .single (.change r name h hextends)) (.throw _)

theorem supplementing_changeEntity {name : String} {f : Entity → Entity}
    (hextends : ∀ e : Entity, e.Extends (f e))
    (hproperties : ∀ e : Entity, (f e).properties = e.properties)
    (hjoins : ∀ e : Entity, (f e).joins = e.joins) : Supplementing (changeEntity name f) := by
  unfold changeEntity
  exact .bind .get fun _ =>
    .ite (.modify fun r => .single (.change r name hextends hproperties hjoins)) (.throw _)

/-- What a new subclass changes in its superclass and in the root of the hierarchy. -/
theorem supplementing_adoption (name superclass : String) (strategy : PersisterStrategy) :
    Supplementing (do
      changeEntity superclass fun s => { s with subclasses := s.subclasses ++ [name] }
      modify fun r =>
        if r.hasPersister name then r
        else r.modifyRootOf name ({ · with defaultPersister := some strategy }) :
          Binding PUnit) := by
  refine .bind (supplementing_changeEntity (fun _ => ⟨rfl, rfl, rfl, rfl⟩) (fun _ => rfl)
    fun _ => rfl) fun _ => .modify fun r => ?_
  split
  · exact .refl
  · unfold Registry.modifyRootOf
    split
    · exact .single (.change r _ (fun e => .modifyRoot e _) (fun _ => rfl) fun _ => rfl)
    · exact .refl

theorem enrolling_openSubclass (kind : SubclassKind) (scope : Scope) (superclass : String)
    (node : Element) : Enrolling (openSubclass kind scope superclass node) := by
  unfold openSubclass registerSubclass
  exact .bindOf (quiet_prepareSubclass _ _ _ _).prepares.elaborating.enrolling
    (yields_ordinarySubclass _ _ _ _) fun e he =>
    .bind (.bind (.register fun _ _ hadd => .entity hadd he.plain) fun _ =>
      (supplementing_adoption e.name _ _).elaborating.enrolling) fun _ => .pure _

theorem enrolling_openRootClass (scope : Scope) (node : Element) :
    Enrolling (openRootClass scope node) := by
  unfold openRootClass
  exact .bindOf (prepares_prepareRootClass _ _).elaborating.enrolling (yields_ordinaryRootClass _ _)
    fun _ he => .bind (.register fun _ _ hadd => .entity hadd he.plain) fun _ => .pure _

/-! ## Bodies -/

theorem elaborating_bindBodyProperty (scope : Scope) (owner : Owner) (walk : BodyWalk)
    (node : Element) : Elaborating (bindBodyProperty scope owner walk node) := by
  unfold bindBodyProperty
  refine .bind (prepares_bindBodyValue _ _ _ _).elaborating fun value => ?_
  cases value with
  | none => exact .pure _
  | some value =>
    refine .bindOf (prepares_createProperty _ _ _ _ _).elaborating
      (yields_ordinaryCreated _ _ _ _ _) fun p hp => ?_
    exact .bind (elaborating_changeEntity (fun _ he => he.addProperty hp.1)
      fun _ => ⟨rfl, rfl, rfl, rfl⟩) fun _ => .pure _

/-- What is in a body next to its properties supplements the owner, and adds no property but those
of joins. -/
theorem supplementing_bindBodyExtra (scope : Scope) (owner : Owner) (node : Element) (tag : Tag) :
    Supplementing (bindBodyExtra scope owner node tag) := by
  unfold bindBodyExtra
  split
  · refine .bindOf (prepares_bindJoin _ _ _).supplementing (yields_ordinaryJoin _ _ _)
      fun _ hj => ?_
    unfold changeEntity
    exact .bind .get fun _ => .ite (.modify fun r => .single (.join r _ hj)) (.throw _)
  · exact .bind (steady_bindFilterUse _).prepares.supplementing fun _ =>
      supplementing_changeEntity (fun _ => ⟨rfl, rfl, rfl, rfl⟩) (fun _ => rfl) fun _ => rfl
  · exact (steady_bindNamedQuery _ _).prepares.supplementing
  · exact (steady_bindNamedSqlQuery _ _ _).prepares.supplementing
  · exact (steady_bindResultSet _ _ _).prepares.supplementing
  · exact .pure _

/-- Wherever the walk over a document stops, classes are bound. -/
theorem walked_of_enrollment {U : Upkeep}
    (h : ∀ r r', Enrollment r r' → U.invariant r → U.Advances r r') :
    Walked U fun _ _ => True where
  child _ _ := trivial
  descend _ _ := trivial
  steady hwrite := h _ _ (.elaborate (.prepare (.quiet hwrite.quietWrite)))
  openRootClass _ := .of_steps (enrolling_openRootClass _ _) h
  openSubclass _ _ _ _ _ := .of_steps (enrolling_openSubclass _ _ _ _) h
  bindBodyProperty _ _ _ _ := .of_steps (elaborating_bindBodyProperty _ _ _ _).enrolling h
  bindBodyExtra _ _ _ _ := .of_steps (supplementing_bindBodyExtra _ _ _ _).elaborating.enrolling h

/-! ## Documents -/

/-- The contents of a document are classes and definitions. -/
theorem entering_bindRoot (root : Element) (metas : MetaMap) : Makes Entry (bindRoot root metas) :=
  have hwalked : Walked (.ofSteps Entry) fun _ _ => True :=
    walked_of_enrollment fun _ _ hstep _ => ⟨.single (.enroll hstep), trivial⟩
  makes_of_upholds fun _ => hwalked.upholds_bindRoot metas (fun _ _ => trivial)
    (.of_writes root fun hstep _ => ⟨.single (.define hstep), trivial⟩)

theorem declaring_bindRoot (root : Element) (metas : MetaMap) :
    Declaring (bindRoot root metas) :=
  Makes.mono (entering_bindRoot root metas) fun _ _ hstep => .single (.entry hstep)

theorem declaring_bindDocument (document : Document) (metas : MetaMap) :
    Declaring (bindDocument document metas) := by
  unfold bindDocument
  refine .bind .get fun r => .ite (.bind (declaring_bindRoot _ _) fun _ => .pure _) ?_
  exact .bind (.modify fun r => .single (.waiting r _)) fun _ => .pure _

namespace Session

theorem declaring_bindAll (batch : List PendingDocument) : Declaring (bindAll batch) := by
  induction batch with
  | nil => exact .pure _
  | cons pending rest ih =>
    exact .bind (declaring_bindDocument _ _) fun _ => .bind ih fun _ => .pure _

/-- Working off the queue takes documents off it and binds them.  By induction on the length of
the queue, as the loop itself. -/
theorem declaring_workOff (bound : Nat) : Declaring (workOff bound) := by
  intro r
  have hloop : Relation.ReflTransGen Declaration r (registryOf (workOff bound r)) := by
    induction hlength : backlog r using Nat.strongRecOn generalizing bound r with
    | ind length ih =>
      have htake : Relation.ReflTransGen Declaration r r.takeReady.2 := .single (.waiting r _)
      have hround := declaring_bindAll r.takeReady.1 r.takeReady.2
      rw [workOff]
      dsimp only
      split
      · exact htake
      · cases hrun : (bindAll r.takeReady.1).run r.takeReady.2 with
        | error e r' =>
          rw [after_eq_of_error hrun] at hround
          exact htake.trans hround
        | ok n r' =>
          rw [after_eq_of_ok hrun] at hround
          dsimp only
          split
          · next hless => exact (htake.trans hround).trans (ih _ (hlength ▸ hless) _ r' rfl)
          · exact htake.trans hround
  exact hloop

theorem declaring_addDocument (document : Document) (metas : MetaMap) :
    Declaring (addDocument document metas) := by
  unfold addDocument
  refine .bind (declaring_bindDocument _ _) fun outcome => ?_
  exact .ite (.bind (.bind (declaring_workOff 0) fun _ => .pure _) fun _ => .pure _) (.pure _)

/-! ## Open sessions -/

/-- The registries that a session can reach before it is ended, whether its calls end well or
not. -/
inductive Open (options : RegistryOptions) : Registry → Prop
  | start : Open options { options }
  | call {r : Registry} (h : Open options r) (c : Call) (hopen : c ≠ .finish) :
      Open options (c.run.after r)

/-- A call that does not end the session declares. -/
theorem Call.declaring {c : Call} (h : c ≠ .finish) : Declaring c.run := by
  cases c with
  | bind document metas => exact .bind (declaring_bindDocument _ _) fun _ => .pure _
  | add document metas => exact .bind (declaring_addDocument _ _) fun _ => .pure _
  | process => exact .bind (declaring_workOff 0) fun _ => .pure _
  | finish => exact absurd rfl h

/-- An invariant of declarations that holds at the start holds of every open session. -/
theorem Open.invariant {options : RegistryOptions} {P : Registry → Prop}
    (hstart : P { options }) (hstep : ∀ {r r'}, Declaration r r' → P r → P r') {r : Registry}
    (h : Open options r) : P r := by
  induction h with
  | start => exact hstart
  | @call r _ c hopen ih =>
    have hsteps := Call.declaring hopen r
    generalize c.run.after r = r' at hsteps
    induction hsteps with
    | refl => exact ih
    | tail _ hlast ih => exact hstep hlast ih

/-- A step of binding documents keeps entities plain. -/
theorem plain_of_declaration {r r' : Registry} (h : Declaration r r')
    (hr : ∀ k ∈ r.entities.entries, k.2.Plain) : ∀ k ∈ r'.entities.entries, k.2.Plain := by
  have hchange : ∀ (r : Registry) (name : String) (f : Entity → Entity),
      (∀ e : Entity, e.Plain → (f e).Plain) → (∀ k ∈ r.entities.entries, k.2.Plain) →
      ∀ k ∈ (r.modifyEntity name f).entities.entries, k.2.Plain := by
    intro r name f hf hr k hk
    obtain ⟨k₀, hk₀, rfl⟩ := List.mem_map.mp hk
    split
    · exact hf k₀.2 (hr k₀ hk₀)
    · exact hr k₀ hk₀
  have helaborate : ∀ {r r' : Registry}, Elaboration r r' →
      (∀ k ∈ r.entities.entries, k.2.Plain) → ∀ k ∈ r'.entities.entries, k.2.Plain := by
    intro r r' h hr
    cases h with
    | prepare h =>
      cases h with
      | quiet h => rwa [h.alike.entities]
      | collection h =>
        obtain ⟨-, rfl⟩ := addCollection_eq_ok.mp h
        exact hr
      | propertyRef => exact hr
      | mark name => exact hchange r name _ (fun _ he => he) hr
    | change name h => exact hchange r name _ h hr
  cases h with
  | waiting => exact hr
  | entry h =>
    cases h with
    | define h => cases h <;> exact hr
    | enroll h =>
      cases h with
      | elaborate h => exact helaborate h hr
      | @entity e h hplain =>
        obtain ⟨hnew, rfl⟩ := addEntity_eq_ok.mp h
        have hfresh : r.entities.contains e.name = false := hnew
        intro k hk
        simp only [KeyedList.insert, hfresh, dif_pos, KeyedList.push, List.mem_append,
          List.mem_singleton] at hk
        rcases hk with hold | rfl
        · exact hr k hold
        · exact hplain

/-- Every entity of an open session is plain. -/
theorem Open.plain {options : RegistryOptions} {r : Registry} (h : Open options r) :
    ∀ k ∈ r.entities.entries, k.2.Plain :=
  h.invariant (P := fun r => ∀ k ∈ r.entities.entries, k.2.Plain)
    (fun _ hk => absurd hk List.not_mem_nil) plain_of_declaration

/-- Ending a session works off the queue first, which leaves the session open. -/
theorem Open.workedOff {options : RegistryOptions} {r : Registry} (h : Open options r) :
    Open options (processQueue.after r) := by
  have hcall := h.call .process (fun hc => nomatch hc)
  rwa [Call.run, after_discard] at hcall

end Session

end ObjectMapping
