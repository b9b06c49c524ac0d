import ObjectMapping.Proofs.Forest
import ObjectMapping.Proofs.Redefinition

/-!
# Where roots come from

A class is prepared from its element before it is registered, and only then is known to all others.
From there on it is developed: properties are added to it, a strategy is chosen for its hierarchy,
properties inside it are marked, and otherwise neither its kind nor its own properties change.  So
every root of a registry is what became of a class of one of the documents (`Entity.StemsFrom`), and
whatever preparing a class makes sure of holds of that root, provided that development keeps it.

This holds wherever a document or a pass stops: a class whose body failed is registered all the
same.
-/

namespace ObjectMapping

open Binding Registry

/-! ## Development -/

/-- One change of an entity that is registered. -/
inductive Entity.Development : Entity → Entity → Prop
  /-- What belongs neither to the kind nor to the own properties is changed. -/
  | supplement {e e' : Entity} (hkind : e'.kind = e.kind)
      (hproperties : e'.properties = e.properties) : Development e e'
  | declare (e : Entity) (p : Property) : Development e (e.addProperty p)
  | choose (e : Entity) (strategy : PersisterStrategy) :
      Development e (e.modifyRoot ({ · with defaultPersister := some strategy }))
  | mark (e : Entity) (slot : PropertySlot) (members : List Nat) :
      Development e (e.modifySlot (·.modifyAt markAlternateKey members) slot)

/-- Any number of changes. -/
def Entity.Develops : Entity → Entity → Prop := Relation.ReflTransGen Entity.Development

namespace Entity

variable {e e' : Entity}

/-- The data of a root change as they are changed. -/
theorem root?_modifyRoot (e : Entity) (f : RootData → RootData) :
    (e.modifyRoot f).root? = e.root?.map f := by
  obtain ⟨_, _, _, _, kind, _⟩ := e
  cases kind <;> rfl

/-- A change of the data of a root makes no root and unmakes none. -/
theorem isRoot_modifyRoot (e : Entity) (f : RootData → RootData) :
    (e.modifyRoot f).isRoot = e.isRoot := by
  rw [isRoot, root?_modifyRoot, Option.isSome_map, isRoot]

/-- No single change of an entity does. -/
theorem Development.isRoot (h : e.Development e') : e'.isRoot = e.isRoot := by
  cases h with
  | supplement hkind => rw [Entity.isRoot, root?, hkind, Entity.isRoot, root?]
  | declare => rfl
  | choose => exact e.isRoot_modifyRoot _
  | mark slot =>
    cases slot with
    | own | joined => rfl
    | identifier => exact e.isRoot_modifyRoot _

/-- A root remains one, and nothing else becomes one. -/
theorem Develops.isRoot (h : e.Develops e') : e'.isRoot = e.isRoot := by
  induction h with
  | refl => rfl
  | tail _ hlast ih => exact hlast.isRoot.trans ih

/-- An entity is what became of a class that was prepared from one of some elements, and registered
under a name. -/
def StemsFrom (opens : Scope → Element → Prop) (name : String) (e : Entity) : Prop :=
  ∃ scope node e₀ r r', opens scope node ∧ (prepareRootClass scope node).run r = .ok e₀ r' ∧
    e₀.name = name ∧ e₀.Develops e

namespace StemsFrom

variable {opens opens' : Scope → Element → Prop} {name : String}

/-- What became of an entity later stems from the same class. -/
theorem develops (h : e.StemsFrom opens name) (hlater : e.Develops e') :
    e'.StemsFrom opens name := by
  obtain ⟨scope, node, e₀, r, r', hopens, hrun, hname, hdevelops⟩ := h
  exact ⟨scope, node, e₀, r, r', hopens, hrun, hname, hdevelops.trans hlater⟩

/-- An entity that stems from some classes stems from any to which these belong. -/
theorem mono (h : e.StemsFrom opens name) (hmono : ∀ scope node, opens scope node →
    opens' scope node) : e.StemsFrom opens' name := by
  obtain ⟨scope, node, e₀, r, r', hopens, hrun, hname, hdevelops⟩ := h
  exact ⟨scope, node, e₀, r, r', hmono scope node hopens, hrun, hname, hdevelops⟩

/-- What preparing a class makes sure of, and development keeps, holds of every entity that stems
from one. -/
theorem exists_of_yields {Q : Scope → Element → Entity → Prop} (h : e.StemsFrom opens name)
    (hyields : ∀ scope node, Yields (prepareRootClass scope node) (Q scope node))
    (hkept : ∀ {scope node e e'}, Development e e' → Q scope node e → Q scope node e') :
    ∃ scope node, opens scope node ∧ entityNameIn scope.defaults node = name ∧ Q scope node e := by
  obtain ⟨scope, node, e₀, r, r', hopens, hrun, rfl, hdevelops⟩ := h
  have hname := (yields_prepareRootClass scope node r e₀ r' hrun).1
  refine ⟨scope, node, hopens, entityNameIn_of_entityNameOf hname, ?_⟩
  induction hdevelops with
  | refl => exact hyields scope node r e₀ r' hrun
  | tail _ hlast ih => exact hkept hlast ih

end StemsFrom

end Entity

/-! ## Roots of registries -/

/-- What is registered is developed at most, and every new root stems from one of some elements. -/
structure Registry.RootsFrom (opens : Scope → Element → Prop) (r r' : Registry) : Prop where
  kept : ∀ {name e}, r.entity? name = some e → ∃ e', r'.entity? name = some e' ∧ e.Develops e'
  origin : ∀ {name e'}, r'.entity? name = some e' → e'.isRoot = true →
    (∃ e, r.entity? name = some e ∧ e.Develops e') ∨ e'.StemsFrom opens name

section

variable {opens : Scope → Element → Prop} {r r' r'' : Registry}

namespace Registry.RootsFrom

/-- Nothing happens to entities that are left alone. -/
theorem of_entities (h : r'.entities = r.entities) : RootsFrom opens r r' where
  kept {name e} he := ⟨e, by rwa [entity?, h], .refl⟩
  origin {name e'} he' _ := .inl ⟨e', by rwa [entity?, ← h], .refl⟩

/-- Roots of the first of two runs are developed by the second. -/
theorem trans (h : RootsFrom opens r r') (h' : RootsFrom opens r' r'') : RootsFrom opens r r'' where
  kept he := by
    obtain ⟨e', he', hfirst⟩ := h.kept he
    obtain ⟨e'', he'', hsecond⟩ := h'.kept he'
    exact ⟨e'', he'', hfirst.trans hsecond⟩
  origin {name e''} he'' hroot := by
    rcases h'.origin he'' hroot with ⟨e', he', hsecond⟩ | hstems
    · rcases h.origin he' (hsecond.isRoot.symm.trans hroot) with ⟨e, he, hfirst⟩ | hstems
      · exact .inl ⟨e, he, hfirst.trans hsecond⟩
      · exact .inr (hstems.develops hsecond)
    · exact .inr hstems

theorem mono {opens' : Scope → Element → Prop} (h : RootsFrom opens r r')
    (hmono : ∀ scope node, opens scope node → opens' scope node) : RootsFrom opens' r r' :=
  ⟨h.kept, fun he hroot => (h.origin he hroot).imp_right (·.mono hmono)⟩

/-- An entity may be developed in place. -/
theorem modifyEntity (r : Registry) (name : String) {f : Entity → Entity}
    (hf : ∀ e : Entity, e.Develops (f e)) : RootsFrom opens r (r.modifyEntity name f) := by
  have hdevelops : ∀ name' (e : Entity), e.Develops (if name' = name then f e else e) := by
    intro name' e
    split
    · exact hf e
    · exact .refl
  refine ⟨fun {name' e} he =>
      ⟨_, by rw [entity?_modifyEntity, he, Option.map_some], hdevelops name' e⟩,
    fun {name' e'} he' _ => .inl ?_⟩
  rw [entity?_modifyEntity] at he'
  obtain ⟨e, he, rfl⟩ := Option.map_eq_some_iff.mp he'
  exact ⟨e, he, hdevelops name' e⟩

/-- It may be changed in what belongs neither to its kind nor to its own properties. -/
theorem supplement (r : Registry) (name : String) {f : Entity → Entity}
    (hkind : ∀ e, (f e).kind = e.kind) (hproperties : ∀ e, (f e).properties = e.properties) :
    RootsFrom opens r (r.modifyEntity name f) :=
  .modifyEntity r name fun e => .single (.supplement (hkind e) (hproperties e))

/-- It may get a property. -/
theorem declare (r : Registry) (name : String) (p : Property) :
    RootsFrom opens r (r.modifyEntity name (·.addProperty p)) :=
  .modifyEntity r name fun e => .single (.declare e p)

/-- An entity may be registered, if it stems from one of the classes in case it is a root. -/
theorem addEntity {e : Entity} (h : r.addEntity e = .ok r')
    (hstems : e.isRoot = true → e.StemsFrom opens e.name) : RootsFrom opens r r' := by
  refine ⟨fun {name e₀} he₀ => ⟨e₀, entity?_of_addEntity_of_some h he₀, .refl⟩,
    fun {name e'} he' hroot => ?_⟩
  rcases eq_or_of_entity?_addEntity h he' with ⟨rfl, rfl⟩ | hold
  · exact .inr (hstems hroot)
  · exact .inl ⟨e', hold, .refl⟩

end Registry.RootsFrom

/-! ## Steps -/

/-- Preparation develops entities at most. -/
theorem Registry.Preparation.rootsFrom (h : Preparation r r') : RootsFrom opens r r' := by
  cases h with
  | quiet h => exact .of_entities h.alike.entities
  | collection h =>
    obtain ⟨-, rfl⟩ := addCollection_eq_ok.mp h
    exact .of_entities rfl
  | propertyRef => exact .of_entities rfl
  | mark name => exact .supplement r name (fun _ => rfl) fun _ => rfl

/-- So do the writes of deferred passes. -/
theorem Registry.Passing.rootsFrom (h : Passing r r') : RootsFrom opens r r' := by
  cases h with
  | prepare h => exact h.rootsFrom
  | reveal name => exact .declare r name _
  | store => exact .of_entities rfl

/-- Marking a property as an alternate key is a development. -/
theorem Registry.Mark.rootsFrom (h : Mark r r') : RootsFrom opens r r' := by
  cases h with
  | property place =>
    exact .modifyEntity r place.entity fun e => .single (.mark e place.slot place.members)

/-- A number of steps that each develop entities at most. -/
theorem Registry.RootsFrom.of_steps {S : Registry → Registry → Prop}
    (hstep : ∀ {r r'}, S r r' → RootsFrom opens r r') (h : Relation.ReflTransGen S r r') :
    RootsFrom opens r r' := by
  induction h with
  | refl => exact .of_entities rfl
  | tail _ hlast ih => exact ih.trans (hstep hlast)

/-! ## Documents -/

/-- Entities are developed at most, and new roots stem from some elements. -/
def rooting (opens : Scope → Element → Prop) : Upkeep where
  invariant _ := True
  keeps := RootsFrom opens
  refl _ := .of_entities rfl
  trans := .trans

/-- What only prepares registers no root. -/
theorem rooting_prepares {α : Type} {m : Binding α} (hm : m.Prepares) :
    Upholds (rooting opens) m r fun _ _ => True :=
  .of_steps hm fun _ _ h _ => ⟨h.rootsFrom, trivial⟩

/-- Changing an entity develops it. -/
theorem rooting_changeEntity (name : String) {f : Entity → Entity}
    (hf : ∀ e : Entity, e.Develops (f e)) :
    Upholds (rooting opens) (changeEntity name f) r fun _ _ => True := by
  unfold changeEntity
  exact .get_bind (.ite (fun _ => .write fun _ => ⟨.modifyEntity r name hf, trivial⟩)
    fun _ => .throw _)

/-- Registering a subclass develops its superclass and the root of its hierarchy. -/
theorem rooting_registerSubclass {e : Entity} (hsub : e.isRoot = false) (superclass : String)
    (strategy : PersisterStrategy) :
    Upholds (rooting opens) (registerSubclass e superclass strategy) r fun _ _ => True := by
  unfold registerSubclass
  refine .bind (P := fun _ _ => True) (.register fun r₁ _ hadd => ⟨⟨.addEntity hadd ?_, trivial⟩,
    trivial⟩) fun _ r₁ _ _ => ?_
  · intro hroot
    rw [hsub] at hroot
    cases hroot
  refine .bind (rooting_changeEntity superclass fun e => .single (.supplement rfl rfl))
    fun _ r₂ _ _ => .write fun _ => ⟨?_, trivial⟩
  split
  · exact .of_entities rfl
  · unfold modifyRootOf
    split
    · exact .modifyEntity r₂ _ fun root => .single (.choose root strategy)
    · exact .of_entities rfl

/-- Opening a subclass registers an entity that is no root. -/
theorem rooting_openSubclass (kind : SubclassKind) (scope : Scope) (superclass : String)
    (node : Element) :
    Upholds (rooting opens) (openSubclass kind scope superclass node) r fun _ _ => True := by
  unfold openSubclass
  have hprepared : Upholds (rooting opens) (prepareSubclass kind scope superclass node) r
      fun e _ => e.isRoot = false :=
    (rooting_prepares (quiet_prepareSubclass kind scope superclass node).prepares).of_run
      fun e r' hrun _ => by
        have hsuper : e.superclass? = some superclass := congrArg EntitySkeleton.superclass
          (yields_prepareSubclass kind scope superclass node r e r' hrun).2
        exact Bool.eq_false_iff.mpr fun hroot => by
          rw [isRoot_iff.mp hroot] at hsuper
          cases hsuper
  exact .bind hprepared fun e r₁ _ hsub =>
    .bind (rooting_registerSubclass hsub superclass kind.strategy) fun _ _ _ _ => .pure trivial

/-- A property of a body is declared by its owner. -/
theorem rooting_bindBodyProperty (scope : Scope) (owner : Owner) (walk : BodyWalk)
    (node : Element) :
    Upholds (rooting opens) (bindBodyProperty scope owner walk node) r fun _ _ => True := by
  unfold bindBodyProperty
  refine .bind (rooting_prepares (prepares_bindBodyValue _ _ _ _)) fun value r₁ _ _ => ?_
  cases value with
  | none => exact .pure trivial
  | some value =>
    refine .bind (rooting_prepares (prepares_createProperty _ _ _ _ _)) fun p r₂ _ _ => ?_
    exact .bind (rooting_changeEntity _ fun e => .single (.declare e _)) fun _ _ _ _ =>
      .pure trivial

/-- What a body has besides properties and subclasses supplements its owner. -/
theorem rooting_bindBodyExtra (scope : Scope) (owner : Owner) (node : Element) (tag : Tag) :
    Upholds (rooting opens) (bindBodyExtra scope owner node tag) r fun _ _ => True := by
  have hsupplement : ∀ r' (f : Entity → Entity), (∀ e, (f e).kind = e.kind) →
      (∀ e, (f e).properties = e.properties) →
      Upholds (rooting opens) (changeEntity owner.name f) r' fun _ _ => True :=
    fun r' f hkind hproperties => rooting_changeEntity _ fun e =>
      .single (.supplement (hkind e) (hproperties e))
  unfold bindBodyExtra
  split
  · exact .bind (rooting_prepares (prepares_bindJoin _ _ _)) fun j r₁ _ _ =>
      hsupplement r₁ _ (fun _ => rfl) fun _ => rfl
  · exact .bind (rooting_prepares (steady_bindFilterUse _).prepares) fun filter r₁ _ _ =>
      hsupplement r₁ _ (fun _ => rfl) fun _ => rfl
  · exact rooting_prepares (steady_bindNamedQuery _ _).prepares
  · exact rooting_prepares (steady_bindNamedSqlQuery _ _ _).prepares
  · exact rooting_prepares (steady_bindResultSet _ _ _).prepares
  · exact .pure trivial

/-- Bodies open no classes. -/
theorem walked_rooting : BodyWalked (rooting opens) fun _ _ => True where
  child _ _ := trivial
  descend _ _ := trivial
  steady h _ := ⟨.of_entities h.quietWrite.alike.entities, trivial⟩
  openSubclass kind _ superclass _ _ := rooting_openSubclass kind _ superclass _
  bindBodyProperty owner _ _ _ := rooting_bindBodyProperty _ owner _ _
  bindBodyExtra owner _ tag _ := rooting_bindBodyExtra _ owner _ tag

/-- A class that is opened stems from its own element. -/
theorem rooting_openRootClass {scope : Scope} {node : Element} (hopens : opens scope node) :
    Upholds (rooting opens) (openRootClass scope node) r fun _ _ => True := by
  unfold openRootClass
  have hprepared : Upholds (rooting opens) (prepareRootClass scope node) r
      fun e _ => e.StemsFrom opens e.name :=
    (rooting_prepares (prepares_prepareRootClass scope node)).of_run fun e r' hrun _ =>
      ⟨scope, node, e, r, r', hopens, hrun, rfl, .refl⟩
  refine .bind hprepared fun e r₁ _ hstems => .bind (P := fun _ _ => True) ?_ fun _ _ _ _ =>
    .pure trivial
  exact .register fun r₂ _ hadd => ⟨⟨.addEntity hadd fun _ => hstems, trivial⟩, trivial⟩

/-- The element is a class of a document with some root, and is bound in its scope. -/
def ClassOf (root : Element) (metas : MetaMap) (scope : Scope) (node : Element) : Prop :=
  scope = { defaults := .ofRoot root, metas := mergeMetas root metas true } ∧
    node ∈ root.childrenNamed "class"

/-- The new roots after a document stem from its classes, whether it ends well or not. -/
theorem rootsFrom_bindRoot (root : Element) (metas : MetaMap) (r : Registry) :
    RootsFrom (ClassOf root metas) r ((bindRoot root metas).after r) := by
  have hdefined : DefinesKept (rooting (ClassOf root metas)) root :=
    .of_writes root fun h _ => by cases h <;> exact ⟨.of_entities rfl, trivial⟩
  have hbinds := walked_rooting.upholds_document (r := r) metas
    (fun node hnode _ => rooting_openRootClass ⟨rfl, hnode⟩) (fun _ _ => trivial) hdefined
  exact (hbinds.advances trivial).keeps

end

/-! ## Sessions -/

namespace Session

variable {documents : Document → Prop} {r r' : Registry}

/-- The element is a class of one of some documents, and is bound in the scope of that document. -/
def ClassIn (documents : Document → Prop) (scope : Scope) (node : Element) : Prop :=
  ∃ document metas, documents document ∧ ClassOf document.root metas scope node

/-- A stage of a session registers roots for classes of the documents only. -/
theorem Stage.rootsFrom (h : Stage documents r r') : RootsFrom (ClassIn documents) r r' := by
  cases h with
  | @bind document metas hdocument =>
    exact (rootsFrom_bindRoot document.root metas r).mono fun scope node hclass =>
      ⟨document, metas, hdocument, hclass⟩
  | waiting => exact .of_entities rfl
  | @pass rest pass hnext =>
    obtain ⟨passes, -, rfl⟩ := nextPass?_eq_some_iff.mp hnext
    have htaken : RootsFrom (ClassIn documents) r { r with passes } := .of_entities rfl
    exact htaken.trans (.of_steps (fun h => h.rootsFrom) (passing_run pass _))
  | references h => exact .of_steps (fun h => h.rootsFrom) (marks_of_applyPropertyReferences h).1

/-- Every root of a registry that a session is driven to stems from a class of its documents. -/
theorem stemsFrom_of_driven {options : RegistryOptions} (hr : Driven options documents r)
    {name : String} {e : Entity} (he : r.entity? name = some e) (hroot : e.isRoot = true) :
    e.StemsFrom (ClassIn documents) name := by
  have hstages : (stages documents).Advances { options } r :=
    upkept_stages.advances_of_driven (fun _ hwaiting => absurd hwaiting List.not_mem_nil) hr
  have hroots : RootsFrom (ClassIn documents) { options } r :=
    .of_steps (fun h => h.rootsFrom) hstages.keeps
  rcases hroots.origin he hroot with ⟨e₀, he₀, -⟩ | hstems
  · cases he₀
  · exact hstems

end Session

end ObjectMapping
