import ObjectMapping.Proofs.Marking
import ObjectMapping.Proofs.Metas
import ObjectMapping.Proofs.Quiet
import ObjectMapping.Proofs.Stores
import ObjectMapping.Proofs.Upkeep

/-!
# Annotated registries

An object is annotated if an element of the documents accounts for its meta attributes.  That is its
own element: an entity is named by it, and a property by its attribute `name`; a component has an
element of a kind that is bound as one, whose children account for the members of the component; the
role of a collection ends in the name that its element gives.  Backrefs and the shadows of composite
identifiers are made without an element, and have no meta attributes.

Whether an object is annotated does not depend on the registry that it is stored in.  So a registry
stays annotated as long as what is written to it is annotated itself, along with the scopes in which
deferred passes are to be run.
-/

namespace ObjectMapping

open Binding Registry

/-! ## Elements in their scopes -/

/-- An element of a document, in the scope that the elements around it make. -/
structure Document.Reaches (d : Document) (scope : Scope) (node : Element) : Prop where
  defaults : scope.defaults = .ofRoot d.root
  hands : d.root.Hands scope.metas node

namespace Document.Reaches

variable {d : Document} {scope : Scope} {node c : Element}

/-- The scope of an element may be passed on to its children. -/
theorem child (h : d.Reaches scope node) (hc : c ∈ node.children) : d.Reaches scope c :=
  ⟨h.defaults, h.hands.past hc⟩

/-- So may the scope that the element makes with its own meta attributes. -/
theorem descend (h : d.Reaches scope node) (hc : c ∈ node.children) :
    d.Reaches (scope.descend node) c :=
  ⟨h.defaults, h.hands.merged hc⟩

/-- The members of a component have a scope of their own. -/
theorem member (h : d.Reaches scope node) (hnode : node.IsComposite) (hc : c ∈ node.children) :
    d.Reaches { scope with metas := (mergeMetas node scope.metas false).inheritablePart } c :=
  ⟨h.defaults, h.hands.filtered hnode hc⟩

end Document.Reaches

/-! ## Annotated objects -/

/-- Backrefs and the shadows of composite identifiers are made without an element. -/
def Property.isSynthetic (p : Property) : Bool :=
  p.backref.isSome || p.name = identifierMapperName

/-- An element accounts for a property if it gives its name, and accounts for its meta attributes.
If the value of the property is a component, that has the same ones. -/
structure Property.AccountedFor (p : Property) (root node : Element) : Prop where
  name : node.attribute? "name" = some p.name
  metas : root.AccountsFor node p.metas
  component : ∀ c, p.value = .component c → c.metas = p.metas

/-- An element accounts for a component if its children account for the members. -/
structure Component.AccountedFor (c : Component) (root node : Element) : Prop where
  composite : node.IsComposite
  metas : root.AccountsFor node c.metas
  members : ∀ p ∈ c.properties, ∃ child ∈ node.children, p.AccountedFor root child

/-- An element accounts for an entity if it gives its name, and accounts for its meta attributes. -/
structure Entity.AccountedFor (e : Entity) (root node : Element) : Prop where
  name : entityNameOf { defaults := .ofRoot root, metas := .empty } node = .ok e.name
  metas : root.AccountsFor node e.metas

/-- An element accounts for a collection of its kind if it gives the last part of its role, and
accounts for its meta attributes. -/
structure Collection.AccountedFor (c : Collection) (root node : Element) : Prop where
  tag : node.tag? = some (.collection c.kind)
  role : ∃ path, c.role = qualify path ((node.attribute? "name").getD "")
  metas : root.AccountsFor node c.metas

section

variable (documents : Document → Prop)

/-- An element of some documents accounts for an object. -/
def Accounted (accounts : Element → Element → Prop) : Prop :=
  ∃ d node, documents d ∧ d.root.Below node ∧ accounts d.root node

/-- A property is accounted for, or is synthetic and has no meta attributes. -/
def Property.Annotated (p : Property) : Prop :=
  p.isSynthetic = true ∧ p.metas = .empty ∨ Accounted documents p.AccountedFor

/-- All components among the parts of a value are accounted for. -/
def Value.Annotated (v : Value) : Prop :=
  ∀ c, .component c ∈ v.parts → Accounted documents c.AccountedFor

/-- An identifier is annotated as what it stores is. -/
abbrev IdentifierBinding.Annotated (binding : IdentifierBinding) : Prop :=
  binding.Stores (Value.Annotated documents) (Property.Annotated documents)

/-- The data of a root are annotated as what they store is. -/
abbrev RootData.Annotated (data : RootData) : Prop :=
  data.Stores (Value.Annotated documents) (Property.Annotated documents)

/-- An entity is accounted for, and what it stores is annotated. -/
structure Entity.Annotated (e : Entity) : Prop where
  own : Accounted documents e.AccountedFor
  stored : e.Stores (Value.Annotated documents)
    (fun p => p.value.Annotated documents ∧ p.Annotated documents) (Property.Annotated documents)

/-- So it is with a collection. -/
structure Collection.Annotated (c : Collection) : Prop where
  own : Accounted documents c.AccountedFor
  values : ∀ v ∈ c.values, v.Annotated documents

/-- Everything in a registry is annotated, and entities are stored under their own names.  The
documents that wait bring no meta attributes. -/
structure Registry.Annotated (r : Registry) : Prop where
  named : ∀ name e, r.entity? name = some e → e.name = name
  entities : ∀ name e, r.entity? name = some e → e.Annotated documents
  collections : ∀ role c, r.collection? role = some c → c.Annotated documents
  passes : ∀ kind pass, .contents kind pass ∈ r.passes →
    ∃ d, documents d ∧ d.Reaches pass.scope pass.node
  waiting : ∀ pending ∈ r.waiting, documents pending.document ∧ pending.metas = .empty

end

variable {documents : Document → Prop}

/-- What accounts for an object accounts for what follows from that. -/
theorem Accounted.mono {accounts accounts' : Element → Element → Prop}
    (h : Accounted documents accounts)
    (hmono : ∀ root node, accounts root node → accounts' root node) :
    Accounted documents accounts' := by
  obtain ⟨d, node, hd, hbelow, haccounts⟩ := h
  exact ⟨d, node, hd, hbelow, hmono _ _ haccounts⟩

/-! ## Values -/

namespace Value

/-- A value that holds no other and is no component is annotated. -/
theorem annotated_of_single {v : Value} (hparts : v.parts = [v]) (hv : v.component? = none) :
    v.Annotated documents := by
  intro c hc
  rw [hparts, List.mem_singleton] at hc
  subst hc
  cases hv

/-- A component is annotated if it is accounted for and its members are annotated. -/
theorem annotated_component_iff {c : Component} : (Value.component c).Annotated documents ↔
    Accounted documents c.AccountedFor ∧ ∀ p ∈ c.properties, p.value.Annotated documents := by
  simp only [Value.Annotated, parts_component, List.mem_cons, List.mem_flatMap]
  constructor
  · exact fun h => ⟨h c (.inl rfl), fun p hp c' hc' => h c' (.inr ⟨p, hp, hc'⟩)⟩
  · rintro ⟨hc, hmembers⟩ c' (hself | ⟨p, hp, hc'⟩)
    · cases hself
      exact hc
    · exact hmembers p hp c' hc'

/-- A dependent key is annotated as what it refers to. -/
theorem annotated_dependant_iff {base : SimpleValue} {wrapped : Value}
    {nullable updatable : Bool} :
    (Value.dependant base wrapped nullable updatable).Annotated documents ↔
      wrapped.Annotated documents := by
  simp [Value.Annotated, parts]

/-- What the backing class knows of a value does not change its components. -/
theorem Annotated.reflected {v : Value} (h : v.Annotated documents) (reflection : Reflection)
    (className property : String) :
    (v.reflected reflection className property).Annotated documents := by
  cases v with
  | simple | manyToOne | oneToOne => exact annotated_of_single rfl rfl
  | any | collection | component | dependant | oneToMany => exact h

/-- Neither does a change of the simple core. -/
theorem Annotated.modifySimple {v : Value} (h : v.Annotated documents)
    (f : SimpleValue → SimpleValue) : (v.modifySimple f).Annotated documents := by
  cases v with
  | simple | manyToOne | oneToOne | any => exact annotated_of_single rfl rfl
  | dependant => exact annotated_dependant_iff.mpr (annotated_dependant_iff.mp h)
  | collection | component | oneToMany => exact h

end Value

/-! ## Properties -/

namespace Property

/-- The settings of a property do not matter, apart from its name and its meta attributes.  Its
value may be changed if a component stays one with the same meta attributes. -/
theorem AccountedFor.congr {root node : Element} {p p' : Property} (h : p.AccountedFor root node)
    (hname : p'.name = p.name) (hmetas : p'.metas = p.metas)
    (hvalue : ∀ c, p'.value = .component c →
      ∃ c₀, p.value = .component c₀ ∧ c.metas = c₀.metas) : p'.AccountedFor root node where
  name := hname ▸ h.name
  metas := hmetas ▸ h.metas
  component c hc := by
    obtain ⟨c₀, hc₀, hsame⟩ := hvalue c hc
    rw [hsame, hmetas]
    exact h.component c₀ hc₀

/-- Whether a property is annotated shows in its name, its backref, its meta attributes and those of
its component. -/
theorem Annotated.congr {p p' : Property} (h : p.Annotated documents) (hname : p'.name = p.name)
    (hbackref : p'.backref = p.backref) (hmetas : p'.metas = p.metas)
    (hvalue : ∀ c, p'.value = .component c →
      ∃ c₀, p.value = .component c₀ ∧ c.metas = c₀.metas) : p'.Annotated documents := by
  rcases h with ⟨hsynthetic, hnone⟩ | hown
  · refine .inl ⟨?_, hmetas.trans hnone⟩
    rw [isSynthetic, hbackref, hname]
    exact hsynthetic
  · exact .inr (hown.mono fun _ _ haccounts => haccounts.congr hname hmetas hvalue)

end Property

namespace Registry

/-- A component is not marked itself. -/
theorem component_of_markAlternateKey {p : Property} {c : Component}
    (h : (markAlternateKey p).value = .component c) : p.value = .component c := by
  obtain ⟨_, _, value, _⟩ := p
  cases value <;> first | exact h | cases h

end Registry

namespace Property

/-- A mark below a property may be on a member of its component. -/
theorem component_of_modifyAt {members : List Nat} {p : Property} {c : Component}
    (h : (p.modifyAt markAlternateKey members).value = .component c) :
    ∃ c₀, p.value = .component c₀ ∧ c.metas = c₀.metas := by
  cases members with
  | nil => exact ⟨c, component_of_markAlternateKey h, rfl⟩
  | cons index rest =>
    unfold Property.modifyAt at h
    split at h
    · next c₀ hc₀ =>
      cases h
      exact ⟨c₀, hc₀, rfl⟩
    · exact ⟨c, h, rfl⟩

/-- A mark below a property is nothing that its element says. -/
theorem AccountedFor.modifyAt {root node : Element} {p : Property} (h : p.AccountedFor root node)
    (members : List Nat) : (p.modifyAt markAlternateKey members).AccountedFor root node := by
  obtain ⟨hname, -, hmetas⟩ := same_modifyAt members p
  exact h.congr hname hmetas fun _ => component_of_modifyAt

/-- A mark below a property keeps it annotated. -/
theorem Annotated.modifyAt {p : Property} (h : p.Annotated documents) (members : List Nat) :
    (p.modifyAt markAlternateKey members).Annotated documents := by
  obtain ⟨hname, hbackref, hmetas⟩ := same_modifyAt members p
  exact h.congr hname hbackref hmetas fun _ => component_of_modifyAt

/-- So it does its value, by induction on the path to the member that is marked. -/
theorem annotated_value_modifyAt (members : List Nat) {p : Property}
    (h : p.value.Annotated documents) :
    (p.modifyAt markAlternateKey members).value.Annotated documents := by
  induction members generalizing p with
  | nil => exact h.modifySimple _
  | cons index rest ih =>
    unfold Property.modifyAt
    split
    · next c hc =>
      rw [hc, Value.annotated_component_iff] at h
      obtain ⟨hown, hvalues⟩ := h
      refine Value.annotated_component_iff.mpr ⟨hown.mono fun root node hc => ?_, ?_⟩
      · refine ⟨hc.composite, hc.metas, forall_mem_modify ?_ hc.members index⟩
        exact fun q ⟨child, hchild, hq⟩ => ⟨child, hchild, hq.modifyAt rest⟩
      · exact forall_mem_modify (fun _ => ih) hvalues index
    · exact h

end Property

/-- An entity stays annotated if its name and its own meta attributes are not changed. -/
theorem Entity.Annotated.congr {e e' : Entity} (h : e.Annotated documents)
    (hname : e'.name = e.name) (hmetas : e'.metas = e.metas)
    (hstored : e'.Stores (Value.Annotated documents)
      (fun p => p.value.Annotated documents ∧ p.Annotated documents)
      (Property.Annotated documents)) : e'.Annotated documents := by
  refine ⟨h.own.mono fun root node he => ⟨?_, ?_⟩, hstored⟩
  · rw [hname]
    exact he.name
  · rw [hmetas]
    exact he.metas

/-! ## Writes -/

/-- Registries stay annotated. -/
def annotating (documents : Document → Prop) : Upkeep where
  invariant := Registry.Annotated documents
  keeps _ _ := True
  refl _ := trivial
  trans _ _ := trivial

namespace Registry.Annotated

variable {r r' : Registry} (hr : r.Annotated documents)
include hr

/-- Only new entities, collections and passes have to be looked at. -/
theorem grow
    (hentities : ∀ name e, r'.entity? name = some e →
      r.entity? name = some e ∨ e.name = name ∧ e.Annotated documents)
    (hcollections : ∀ role c, r'.collection? role = some c →
      r.collection? role = some c ∨ c.Annotated documents)
    (hpasses : ∀ kind pass, .contents kind pass ∈ r'.passes →
      .contents kind pass ∈ r.passes ∨ ∃ d, documents d ∧ d.Reaches pass.scope pass.node)
    (hwaiting : r'.waiting = r.waiting) : (annotating documents).Advances r r' where
  keeps := trivial
  invariant :=
    { named := fun name e he => (hentities name e he).elim (hr.named name e) And.left
      entities := fun name e he => (hentities name e he).elim (hr.entities name e) And.right
      collections := fun role c hc => (hcollections role c hc).elim (hr.collections role c) id
      passes := fun kind pass hpass => (hpasses kind pass hpass).elim (hr.passes kind pass) id
      waiting := hwaiting ▸ hr.waiting }

/-- Quiet writes concern nothing that is annotated. -/
theorem of_alike (h : Alike r r') : (annotating documents).Advances r r' := by
  refine hr.grow (fun _ _ he => .inl ?_) (fun _ _ hc => .inl ?_) (fun _ _ => ?_) h.waiting
  · rwa [entity?, h.entities] at he
  · rwa [collection?, h.collections] at hc
  · exact h.passes ▸ .inl

/-- An entity may be changed into one that is annotated under its name. -/
theorem modifyEntity (name : String) {f : Entity → Entity}
    (h : ∀ e : Entity, e.name = name → e.Annotated documents →
      (f e).name = name ∧ (f e).Annotated documents) :
    (annotating documents).Advances r (r.modifyEntity name f) := by
  refine hr.grow (fun name' e' he' => ?_) (fun _ _ => .inl) (fun _ _ => .inl) rfl
  rw [entity?_modifyEntity] at he'
  obtain ⟨e, he, rfl⟩ := Option.map_eq_some_iff.mp he'
  split
  · next hsame =>
    subst hsame
    exact .inr (h e (hr.named name' e he) (hr.entities name' e he))
  · exact .inl he

/-- An annotated entity may be registered. -/
theorem addEntity {e : Entity} (he : e.Annotated documents) (h : r.addEntity e = .ok r') :
    (annotating documents).Advances r r' := by
  obtain ⟨-, rfl⟩ := addEntity_eq_ok.mp h
  refine hr.grow (fun name e' he' => ?_) (fun _ _ => .inl) (fun _ _ => .inl) rfl
  rcases eq_or_of_entity?_addEntity h he' with ⟨rfl, rfl⟩ | hold
  · exact .inr ⟨rfl, he⟩
  · exact .inl hold

/-- So may an annotated collection. -/
theorem addCollection {c : Collection} (hc : c.Annotated documents)
    (h : r.addCollection c = .ok r') : (annotating documents).Advances r r' := by
  obtain ⟨-, rfl⟩ := addCollection_eq_ok.mp h
  refine hr.grow (fun _ _ => .inl) (fun role c' hc' => ?_) (fun _ _ => .inl) rfl
  rcases eq_or_of_collection?_addCollection h hc' with ⟨-, rfl⟩ | hold
  · exact .inr hc
  · exact .inl hold

/-- A collection may be replaced by an annotated one. -/
theorem replaceCollection {c : Collection} (hc : c.Annotated documents) :
    (annotating documents).Advances r (r.modifyCollection c.role fun _ => c) := by
  refine hr.grow (fun _ _ => .inl) (fun role c' hc' => ?_) (fun _ _ => .inl) rfl
  rcases eq_or_of_collection?_replaced hc' with ⟨-, rfl⟩ | hold
  · exact .inr hc
  · exact .inl hold

/-- A pass may be queued whose element is reached in its scope. -/
theorem addPass {pass : DeferredPass} (h : ∀ kind contents, pass = .contents kind contents →
      ∃ d, documents d ∧ d.Reaches contents.scope contents.node) :
    (annotating documents).Advances r (r.addPass pass) := by
  refine hr.grow (fun _ _ => .inl) (fun _ _ => .inl) (fun kind contents hcontents => ?_) rfl
  rcases List.mem_append.mp hcontents with hold | hnew
  · exact .inl hold
  · exact .inr (h kind contents (List.mem_singleton.mp hnew).symm)

/-- The element of a pass that is taken off the queue is reached in the scope of the pass. -/
theorem nextPass {pass : DeferredPass} (h : r.nextPass? = some (pass, r')) :
    (annotating documents).Advances r r' ∧ ∀ kind contents, pass = .contents kind contents →
      ∃ d, documents d ∧ d.Reaches contents.scope contents.node := by
  obtain ⟨passes, hpasses, rfl⟩ := nextPass?_eq_some_iff.mp h
  refine ⟨hr.grow (fun _ _ => .inl) (fun _ _ => .inl) (fun kind other hother => .inl ?_) rfl, ?_⟩
  · exact hpasses ▸ List.mem_cons_of_mem pass hother
  · rintro kind contents rfl
    exact hr.passes kind contents (hpasses ▸ List.mem_cons_self)

theorem setWaiting {waiting : List PendingDocument}
    (h : ∀ pending ∈ waiting, documents pending.document ∧ pending.metas = .empty) :
    (annotating documents).Advances r { r with waiting } :=
  ⟨trivial, hr.named, hr.entities, hr.collections, hr.passes, h⟩

/-- A property may be marked. -/
theorem mark (h : Mark r r') : (annotating documents).Advances r r' := by
  cases h with
  | property place =>
    have hname : ∀ e : Entity, (e.modifySlot (·.modifyAt markAlternateKey place.members)
        place.slot).name = e.name := fun e => by cases place.slot <;> rfl
    have hmarked : ∀ p : Property, p.value.Annotated documents ∧ p.Annotated documents →
        (p.modifyAt markAlternateKey place.members).value.Annotated documents ∧
          (p.modifyAt markAlternateKey place.members).Annotated documents := fun p hp =>
      ⟨Property.annotated_value_modifyAt place.members hp.1, hp.2.modifyAt place.members⟩
    refine hr.modifyEntity _ fun e hown he => ⟨(hname e).trans hown, he.congr (hname e) ?_ ?_⟩
    · cases place.slot <;> rfl
    · exact he.stored.modifySlot place.slot hmarked hmarked

end Registry.Annotated

end ObjectMapping
