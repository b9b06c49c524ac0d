import ObjectMapping.Proofs.Outline
import ObjectMapping.Proofs.Upkeep

/-!
# Walking through a document

A document is bound by one walk over its elements: definitions, classes and subclasses with their
bodies, nested as deep as they are, then queries and imports.  The walk itself writes nothing.
Hence whatever is kept by the writes at each of its stops is kept by the document as a whole.
`Walked` lists the stops, and `BodyWalked` those within bodies, where classes are not opened; an
upkeep may require something of the elements that are met, and of the scopes in which they are
bound.  Where a property is bound, it is known for which body, and in which group of it (`Met`).
-/

namespace ObjectMapping

open Binding Registry

/-! ## Where properties stand -/

/-- The walk over a body, or over a group in it. -/
def BodyWalk.within : Option Element → BodyWalk
  | none => {}
  | some group => .ofNaturalId group

/-- The body of an element has another one: among its children, or in a group, which is given. -/
inductive Element.BodyHas (body : Element) : Option Element → Element → Prop
  | child {c : Element} (hc : c ∈ body.children) : body.BodyHas none c
  | grouped {outer : Option Element} {group c : Element} (h : body.BodyHas outer group)
      (htag : group.tag? = some .naturalId) (hc : c ∈ group.children) : body.BodyHas (some group) c

section

variable (U : Upkeep) (reads : Scope → Element → Prop) (r : Registry) (scope : Scope)
  (owner : Owner)

/-- The body of an element is bound for the owner that was found, in an earlier registry with the
invariant, under the name that the element gives. -/
def BoundFor (body : Element) : Prop :=
  ∃ outer r₀ e, reads outer body ∧ scope = outer.descend body ∧ U.invariant r₀ ∧
    r₀.entity? (entityNameIn outer.defaults body) = some e ∧ owner = .ofEntity e ∧ U.keeps r₀ r

/-- What is known of an element that is met in a body, in a group or outside. -/
structure Met (group : Option Element) (node : Element) : Prop where
  read : reads scope node
  body : ∃ body, BoundFor U reads r scope owner body ∧ body.BodyHas group node

end

/-- What is known of an element that is met is known of it later, too. -/
theorem Met.later {U : Upkeep} {reads : Scope → Element → Prop} {r r' : Registry} {scope : Scope}
    {owner : Owner} {group : Option Element} {node : Element}
    (h : Met U reads r scope owner group node) (hkeeps : U.keeps r r') :
    Met U reads r' scope owner group node := by
  obtain ⟨hread, body, ⟨outer, r₀, e, hbody, hscope, hr₀, he, howner, hkept⟩, hhas⟩ := h
  exact ⟨hread, body, ⟨outer, r₀, e, hbody, hscope, hr₀, he, howner, U.trans hkept hkeeps⟩, hhas⟩

/-- The owner that is found under a name is the entity of that name. -/
theorem upholds_findOwner {U : Upkeep} {r : Registry} (name : String) :
    Upholds U (Owner.find name) r fun owner r' =>
      r' = r ∧ ∃ e, r.entity? name = some e ∧ owner = .ofEntity e := by
  unfold Owner.find
  refine .get_bind (.require _ fun owner hfound => ⟨rfl, ?_⟩)
  obtain ⟨e, he, rfl⟩ := Option.map_eq_some_iff.mp hfound
  exact ⟨e, he, rfl⟩

/-- The owner of a body is looked up, and then the body is bound for it. -/
theorem upholds_opened {U : Upkeep} {reads : Scope → Element → Prop} {r : Registry} {scope : Scope}
    {node : Element} {name : String} (hnode : reads scope node)
    (hname : entityNameOf scope node = .ok name) {bind : Owner → Binding Unit}
    (hbody : ∀ owner r', BoundFor U reads r' (scope.descend node) owner node →
      Upholds U (bind owner) r' fun _ _ => True) :
    Upholds U (Owner.find name >>= bind) r fun _ _ => True := by
  refine .of_invariant fun hr => .bind (upholds_findOwner name) fun owner r' hkeeps hfound => ?_
  obtain ⟨-, e, he, rfl⟩ := hfound
  refine hbody _ r' ⟨scope, r, e, hnode, rfl, hr, ?_, rfl, hkeeps⟩
  rw [entityNameIn_of_entityNameOf hname]
  exact he

/-! ## Stops -/

/-- An upkeep that is kept wherever the walk over a body stops. -/
structure BodyWalked (U : Upkeep) (reads : Scope → Element → Prop) : Prop where
  child : ∀ {scope : Scope} {node c : Element}, reads scope node → c ∈ node.children →
    reads scope c
  descend : ∀ {scope : Scope} {node c : Element}, reads scope node → c ∈ node.children →
    reads (scope.descend node) c
  steady : ∀ {r r' : Registry}, SteadyWrite r r' → U.invariant r → U.Advances r r'
  openSubclass : ∀ {r : Registry} (kind : SubclassKind) {scope : Scope} (superclass : String)
    {node : Element}, reads scope node →
    Upholds U (openSubclass kind scope superclass node) r fun _ _ => True
  bindBodyProperty : ∀ {r : Registry} {scope : Scope} (owner : Owner) (group : Option Element)
    {node : Element}, Met U reads r scope owner group node →
    Upholds U (bindBodyProperty scope owner (.within group) node) r fun _ _ => True
  bindBodyExtra : ∀ {r : Registry} {scope : Scope} {group : Option Element} (owner : Owner)
    {node : Element} (tag : Tag), Met U reads r scope owner group node →
    Upholds U (bindBodyExtra scope owner node tag) r fun _ _ => True

/-- An upkeep that is kept wherever the walk over a document stops. -/
structure Walked (U : Upkeep) (reads : Scope → Element → Prop) : Prop extends
    BodyWalked U reads where
  openRootClass : ∀ {r : Registry} {scope : Scope} {node : Element}, reads scope node →
    Upholds U (openRootClass scope node) r fun _ _ => True

/-- An upkeep that is kept by the definitions at the top of a document. -/
structure DefinesKept (U : Upkeep) (root : Element) : Prop where
  filters : ∀ node ∈ root.childrenNamed "filter-def", ∀ r,
    Upholds U (bindFilterDefinition node) r fun _ _ => True
  types : ∀ node ∈ root.childrenNamed "typedef", ∀ r,
    Upholds U (bindTypeDefinition node) r fun _ _ => True

/-- If an upkeep is kept by definitions, it does not matter which ones a document has. -/
theorem DefinesKept.of_writes {U : Upkeep} (root : Element)
    (h : ∀ {r r' : Registry}, DefinitionWrite r r' → U.invariant r → U.Advances r r') :
    DefinesKept U root where
  filters node _ _ := .of_steps (defines_bindFilterDefinition node) fun _ _ => h
  types node _ _ := .of_steps (defines_bindTypeDefinition node) fun _ _ => h

namespace BodyWalked

variable {U : Upkeep} {reads : Scope → Element → Prop} (h : BodyWalked U reads) {scope : Scope}
include h

/-- Steady computations uphold what is kept by steady writes. -/
theorem upholds_steady {r : Registry} {α : Type} {m : Binding α} (hm : m.Steady) :
    Upholds U m r fun _ _ => True :=
  .of_steps hm fun _ _ => h.steady

/-! ## Bodies -/

mutual

/-- A subclass is bound with its body. -/
theorem upholds_bindSubclass {r : Registry} (kind : SubclassKind) (scope : Scope)
    (superclass : String) : ∀ node, reads scope node →
      Upholds U (bindSubclass kind scope superclass node) r fun _ _ => True
  | ⟨tag, attributes, children, text⟩, hnode => by
    rw [bindSubclass]
    have hopened := (h.openSubclass (r := r) kind superclass hnode).of_run
      fun _ _ hrun _ => yields_openSubclass _ _ _ _ _ _ _ hrun
    refine .bind hopened fun name r₁ _ hname => upholds_opened hnode hname fun owner r₂ howner => ?_
    exact (upholds_bindBody (scope.descend _) owner none children fun c hc =>
      ⟨h.descend hnode hc, _, howner, .child hc⟩).discard

/-- A group is bound child by child. -/
theorem upholds_bindNaturalId {r : Registry} (scope : Scope) (owner : Owner)
    {outer : Option Element} : ∀ node, node.tag? = some .naturalId →
      Met U reads r scope owner outer node →
      Upholds U (bindNaturalId scope owner node) r fun _ _ => True
  | ⟨tag, attributes, children, text⟩, htag, hnode => by
    obtain ⟨body, howner, hhas⟩ := hnode.body
    rw [bindNaturalId]
    refine .bind (upholds_bindBody scope owner (some ⟨tag, attributes, children, text⟩) children
      fun c hc => ⟨h.child hnode.read hc, body, howner, hhas.grouped htag hc⟩) fun _ _ _ _ => ?_
    exact h.upholds_steady (steady_changeTable _ (fun _ => rfl) fun t => .addToUniqueKey t _ _)

/-- A body is bound child by child, down through the bodies of nested subclasses. -/
theorem upholds_bindBody {r : Registry} (scope : Scope) (owner : Owner) (group : Option Element) :
    ∀ children, (∀ c ∈ children, Met U reads r scope owner group c) →
      Upholds U (bindBody scope owner (.within group) children) r fun _ _ => True
  | [], _ => by
    rw [bindBody]
    exact .pure trivial
  | node :: rest, hchildren => by
    rw [List.forall_mem_cons] at hchildren
    obtain ⟨hnode, hrest⟩ := hchildren
    unfold bindBody
    extract_lets others
    have hothers : ∀ columns r', U.keeps r r' → Upholds U (others columns) r' fun _ _ => True :=
      fun columns r' hkeeps => .bind
        (upholds_bindBody scope owner group rest fun c hc => (hrest c hc).later hkeeps)
        fun _ _ _ _ => .pure trivial
    clear_value others
    split
    · exact .bind (upholds_bindSubclass .plain scope owner.name node hnode.read)
        fun _ r' hkeeps _ => hothers _ r' hkeeps
    · exact .bind (upholds_bindSubclass .joined scope owner.name node hnode.read)
        fun _ r' hkeeps _ => hothers _ r' hkeeps
    · exact .bind (upholds_bindSubclass .union scope owner.name node hnode.read)
        fun _ r' hkeeps _ => hothers _ r' hkeeps
    · exact .bind (upholds_bindNaturalId scope owner node ‹_› hnode) fun _ r' hkeeps _ =>
        hothers _ r' hkeeps
    · refine .bind (h.bindBodyExtra owner _ hnode) fun _ r₁ hkeeps _ => ?_
      exact .bind (h.bindBodyProperty owner group (hnode.later hkeeps))
        fun columns r₂ hkeeps₁ _ => hothers columns r₂ (U.trans hkeeps hkeeps₁)
    · exact hothers _ r (U.refl r)

end

/-! ## Documents -/

/-- A root class is bound with its body, once it is opened. -/
theorem upholds_rootClass {r : Registry} {node : Element} (hnode : reads scope node)
    (hopen : Upholds U (openRootClass scope node) r fun _ _ => True) :
    Upholds U (bindRootClass scope node) r fun _ _ => True := by
  unfold bindRootClass
  have hopened := hopen.of_run fun _ _ hrun _ => yields_openRootClass _ _ _ _ _ hrun
  refine .bind hopened fun name r₁ _ hname => upholds_opened hnode hname fun owner r₂ howner => ?_
  exact (h.upholds_bindBody (scope.descend node) owner none _ fun c hc =>
    ⟨h.descend hnode hc, _, howner, .child hc⟩).discard

theorem upholds_bindTopSubclass {r : Registry} (kind : SubclassKind) {node : Element}
    (hnode : reads scope node) :
    Upholds U (bindTopSubclass kind scope node) r fun _ _ => True := by
  unfold bindTopSubclass
  exact .bind (h.upholds_steady (steady_superclassOf scope node)) fun superclass r₁ _ _ =>
    h.upholds_bindSubclass kind scope superclass node hnode

/-- A document is bound element by element, with its own defaults, if its classes can be opened. -/
theorem upholds_document {r : Registry} {root : Element} (metas : MetaMap)
    (hopen : ∀ node ∈ root.childrenNamed "class", ∀ r', Upholds U
      (openRootClass { defaults := .ofRoot root, metas := mergeMetas root metas true } node) r'
      fun _ _ => True)
    (hchildren : ∀ c ∈ root.children,
      reads { defaults := .ofRoot root, metas := mergeMetas root metas true } c)
    (hdefined : DefinesKept U root) : Upholds U (bindRoot root metas) r fun _ _ => True := by
  unfold bindRoot
  extract_lets defaults scope
  have hnamed : ∀ name, ∀ node ∈ root.childrenNamed name, reads scope node :=
    fun name node hnode => hchildren node (List.mem_filter.mp hnode).1
  refine .bind (.write fun hr => h.steady (.defaults _ _) hr) fun _ _ _ _ => ?_
  refine .bind (.forM fun node hnode r' _ => hdefined.filters node hnode r') fun _ _ _ _ => ?_
  refine .bind (.forM fun node hnode r' _ => hdefined.types node hnode r') fun _ _ _ _ => ?_
  refine .bind (.forM fun node hnode r' _ =>
    h.upholds_rootClass (hnamed _ node hnode) (hopen node hnode r')) fun _ _ _ _ => ?_
  refine .bind (.forM fun kind _ _ _ => .forM fun node hnode _ _ =>
    h.upholds_bindTopSubclass kind (hnamed _ node hnode)) fun _ _ _ _ => ?_
  refine .bind (.forM fun _ _ _ _ => h.upholds_steady (steady_bindNamedQuery _ _))
    fun _ _ _ _ => ?_
  refine .bind (.forM fun _ _ _ _ => h.upholds_steady (steady_bindNamedSqlQuery _ _ _))
    fun _ _ _ _ => ?_
  refine .bind (.forM fun _ _ _ _ => h.upholds_steady (steady_bindResultSet _ _ _))
    fun _ _ _ _ => ?_
  refine .bind (.forM fun _ _ _ _ => h.upholds_steady (steady_bindImport _ _))
    fun _ _ _ _ => ?_
  exact .forM fun _ _ _ _ => .write fun hr => h.steady (.auxiliaryObject _ _) hr

end BodyWalked

namespace Walked

variable {U : Upkeep} {reads : Scope → Element → Prop} (h : Walked U reads) {r : Registry}
include h

/-- A root class is bound with its body. -/
theorem upholds_bindRootClass {scope : Scope} {node : Element} (hnode : reads scope node) :
    Upholds U (bindRootClass scope node) r fun _ _ => True :=
  h.upholds_rootClass hnode (h.openRootClass hnode)

/-- A document is bound element by element, with its own defaults. -/
theorem upholds_bindRoot {root : Element} (metas : MetaMap)
    (hchildren : ∀ c ∈ root.children,
      reads { defaults := .ofRoot root, metas := mergeMetas root metas true } c)
    (hdefined : DefinesKept U root) : Upholds U (bindRoot root metas) r fun _ _ => True :=
  h.upholds_document metas (fun node hnode _ =>
    h.openRootClass (hchildren node (List.mem_filter.mp hnode).1)) hchildren hdefined

end Walked

end ObjectMapping
