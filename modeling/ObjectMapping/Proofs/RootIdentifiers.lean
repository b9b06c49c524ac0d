import ObjectMapping.Proofs.Persisters
import ObjectMapping.Proofs.Registration
import ObjectMapping.Proofs.RootOrigins
import ObjectMapping.Proofs.ValueBinding

/-!
# The identifiers of roots

A class is meant to have one identifier, and nothing sees to it.  Its children are bound in order,
and each `id` or `composite-id` among them replaces the identifier that was there before, so the
last one counts, and a class without any becomes a root without an identifier.  Neither is refused:
a document is bound, and what is missed is only missed by those who need it later, such as the key
of a joined subclass.

Here an identifier is described by its name, if it has one, and by whether it is composite.
-/

namespace ObjectMapping

open Binding Registry

/-! ## Describing identifiers -/

/-- What an identifier is called, if it can be reached as a property, and of which of the two sorts
it is. -/
structure Identification where
  name : Option String := none
  isComposite : Bool := false
deriving DecidableEq

/-- What a child of a class says about the identifier, if it is one. -/
def Element.identification? (node : Element) : Option Identification :=
  match node.tag? with
  | some .identifier => some { name := node.attribute? "name" }
  | some .compositeId => some { name := node.attribute? "name", isComposite := true }
  | _ => none

/-- The identifiers among the children of a class. -/
def Element.identifications (node : Element) : List Identification :=
  node.children.filterMap Element.identification?

/-- A bound identifier. -/
def IdentifierBinding.identification (b : IdentifierBinding) : Identification where
  name := b.property?.map Property.name
  isComposite := b.value.component?.isSome

/-- The identifier of an entity, if it is a root. -/
def Entity.identification? (e : Entity) : Option (Option Identification) :=
  e.root?.map fun data => data.identifier.map IdentifierBinding.identification

/-- The identifier of the root of a name, if there is such a root. -/
def Registry.identification? (r : Registry) (name : String) : Option (Option Identification) :=
  (r.entity? name).bind Entity.identification?

/-! ## Binding identifiers -/

section

variable {e e' : Entity} {given : Option Identification}

/-- The identifier of an entity is replaced by a given one, or left alone if none is given. -/
def Entity.Reidentified (given : Option Identification) (e e' : Entity) : Prop :=
  e'.identification? = e.identification?.map given.or

theorem Entity.Reidentified.of_same (h : e'.identification? = e.identification?) :
    e.Reidentified none e' := by
  rw [Reidentified, h, show (none : Option Identification).or = id from funext fun _ =>
    Option.none_or, Option.map_id, id]

/-- Changing a root changes its identifier as said. -/
theorem Entity.identification?_modifyRoot (e : Entity) {f : RootData → RootData}
    {g : Option Identification → Option Identification}
    (hf : ∀ data, (f data).identifier.map IdentifierBinding.identification
      = g (data.identifier.map IdentifierBinding.identification)) :
    (e.modifyRoot f).identification? = e.identification?.map g := by
  rw [identification?, e.root?_modifyRoot, Option.map_map, identification?, Option.map_map]
  exact congrArg (Option.map · e.root?) (funext hf)

theorem Entity.identification?_modifyRoot_of_same (e : Entity) {f : RootData → RootData}
    (hf : ∀ data, (f data).identifier.map IdentifierBinding.identification
      = data.identifier.map IdentifierBinding.identification) :
    (e.modifyRoot f).identification? = e.identification? :=
  (e.identification?_modifyRoot (g := id) hf).trans (by rw [Option.map_id, id])

theorem yields_reidentified_changeRoot (e : Entity) {f : RootData → RootData}
    (hf : ∀ data, (f data).identifier.map IdentifierBinding.identification
      = given.or (data.identifier.map IdentifierBinding.identification)) :
    Yields (changeRoot e f) (e.Reidentified given) := by
  unfold changeRoot
  exact .ite (fun _ => .pure (e.identification?_modifyRoot hf)) fun _ => .throw _ _

/-- A root that gets another identifier. -/
theorem yields_reidentified_replaced (e : Entity) {b : IdentifierBinding} {i : Identification}
    (hb : b.identification = i) {f : RootData → RootData}
    (hf : ∀ data, (f data).identifier = some b) :
    Yields (changeRoot e f) (e.Reidentified (some i)) :=
  yields_reidentified_changeRoot e fun data => by rw [hf, Option.map_some, hb, Option.some_or]

/-- The property of a named identifier has the name and the value that it is bound with. -/
theorem identification_of_bindProperty {scope : Scope} {node : Element} {v : Value} {name : String}
    {p : Property} (h : bindProperty scope node v name = .ok p) :
    (IdentifierBinding.named p).identification = ⟨some name, v.component?.isSome⟩ := by
  have hbound := boundAs_of_bindProperty h
  rw [IdentifierBinding.identification, IdentifierBinding.property?, Option.map_some,
    hbound.name, IdentifierBinding.value, hbound.value]

theorem yields_reidentified_simpleId (scope : Scope) (e : Entity) (node : Element) :
    Yields (bindSimpleId scope e node) (e.Reidentified (some ⟨node.attribute? "name", false⟩)) := by
  unfold bindSimpleId
  refine .next fun v => .next fun _ => .ite (fun _ => .throw_bind _ _ _) fun _ => .next fun v' => ?_
  split
  · next name hname =>
    refine .bind (P := fun b => b.identification = ⟨node.attribute? "name", false⟩) ?_
      fun b hb => yields_reidentified_replaced e hb fun _ => rfl
    rw [map_eq_pure_bind]
    exact .bind (.ofExcept fun p => identification_of_bindProperty) fun p hp => .pure (hname ▸ hp)
  · next hname =>
    exact .bind (.pure (P := fun b => b.identification = _) (hname ▸ rfl)) fun b hb =>
      yields_reidentified_replaced e hb fun _ => rfl

/-- The shadow of a composite identifier is none itself. -/
theorem yields_identification_mapper (scope : Scope) (e : Entity) (path : String)
    (node : Element) : Yields (bindIdentifierMapper scope e path node) fun e' =>
      e'.identification? = e.identification? := by
  unfold bindIdentifierMapper changeRoot
  exact .next fun mapper => .ite (fun _ => .pure (Entity.identification?_modifyRoot_of_same _
    fun _ => rfl)) fun _ => .throw _ _

theorem yields_reidentified_compositeId (scope : Scope) (e : Entity) (node : Element) :
    Yields (bindCompositeId scope e node)
      (e.Reidentified (some ⟨node.attribute? "name", true⟩)) := by
  unfold bindCompositeId
  refine .ite (fun _ => .throw_bind _ _ _) fun _ => .next fun id => ?_
  extract_lets key finish
  have hfinish : ∀ e₁ : Entity, e₁.identification? = e.identification? →
      Yields (finish e₁) (e.Reidentified (some ⟨node.attribute? "name", true⟩)) := by
    intro e₁ he₁
    unfold finish Entity.Reidentified
    rw [← he₁]
    dsimp only
    split
    · next name hname =>
      refine .bind (.ofExcept fun p => identification_of_bindProperty) fun p hp => ?_
      rw [hname]
      exact yields_reidentified_replaced e₁ hp fun _ => rfl
    · next hname =>
      rw [hname]
      have hunnamed : ∀ c : Component, (IdentifierBinding.unnamed (.component c)).identification
          = ⟨none, true⟩ := fun _ => rfl
      exact yields_reidentified_replaced e₁ (hunnamed _) fun _ => rfl
  clear_value finish
  exact .ite (fun _ => .bind (yields_identification_mapper _ _ _ _) hfinish)
    fun _ => .bind (P := (· = e)) (.pure rfl) fun e₁ he₁ => hfinish e₁ (he₁ ▸ rfl)

/-- A child of a class replaces the identifier if it is one, and leaves it alone otherwise. -/
theorem yields_reidentified_rowChild (scope : Scope) (e : Entity) (node : Element) :
    Yields (bindRowChild scope e node) (e.Reidentified node.identification?) := by
  have hversion : Yields (bindVersion scope e node) (e.Reidentified none) := by
    unfold bindVersion
    refine .next fun _ => .next fun _ => .next fun _ =>
      .ite (fun _ => .throw_bind _ _ _) fun _ => ?_
    exact .bind (yields_reidentified_changeRoot e fun _ => Option.none_or.symm)
      fun _ he' => .pure he'
  unfold bindRowChild
  split
  · next htag =>
    simp only [Element.identification?, htag]
    exact yields_reidentified_simpleId _ _ _
  · next htag =>
    simp only [Element.identification?, htag]
    exact yields_reidentified_compositeId _ _ _
  · next htag =>
    simp only [Element.identification?, htag]
    exact hversion
  · next htag =>
    simp only [Element.identification?, htag]
    exact hversion
  · next htag =>
    simp only [Element.identification?, htag]
    exact .next fun _ => yields_reidentified_changeRoot e fun _ => Option.none_or.symm
  · next htag =>
    simp only [Element.identification?, htag]
    exact .next fun _ => .pure (e.identification?_modifyRoot fun _ => Option.none_or.symm)
  · next hsimple hcomposite _ _ _ _ =>
    have hnone : node.identification? = none := by
      unfold Element.identification?
      split
      · exact absurd ‹_› hsimple
      · exact absurd ‹_› hcomposite
      · rfl
    rw [hnone]
    exact .pure (.of_same rfl)

/-- Among the children of a class the last identifier counts.  By induction on the children, each of
which may replace the identifier that the ones before it have left. -/
theorem yields_reidentified_row (scope : Scope) (e : Entity) (children : List Element) :
    Yields (bindRow scope e children)
      (e.Reidentified (children.filterMap Element.identification?).getLast?) := by
  induction children generalizing e with
  | nil => exact .pure (.of_same rfl)
  | cons node rest ih =>
    refine .bind (yields_reidentified_rowChild scope e node) fun e₁ hfirst =>
      (ih e₁).mono fun e' hrest => ?_
    rw [Entity.Reidentified, hrest, hfirst, Option.map_map]
    refine congrArg (Option.map · e.identification?) (funext fun old => ?_)
    cases hnode : node.identification? with
    | none => simp [hnode]
    | some i =>
      cases hlast : (rest.filterMap Element.identification?).getLast? <;>
        simp [hnode, List.getLast?_cons, hlast]

/-- A class is prepared with the last identifier among its children, if there is any. -/
theorem yields_identification_prepared (scope : Scope) (node : Element) :
    Yields (prepareRootClass scope node) fun e =>
      e.identification? = some node.identifications.getLast? := by
  refine yields_prepared fun e he => ?_
  obtain ⟨data, hroot, hnone, -⟩ := he.root
  refine (yields_reidentified_row _ e node.children).mono fun e' he' => ?_
  rw [he', Entity.identification?, hroot, Option.map_some, hnone, Option.map_none, Option.map_some,
    Option.or_none]
  rfl

/-- A mark changes neither the name of a property nor whether its value is a component. -/
theorem identification_modifyProperty (b : IdentifierBinding) (members : List Nat) :
    (b.modifyProperty (·.modifyAt markAlternateKey members)).identification = b.identification := by
  cases b with
  | unnamed => rfl
  | named p =>
    have hname := (p.same_modifyAt members).1
    have hcomponent : (p.modifyAt markAlternateKey members).value.component?.isSome
        = p.value.component?.isSome := by
      cases members with
      | nil =>
        show (p.value.modifySimple _).component?.isSome = _
        cases p.value <;> rfl
      | cons index rest =>
        unfold Property.modifyAt
        split
        · next hvalue => rw [hvalue]; rfl
        · rfl
    simp only [IdentifierBinding.modifyProperty, IdentifierBinding.identification,
      IdentifierBinding.property?, IdentifierBinding.value, Option.map_some, hname, hcomponent]

/-- Development keeps identifiers. -/
theorem Entity.Development.identification? (h : e.Development e') :
    e'.identification? = e.identification? := by
  cases h with
  | supplement hkind => rw [Entity.identification?, root?, hkind, Entity.identification?, root?]
  | declare => rfl
  | choose => exact e.identification?_modifyRoot_of_same fun _ => rfl
  | mark slot members =>
    cases slot with
    | own | joined => rfl
    | identifier =>
      refine e.identification?_modifyRoot_of_same fun data => ?_
      rw [Option.map_map]
      exact congrArg (Option.map · data.identifier) (funext fun b =>
        identification_modifyProperty b members)

theorem Entity.Develops.identification? (h : e.Develops e') :
    e'.identification? = e.identification? := by
  induction h with
  | refl => rfl
  | tail _ hlast ih => exact hlast.identification?.trans ih

end

/-! ## Documents -/

namespace Session

variable {document : Document} {metas : MetaMap} {r r' : Registry}

/-- A document is bound if it needs no superclass and its contents can be bound. -/
theorem run_bindDocument_eq_bound_iff : (bindDocument document metas).run r = .ok .bound r' ↔
    r.extendsNeeded document.root = [] ∧ (bindRoot document.root metas).run r = .ok () r' := by
  by_cases hneeded : r.extendsNeeded document.root = []
  · rw [run_bindDocument_of_settled metas hneeded, run_bind_eq_ok]
    constructor
    · rintro ⟨_, _, hrun, hbound⟩
      cases hbound
      exact ⟨hneeded, hrun⟩
    · exact fun h => ⟨(), r', h.2, rfl⟩
  · rw [run_bindDocument_of_needed metas hneeded]
    exact ⟨nofun, fun h => absurd h.1 hneeded⟩

/-- The names of classes are among those that a document declares. -/
theorem classNames_sublist (root : Element) :
    ((root.childrenNamed "class").map (entityNameIn (.ofRoot root))).Sublist
      ((byName (documentOutlines root)).map Prod.fst) := by
  have hclasses : ∀ nodes : List Element, (nodes.map (entityNameIn (.ofRoot root))).Sublist
      ((byName (nodes.flatMap (classOutlines (.ofRoot root)))).map Prod.fst) := by
    intro nodes
    induction nodes with
    | nil => exact .slnil
    | cons node rest ih =>
      rw [List.flatMap_cons, byName, List.map_append, List.map_append]
      exact .cons_cons _ (ih.trans (List.sublist_append_right _ _))
  refine (hclasses _).trans ?_
  rw [documentOutlines, byName, byName, List.map_append, List.map_append]
  exact List.sublist_append_left _ _

/-- Every class is outlined as a root. -/
theorem exists_rootOutline {root node : Element} (h : node ∈ root.childrenNamed "class") :
    ∃ k, (entityNameIn (.ofRoot root) node, k) ∈ byName (documentOutlines root) ∧
      k.superclass = none := by
  have hhead := List.mem_flatMap_of_mem h (b := (classOutlines (.ofRoot root) node).head nofun)
    (List.head_mem _)
  exact ⟨_, List.mem_map.mpr ⟨_, List.mem_append_left _ hhead, rfl⟩, rfl⟩

/-- The classes of a document that is bound have names of their own, which were new, and become
roots. -/
theorem classes_of_bound (hkeyed : Keyed r.skeletons)
    (h : (bindDocument document metas).run r = .ok .bound r') :
    ((document.root.childrenNamed "class").map (entityNameIn (.ofRoot document.root))).Nodup ∧
      ∀ node ∈ document.root.childrenNamed "class",
        r.entity? (entityNameIn (.ofRoot document.root) node) = none ∧
        ∃ e, r'.entity? (entityNameIn (.ofRoot document.root) node) = some e ∧ e.isRoot = true := by
  obtain ⟨-, hrun⟩ := run_bindDocument_eq_bound_iff.mp h
  have houtlines := (registers_bindRoot document.root metas).outlines hkeyed hrun
  have hnodup := r'.nodup_entityNames
  rw [← map_fst_outlines, houtlines, List.map_append, map_fst_outlines, List.nodup_append] at hnodup
  obtain ⟨-, hdeclared, hfresh⟩ := hnodup
  have hsublist := classNames_sublist document.root
  refine ⟨hdeclared.sublist hsublist, fun node hnode => ⟨?_, ?_⟩⟩
  · by_contra hold
    obtain ⟨e, he⟩ := Option.ne_none_iff_exists'.mp hold
    have hname := hasEntity_iff.mp (hasEntity_iff_exists.mpr ⟨e, he⟩)
    exact hfresh _ hname _ (hsublist.subset (List.mem_map_of_mem hnode)) rfl
  · obtain ⟨k, hk, hsuper⟩ := exists_rootOutline hnode
    have hmem := houtlines ▸ List.mem_append_right r.outlines hk
    obtain ⟨e, he, rfl⟩ := Option.map_eq_some_iff.mp (mem_outlines_iff.mp hmem)
    exact ⟨e, he, isRoot_iff.mpr hsuper⟩

/-- Entities are registered under their own names. -/
theorem Driven.keyed {options : RegistryOptions} {documents : Document → Prop}
    (hr : Driven options documents r) : Keyed r.skeletons := by
  have hempty : storage.invariant { options } := ⟨forest_nil, nofun, nofun⟩
  exact (upkept_storage.advances_of_any hempty hr).invariant.1.keyed

/-- A document that is bound gives each of its classes the last identifier among the children, or
none if there is none, and leaves all other identifiers alone. -/
theorem identifications_of_bound {options : RegistryOptions} {documents : Document → Prop}
    (hr : Driven options documents r) (h : (bindDocument document metas).run r = .ok .bound r') :
    (∀ node ∈ document.root.childrenNamed "class",
      r'.identification? (entityNameIn (.ofRoot document.root) node)
        = some node.identifications.getLast?) ∧
      ∀ name, (∀ node ∈ document.root.childrenNamed "class",
          entityNameIn (.ofRoot document.root) node ≠ name) →
        r'.identification? name = r.identification? name := by
  obtain ⟨hnodup, hclasses⟩ := classes_of_bound hr.keyed h
  have hroots := rootsFrom_bindRoot document.root metas r
  rw [after_eq_of_ok (run_bindDocument_eq_bound_iff.mp h).2] at hroots
  have hstems : ∀ {name} {e : Entity}, e.StemsFrom (ClassOf document.root metas) name →
      ∃ node ∈ document.root.childrenNamed "class",
        entityNameIn (.ofRoot document.root) node = name ∧
          e.identification? = some node.identifications.getLast? := by
    intro name e he
    obtain ⟨scope, node, ⟨rfl, hnode⟩, hname, hidentification⟩ := he.exists_of_yields
      yields_identification_prepared fun hstep hold => hstep.identification?.trans hold
    exact ⟨node, hnode, hname, hidentification⟩
  refine ⟨fun node hnode => ?_, fun name hother => ?_⟩
  · obtain ⟨hnew, e, he, hroot⟩ := hclasses node hnode
    rcases hroots.origin he hroot with ⟨e₀, he₀, -⟩ | hstem
    · rw [hnew] at he₀
      cases he₀
    · obtain ⟨node', hnode', hname, hidentification⟩ := hstems hstem
      rw [Registry.identification?, he, Option.bind_some, hidentification,
        List.inj_on_of_nodup_map hnodup hnode' hnode hname]
  · cases he : r.entity? name with
    | some e =>
      obtain ⟨e', he', hdevelops⟩ := hroots.kept he
      rw [Registry.identification?, Registry.identification?, he, he']
      exact hdevelops.identification?
    | none =>
      rw [Registry.identification?, Registry.identification?, he, Option.bind_none,
        Option.bind_eq_none_iff]
      intro e' he'
      rw [Entity.identification?, Option.map_eq_none_iff, ← Option.not_isSome_iff_eq_none]
      intro hroot
      rcases hroots.origin he' hroot with ⟨e₀, he₀, -⟩ | hstem
      · rw [he] at he₀
        cases he₀
      · obtain ⟨node, hnode, hname, -⟩ := hstems hstem
        exact hother node hnode hname

/-- A class without an identifier. -/
def noteClass : Element := classElement "Note"

/-- A class with one. -/
def orderClass : Element := identifiedClass "Order" []

/-- A class with three, the last of which is composite and has no name. -/
def invoiceClass : Element := identifiedClass "Invoice" [
  { name := "id", attributes := .ofList [("name", "number"), ("type", "string")] },
  { name := "composite-id"
    children := [{ name := "key-property"
                   attributes := .ofList [("name", "year"), ("type", "integer")] }] }]

/-- A document with these classes. -/
def ledger : Document := documentOf [noteClass, orderClass, invoiceClass]

/-- The registry after the ledger was bound. -/
def ledgerRegistry : Registry := (bindRoot ledger.root .empty).after { options := {} }

/-- Nothing is missing for the ledger. -/
theorem run_bindDocument_ledger :
    (bindDocument ledger .empty).run { options := {} } = .ok .bound ledgerRegistry := by
  obtain ⟨⟨⟩, hrun⟩ := exists_run_of_succeeds (m := bindRoot ledger.root .empty)
    (r := { options := {} }) (by decide +kernel)
  exact run_bindDocument_eq_bound_iff.mpr ⟨by decide +kernel, hrun⟩

/-- A note has no identifier, an order has its only one, and an invoice the last of three. -/
theorem identifications_of_bound_ledger :
    Driven {} (fun _ => False) { options := {} } ∧
      (bindDocument ledger .empty).run { options := {} } = .ok .bound ledgerRegistry ∧
      ledgerRegistry.identification? "Note" = some none ∧
      ledgerRegistry.identification? "Order" = some (some ⟨some "id", false⟩) ∧
      ledgerRegistry.identification? "Invoice" = some (some ⟨none, true⟩) := by
  have hstart : Driven {} (fun _ => False) { options := {} } := .start
  obtain ⟨hclasses, -⟩ := identifications_of_bound hstart run_bindDocument_ledger
  have hmem : ∀ node ∈ [noteClass, orderClass, invoiceClass],
      node ∈ ledger.root.childrenNamed "class" := fun _ => id
  refine ⟨hstart, run_bindDocument_ledger, ?_, ?_, ?_⟩
  · exact hclasses noteClass (hmem _ (by simp))
  · exact hclasses orderClass (hmem _ (by simp))
  · exact hclasses invoiceClass (hmem _ (by simp))

/-- Neither need a root that is registered have an identifier, nor need a class have exactly one for
its document to be bound. -/
theorem identifiers_not_required :
    ¬ (∀ (document : Document) (r : Registry),
        (bindDocument document .empty).run { options := {} } = .ok .bound r →
        ∀ name, r.identification? name ≠ some none) ∧
      ¬ (∀ (document : Document) (r : Registry),
        (bindDocument document .empty).run { options := {} } = .ok .bound r →
        ∀ node ∈ document.root.childrenNamed "class", node.identifications ≠ []) ∧
      ¬ ∀ (document : Document) (r : Registry),
        (bindDocument document .empty).run { options := {} } = .ok .bound r →
        ∀ node ∈ document.root.childrenNamed "class", node.identifications.length ≤ 1 := by
  refine ⟨fun hclaim => ?_, fun hclaim => ?_, fun hclaim => ?_⟩
  · exact hclaim _ _ run_bindDocument_ledger "Note" (by decide +kernel)
  · exact hclaim _ _ run_bindDocument_ledger noteClass (.head _) rfl
  · have hthree : invoiceClass.identifications.length = 3 := rfl
    have hfew := hclaim _ _ run_bindDocument_ledger invoiceClass (.tail _ (.tail _ (.head _)))
    omega

end Session

end ObjectMapping
