import ObjectMapping.Proofs.ColumnSources
import ObjectMapping.Proofs.NaturalIds
import ObjectMapping.Proofs.SessionTracing

/-!
# Columns of natural identifiers

A property is flagged for an element in a group of the body of its entity, and its columns are
described by that element and by those in it.  A group asks for columns that may not be null unless
they say otherwise, and properties and associations in it are bound with this default.  One-to-ones
and components are not: their columns may be null by default, in a group as anywhere else.

That a flagged property is grouped in this sense is kept by every write of a session, whether its
calls end well or not.
-/

namespace ObjectMapping

open Binding Registry

variable {S : Source} {r r' : Registry}

/-! ## Grouped properties -/

/-- If a property of an entity is flagged, it is for an element in a group of a body that is read
under the name of the entity; and the columns of the property are described by that element and
those in it, with the default of the group. -/
def Property.Grouped (S : Source) (entity : String) (p : Property) : Prop :=
  p.naturalIdentifier = true → ∃ scope body group node, S.Reads scope body ∧
    entityNameIn scope.defaults body = entity ∧ body.BodyHas (some group) node ∧
    node.attribute? "name" = some p.name ∧ SelectedFrom (node.bodySources false) p.value.selectables

/-- The declared properties of an entity are grouped, and it is stored under its own name. -/
structure Entity.Grouped (S : Source) (entity : String) (e : Entity) : Prop where
  name : e.name = entity
  stores : e.Stores (fun _ => True) (Property.Grouped S entity) fun _ => True

/-- Ordinary properties are not flagged. -/
theorem Property.Ordinary.grouped {p : Property} (h : p.Ordinary) (entity : String) :
    p.Grouped S entity := by
  intro hflagged
  rw [h.2] at hflagged
  cases hflagged

/-- If the conditions on other values are void, only declared properties matter. -/
theorem Entity.stores_of_properties {D : Property → Prop} {e : Entity}
    (h : ∀ p ∈ e.allProperties, D p) : e.Stores (fun _ => True) D fun _ => True where
  properties := h
  keys _ _ _ _ := trivial
  kind _ _ := trivial
  identifier _ _ := trivial

/-- Other settings of an entity may be changed. -/
theorem Entity.Grouped.congr {entity : String} {e e' : Entity} (h : e.Grouped S entity)
    (hname : e'.name = e.name) (hproperties : e'.allProperties = e.allProperties) :
    e'.Grouped S entity :=
  ⟨hname.trans h.name, stores_of_properties (hproperties ▸ h.stores.properties)⟩

/-- All entities are grouped. -/
def Registry.Grouped (S : Source) (r : Registry) : Prop :=
  ∀ name e, r.entity? name = some e → e.Grouped S name

/-- Sessions keep entities grouped. -/
def Source.grouping (S : Source) : Upkeep where
  invariant r := r.Grouped S
  keeps _ _ := True
  refl _ := trivial
  trans _ _ := trivial

namespace Registry

/-! ## Writes -/

/-- Entities stay grouped if none of them changes. -/
theorem Grouped.of_entities (hr : r.Grouped S) (h : r'.entities = r.entities) :
    S.grouping.Advances r r' := by
  refine ⟨trivial, fun name e he => hr name e ?_⟩
  rwa [entity?, h] at he

/-- An entity may be changed if it stays grouped. -/
theorem Grouped.modifyEntity (hr : r.Grouped S) (name : String) {f : Entity → Entity}
    (h : ∀ e : Entity, e.Grouped S name → (f e).Grouped S name) :
    S.grouping.Advances r (r.modifyEntity name f) := by
  refine ⟨trivial, fun other e he => ?_⟩
  rw [entity?_modifyEntity] at he
  obtain ⟨e₀, he₀, rfl⟩ := Option.map_eq_some_iff.mp he
  have hold := hr other e₀ he₀
  by_cases hother : other = name
  · subst hother
    rw [if_pos rfl]
    exact h e₀ hold
  · rw [if_neg hother]
    exact hold

/-- A new entity is grouped if none of its properties is flagged. -/
theorem Grouped.addEntity (hr : r.Grouped S) {e : Entity} (he : e.Ordinary)
    (h : r.addEntity e = .ok r') : S.grouping.Advances r r' := by
  obtain ⟨-, rfl⟩ := addEntity_eq_ok.mp h
  refine ⟨trivial, fun name e' he' => ?_⟩
  rcases eq_or_of_entity?_addEntity h he' with ⟨rfl, rfl⟩ | hold
  · exact ⟨rfl, Entity.stores_of_properties fun p hp => (he p hp).grouped _⟩
  · exact hr name e' hold

/-- A preparation flags no property. -/
theorem Preparation.grouping (h : Preparation r r') (hr : r.Grouped S) :
    S.grouping.Advances r r' := by
  cases h with
  | quiet h => exact hr.of_entities h.alike.entities
  | collection h =>
    obtain ⟨-, rfl⟩ := addCollection_eq_ok.mp h
    exact hr.of_entities rfl
  | propertyRef => exact hr.of_entities rfl
  | mark name => exact hr.modifyEntity name fun _ he => he.congr rfl rfl

/-- The deferred passes flag no property. -/
theorem Passing.grouping (h : Passing r r') (hr : r.Grouped S) : S.grouping.Advances r r' := by
  cases h with
  | prepare h => exact h.grouping hr
  | @reveal name p h =>
    refine hr.modifyEntity name fun e he => ⟨he.name, he.stores.addProperty fun hflagged => ?_⟩
    rw [h] at hflagged
    cases hflagged
  | store => exact hr.of_entities rfl

/-- A mark below a property changes none of its columns. -/
theorem grouped_modifyAt {entity : String} (members : List Nat) {p : Property}
    (h : p.Grouped S entity) : (p.modifyAt markAlternateKey members).Grouped S entity := by
  have hface := Property.face_modifyAt face_markAlternateKey members p
  have hname : (p.modifyAt markAlternateKey members).name = p.name :=
    congrArg PropertyFace.name hface
  have hselectables : (p.modifyAt markAlternateKey members).value.selectables
      = p.value.selectables :=
    congrArg PropertyFace.selectables hface
  intro hflagged
  rw [(naturalPart_modifyAt members p).1] at hflagged
  rw [hname, hselectables]
  exact h hflagged

/-- A mark changes neither the flag of a property nor its columns. -/
theorem Mark.grouping (h : Mark r r') (hr : r.Grouped S) : S.grouping.Advances r r' := by
  cases h with
  | property place =>
    refine hr.modifyEntity place.entity fun e he => ⟨?_, ?_⟩
    · rw [← he.name]
      exact congrArg EntitySkeleton.name (e.skeleton_modifySlot place.slot fun p =>
        Property.name_modifyAt (f := markAlternateKey) (fun _ => rfl) p place.members)
    · exact he.stores.modifySlot place.slot (fun _ => grouped_modifyAt place.members)
        fun _ _ => ⟨trivial, trivial⟩

end Registry

/-- Supplements add ordinary properties at most. -/
theorem Supplement.grouping (h : Supplement r r') (hr : r.Grouped S) :
    S.grouping.Advances r r' := by
  cases h with
  | prepare h => exact h.grouping hr
  | change name hextends hproperties hjoins =>
    refine hr.modifyEntity name fun e he => he.congr (hextends e).name ?_
    rw [Entity.allProperties, Entity.allProperties, hproperties, hjoins]
  | join name hj =>
    exact hr.modifyEntity name fun e he =>
      ⟨he.name, he.stores.addJoin (fun _ _ => trivial) fun p hp => (hj p hp).grouped name⟩

/-! ## Bodies -/

/-- Preparation keeps entities grouped, and yields what it yields. -/
theorem groups_prepares {α : Type} {m : Binding α} {P : α → Prop} (hm : m.Prepares)
    (hyields : Yields m P) : Upholds S.grouping m r fun a _ => P a :=
  .of_makes hm hyields fun _ _ h hr => h.grouping hr

/-- A step that changes one entity has to keep it grouped. -/
theorem groups_changeEntity {name : String} {f : Entity → Entity}
    (h : ∀ e : Entity, e.Grouped S name → (f e).Grouped S name) :
    Upholds S.grouping (changeEntity name f) r fun _ _ => True := by
  unfold changeEntity
  exact .get_bind (.ite (fun _ => .write fun hr => hr.modifyEntity name h) fun _ => .throw _)

/-- A step that supplements entities flags no property. -/
theorem groups_supplementing {m : Binding PUnit} (hm : m.Supplementing) :
    Upholds S.grouping m r fun _ _ => True :=
  .of_steps hm fun _ _ h hr => h.grouping hr

/-- An entity without flagged properties may be registered. -/
theorem groups_addEntity {e : Entity} (he : e.Ordinary) :
    Upholds S.grouping (Binding.register (·.addEntity e)) r fun _ _ => True :=
  .register fun _ hr hadd => ⟨hr.addEntity he hadd, trivial⟩

/-- A subclass is opened with no property flagged. -/
theorem groups_openSubclass (kind : SubclassKind) (scope : Scope) (superclass : String)
    (node : Element) :
    Upholds S.grouping (openSubclass kind scope superclass node) r fun _ _ => True := by
  unfold openSubclass registerSubclass
  refine .bind (groups_prepares (quiet_prepareSubclass kind scope superclass node).prepares
    (yields_ordinarySubclass kind scope superclass node)) fun e r₁ _ he => ?_
  exact .bind (.bind (groups_addEntity he) fun _ _ _ _ =>
    groups_supplementing (supplementing_adoption e.name superclass kind.strategy))
    fun _ _ _ _ => .pure trivial

/-- So is a root class. -/
theorem groups_openRootClass (scope : Scope) (node : Element) :
    Upholds S.grouping (openRootClass scope node) r fun _ _ => True := by
  unfold openRootClass
  refine .bind (groups_prepares (prepares_prepareRootClass scope node)
    (yields_ordinaryRootClass scope node)) fun e r₁ _ he => ?_
  exact .bind (groups_addEntity he) fun _ _ _ _ => .pure trivial

/-- A property that is met in a group is bound with the default of the group. -/
theorem groups_bindBodyProperty {scope : Scope} {owner : Owner} {group : Option Element}
    {node : Element} (hmet : Met S.grouping S.Reads r scope owner group node) :
    Upholds S.grouping (bindBodyProperty scope owner (.within group) node) r
      fun _ _ => True := by
  obtain ⟨body, ⟨outer, r₀, e₀, hread, -, hr₀, he₀, rfl, -⟩, hhas⟩ := hmet.body
  have howner : e₀.name = entityNameIn outer.defaults body := (hr₀ _ e₀ he₀).name
  unfold bindBodyProperty
  refine .bind (groups_prepares (prepares_bindBodyValue _ _ _ _)
    (yields_columns_bindBodyValue _ _ _ _)) fun o r₁ _ hcolumns => ?_
  cases o with
  | none => exact .pure trivial
  | some v =>
    have hyields : Yields (createProperty scope node v (Owner.ofEntity e₀).className
        (Owner.ofEntity e₀).name) fun p =>
          node.attribute? "name" = some p.name ∧ p.value.selectables = v.selectables :=
      fun r p r' hrun => ⟨yields_createProperty _ _ _ _ _ r p r' hrun,
        yields_columns_createProperty _ _ _ _ _ r p r' hrun⟩
    refine .bind (groups_prepares (prepares_createProperty _ _ _ _ _) hyields)
      fun p r₂ _ hp => ?_
    obtain ⟨hname, hselectables⟩ := hp
    refine .bind (groups_changeEntity fun e he => ⟨he.name, he.stores.addProperty ?_⟩)
      fun _ _ _ _ => .pure trivial
    intro hflagged
    cases group with
    | none => cases hflagged
    | some group =>
      refine ⟨outer, body, group, node, hread, howner.symm, hhas, hname, ?_⟩
      rw [hselectables]
      exact hcolumns

/-- Wherever the walk over a document stops, entities stay grouped. -/
theorem walked_grouping (S : Source) : Walked S.grouping S.Reads where
  child hnode hc := hnode.child hc
  descend hnode hc := (hnode.child hc).congr rfl
  steady h hr := Preparation.grouping (.quiet h.quietWrite) hr
  openRootClass _ := groups_openRootClass _ _
  openSubclass kind _ superclass _ _ := groups_openSubclass kind _ superclass _
  bindBodyProperty _ _ _ hmet := groups_bindBodyProperty hmet
  bindBodyExtra owner _ tag _ := groups_supplementing (supplementing_bindBodyExtra _ owner _ tag)

namespace Session

/-- Documents, passes and references keep entities grouped. -/
theorem upkept_grouping :
    Upkept (S.tracing.and S.grouping) fun arrival => S.documents arrival.document where
  waiting hr := hr.1.waiting
  setWaiting hr hwaiting := (upkept_tracing.setWaiting hr.1 hwaiting).and (hr.2.of_entities rfl)
  upholds_bindRoot {r document} metas hdocument := by
    have hgroups : Upholds S.grouping (bindRoot document.root metas) r fun _ _ => True :=
      (walked_grouping S).upholds_bindRoot metas
        (fun _ hc => ⟨document, hdocument, .child (.self _) hc, rfl⟩)
        (.of_writes _ fun h hr => by cases h <;> exact hr.of_entities rfl)
    exact ((upkept_tracing.upholds_bindRoot metas hdocument).and hgroups).mono
      fun _ _ _ _ => trivial
  nextPass {r rest pass} hr hnext := by
    refine (upkept_tracing.nextPass hr.1 hnext).and ?_
    obtain ⟨passes, -, rfl⟩ := nextPass?_eq_some_iff.mp hnext
    have htaken : S.grouping.Advances r { r with passes } := hr.2.of_entities rfl
    have hpass : Upholds S.grouping pass.run { r with passes } fun _ _ => True :=
      .of_steps (passing_run pass) fun _ _ h hr => h.grouping hr
    exact htaken.trans (hpass.advances htaken.invariant)
  applyPropertyReferences hr happlied :=
    (upkept_tracing.applyPropertyReferences hr.1 happlied).and
      (.of_steps (fun hmark hr => hmark.grouping hr) (marks_of_applyPropertyReferences happlied).1
        hr.2)

/-- Every flagged property comes from an element in a group of the body of its entity, and its
columns are described by that element and those in it.  If the element is a property or an
association, no column may be null unless the element that describes it says so; the columns of
one-to-ones and components may be null by default, although they are in a group. -/
theorem naturalIds_nullable {options : RegistryOptions} {documents : Document → Prop}
    (h : Driven options documents r) {name : String} {e : Entity} (he : r.entity? name = some e)
    {p : Property} (hp : p ∈ e.allProperties) (hflagged : p.naturalIdentifier = true) :
    ∃ scope body group node, (sourceOf options documents).Reads scope body ∧
      entityNameIn scope.defaults body = name ∧ body.BodyHas (some group) node ∧
      node.attribute? "name" = some p.name ∧
      List.Forall₂ (fun source c => source.Describes c ∧
        (node.tag?.any Tag.isSimpleMember = true →
          source.element.attribute? "not-null" = none → c.nullable = false))
        (node.bodySources false) p.value.columns := by
  have hempty : (Source.grouping (sourceOf options documents)).invariant { options } :=
    fun _ e he => absurd he.symm (Option.some_ne_none e)
  have hgrouped := (upkept_grouping.advances_of_driven ⟨traced_empty options, hempty⟩ h).invariant.2
  obtain ⟨scope, body, group, node, hread, hname, hhas, hpname, hcolumns⟩ :=
    (hgrouped name e he).stores.properties p hp hflagged
  refine ⟨scope, body, group, node, hread, hname, hhas, hpname, ?_⟩
  have hdefaults : ∀ source ∈ node.bodySources false,
      node.tag?.any Tag.isSimpleMember = true → source.nullable = false :=
    fun source hsource htag => Element.nullable_of_mem_bodySources htag hsource
  have hboth := (List.forall₂_and_left _ _).mpr ⟨hdefaults, hcolumns⟩
  refine hboth.imp fun source c hc => ⟨hc.2, fun htag hunsaid => ?_⟩
  rw [hc.2.nullable, source.allowsNull_of_unsaid hunsaid]
  exact hc.1 htag

/-- A person who is known by a number and a name, which is made of parts. -/
def personRegister : Document := documentOf [
  identifiedClass "Person" [{
    name := "natural-id"
    children := [
      namedElement "property" "ssn" [],
      { name := "component"
        attributes := .ofList [("name", "name"), ("class", "Name")]
        children := [namedElement "property" "first" []] }] }]]

/-- The register as it is built. -/
def builtPersonRegister : Registry :=
  finish.after ((addAll [⟨personRegister, .empty⟩]).after { options := {} })

/-- The register is built without an error. -/
theorem built_personRegister : Built {} [⟨personRegister, .empty⟩] builtPersonRegister :=
  built_of_succeeds (by decide +kernel) (by decide +kernel)

/-- The number of a person may not be null, since nothing says that it may. -/
theorem naturalIds_nullable_personRegister :
    Driven {} (Arrives [⟨personRegister, .empty⟩]) builtPersonRegister ∧
      ∃ e p, builtPersonRegister.entity? "Person" = some e ∧ p ∈ e.allProperties ∧
        p.naturalIdentifier = true ∧ p.name = "ssn" ∧
        ∃ scope body group node,
          (sourceOf {} (Arrives [⟨personRegister, .empty⟩])).Reads scope body ∧
          entityNameIn scope.defaults body = "Person" ∧ body.BodyHas (some group) node ∧
          node.attribute? "name" = some p.name ∧
          List.Forall₂ (fun source c => source.Describes c ∧
            (node.tag?.any Tag.isSimpleMember = true →
              source.element.attribute? "not-null" = none → c.nullable = false))
            (node.bodySources false) p.value.columns := by
  have hdriven := built_personRegister.driven
  obtain ⟨e, he, p, hp, hflagged, hname⟩ : ∃ e ∈ builtPersonRegister.entity? "Person",
      ∃ p ∈ e.allProperties, p.naturalIdentifier = true ∧ p.name = "ssn" := by
    decide +kernel
  exact ⟨hdriven, e, p, he, hp, hflagged, hname, naturalIds_nullable hdriven he hp hflagged⟩

/-- A column of a natural identifier may be null although no element says so. -/
theorem naturalId_left_nullable : ¬ ∀ (options : RegistryOptions) (arrivals : List Arrival)
    (r : Registry), Built options arrivals r →
      (∀ arrival ∈ arrivals, ∀ node ∈ arrival.document.root.subtree,
        node.attribute? "not-null" = none) →
      ∀ e ∈ r.entities.values, ∀ p ∈ e.allProperties, p.naturalIdentifier = true →
        ∀ c ∈ p.value.columns, c.nullable = false := by
  intro hclaim
  have hunsaid : ∀ arrival ∈ [(⟨personRegister, .empty⟩ : Arrival)],
      ∀ node ∈ arrival.document.root.subtree, node.attribute? "not-null" = none := by
    decide +kernel
  obtain ⟨e, he, p, hp, hflagged, c, hc, hnullable⟩ : ∃ e ∈ builtPersonRegister.entities.values,
      ∃ p ∈ e.allProperties, p.naturalIdentifier = true ∧
        ∃ c ∈ p.value.columns, c.nullable = true := by
    decide +kernel
  rw [hclaim {} _ _ built_personRegister hunsaid e he p hp hflagged c hc] at hnullable
  cases hnullable

end Session

end ObjectMapping
