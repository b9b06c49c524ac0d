import ObjectMapping.Proofs.RootIdentifiers

/-!
# The rows of roots are fully specified

What a root says of its rows has defaults for all that a mapping may leave out.  A simple identifier
has a type, or its class is refused, and it tells which instances are new: by a value, or by a
generator that does not leave that to the application.  A composite identifier always has such a
value; a version is a typed property with one; and a discriminator has a type and makes its root
polymorphic.

All of this is settled while a class is prepared, child by child, and before it is registered.  What
becomes of a root later never touches it: properties may be added, and the columns of some may be
marked as a key.
-/

namespace ObjectMapping

open Binding Registry

/-! ## Specifications -/

/-- A simple value that identifies rows has a type, and tells which instances are new. -/
structure SimpleValue.Identifies (v : SimpleValue) : Prop where
  typed : v.typeName.isSome = true
  unsaved : v.unsavedValue.isSome = true ∨
    ∃ generator, v.generator = some generator ∧ generator.strategy ≠ assignedStrategy

/-- A value that identifies rows is simple, or composite with a value that marks new instances. -/
def Value.Identifies : Value → Prop
  | .simple v => v.Identifies
  | .component c => c.unsavedValue.isSome = true
  | .any _ | .collection _ | .dependant _ _ _ _ | .manyToOne _ | .oneToMany _ | .oneToOne _ => False

/-- A value that is a version is simple and has a type and a value that marks new instances. -/
def Value.Versions (w : Value) : Prop :=
  ∃ v, w = .simple v ∧ v.typeName.isSome = true ∧ v.unsavedValue.isSome = true

/-- What a root says of its rows is fully specified, where it has some properties. -/
structure RootData.Specified (data : RootData) (properties : List Property) : Prop where
  identifier : ∀ b, data.identifier = some b → b.value.Identifies
  version : ∀ name, data.version = some name → ∃ p ∈ properties, p.name = name ∧ p.value.Versions
  discriminator : ∀ d, data.discriminator = some d →
    d.value.typeName.isSome = true ∧ data.polymorphic = true

/-- What an entity says of its rows, if it is a root, is fully specified. -/
def Entity.Specified (e : Entity) : Prop :=
  ∀ data, e.root? = some data → data.Specified e.properties

/-! ## Preparing a class -/

section

variable {e : Entity}

namespace Entity.Specified

/-- An entity that says nothing of its rows yet says nothing that is incomplete. -/
theorem of_rowless (h : e.Rowless) : e.Specified := by
  intro data hdata
  obtain ⟨_, hroot, hidentifier, hversion, hdiscriminator, -⟩ := h.root
  obtain rfl := Option.some.inj (hroot.symm.trans hdata)
  refine ⟨fun b hb => ?_, fun name hname => ?_, fun d hd => ?_⟩
  · rw [hidentifier] at hb
    cases hb
  · rw [hversion] at hname
    cases hname
  · rw [hdiscriminator] at hd
    cases hd

/-- Root data may be rewritten if its own specification is kept. -/
theorem modifyRoot (h : e.Specified) {f : RootData → RootData}
    (hf : ∀ data, data.Specified e.properties → (f data).Specified e.properties) :
    (e.modifyRoot f).Specified := by
  intro data hdata
  rw [e.root?_modifyRoot] at hdata
  obtain ⟨old, hold, rfl⟩ := Option.map_eq_some_iff.mp hdata
  exact hf old (h old hold)

/-- A version stays one as long as no property that is one gets lost. -/
theorem of_root (h : e.Specified) {e' : Entity} (hroot : e'.root? = e.root?)
    (hversions : ∀ p ∈ e.properties, p.value.Versions →
      ∃ p' ∈ e'.properties, p'.name = p.name ∧ p'.value.Versions) : e'.Specified := by
  intro data hdata
  have hold := h data (hroot ▸ hdata)
  refine ⟨hold.identifier, fun name hname => ?_, hold.discriminator⟩
  obtain ⟨p, hp, rfl, hversion⟩ := hold.version name hname
  exact hversions p hp hversion

/-- A property added at the end moves no version property. -/
theorem addProperty (h : e.Specified) (p : Property) : (e.addProperty p).Specified :=
  h.of_root rfl fun q hq hversion => ⟨q, List.mem_append_left _ hq, rfl, hversion⟩

/-- A version comes with its property. -/
theorem addVersion (h : e.Specified) {p : Property} (hp : p.value.Versions) :
    ((e.modifyRoot ({ · with version := some p.name })).addProperty p).Specified := by
  intro data hdata
  have hroot : e.root?.map ({ · with version := some p.name }) = some data :=
    (e.root?_modifyRoot _).symm.trans hdata
  obtain ⟨old, hold, rfl⟩ := Option.map_eq_some_iff.mp hroot
  refine ⟨(h old hold).identifier, fun name hname => ?_, (h old hold).discriminator⟩
  cases hname
  exact ⟨p, List.mem_append_right _ (List.mem_singleton_self p), rfl, hp⟩

end Entity.Specified

/-- So a step that rewrites root data keeps what is specified of the entity. -/
theorem yields_specified_changeRoot (h : e.Specified) {f : RootData → RootData}
    (hf : ∀ data, data.Specified e.properties → (f data).Specified e.properties) :
    Yields (changeRoot e f) Entity.Specified := by
  unfold changeRoot
  exact .ite (fun _ => .pure (h.modifyRoot hf)) fun _ => .throw _ _

/-- A root may get another identifier. -/
theorem yields_specified_identified (h : e.Specified) {b : IdentifierBinding}
    (hb : b.value.Identifies) {f : RootData → RootData}
    (hidentifier : ∀ data, (f data).identifier = some b)
    (hversion : ∀ data, (f data).version = data.version)
    (hdiscriminator : ∀ data, (f data).discriminator = data.discriminator)
    (hpolymorphic : ∀ data, (f data).polymorphic = data.polymorphic) :
    Yields (changeRoot e f) Entity.Specified := by
  refine yields_specified_changeRoot h fun data hdata => ⟨fun b' hb' => ?_, ?_, ?_⟩
  · rw [hidentifier] at hb'
    cases hb'
    exact hb
  · rw [hversion]
    exact hdata.version
  · rw [hdiscriminator, hpolymorphic]
    exact hdata.discriminator

/-- A typed value identifies rows, as the identifier of an application is marked by default. -/
theorem identifies_of_asIdentifier {v v' : SimpleValue} {scope : Scope} {node : Element}
    (htyped : v.typeName.isSome = true) (h : v.asIdentifier scope node = .ok v') :
    v'.Identifies := by
  unfold SimpleValue.asIdentifier at h
  obtain ⟨generator, -, h⟩ := except_bind_eq_ok.mp h
  cases h
  refine ⟨htyped, ?_⟩
  dsimp only
  cases generator with
  | none => left; cases node.attribute? "unsaved-value" <;> rfl
  | some g =>
    by_cases hassigned : g.strategy = assignedStrategy
    · left
      cases node.attribute? "unsaved-value" <;> simp [hassigned]
    · exact .inr ⟨g, rfl, hassigned⟩

/-- A simple identifier is a choice of its own. -/
theorem yields_specified_simpleId (scope : Scope) (h : e.Specified) (node : Element) :
    Yields (bindSimpleId scope e node) Entity.Specified := by
  unfold bindSimpleId
  refine .next fun v => .next fun _ => .ite (fun _ => .throw_bind _ _ _) fun htyped => ?_
  refine .bind (P := SimpleValue.Identifies)
    (.ofExcept fun v' => identifies_of_asIdentifier
      (Option.isSome_iff_ne_none.mpr (mt Option.isNone_iff_eq_none.mpr htyped))) fun v' hv' => ?_
  split
  · refine .bind (P := fun b => b.value.Identifies) ?_ fun b hb =>
      yields_specified_identified h hb (fun _ => rfl) (fun _ => rfl) (fun _ => rfl) fun _ => rfl
    rw [map_eq_pure_bind]
    refine .bind (.ofExcept fun p => boundAs_of_bindProperty) fun p hp => .pure ?_
    rw [IdentifierBinding.value, hp.value]
    exact hv'
  · exact .bind (.pure (P := fun b => b.value.Identifies) hv') fun b hb =>
      yields_specified_identified h hb (fun _ => rfl) (fun _ => rfl) (fun _ => rfl) fun _ => rfl

/-- The shadow of a composite identifier is one more property. -/
theorem yields_specified_mapper (scope : Scope) (h : e.Specified) (path : String) (node : Element) :
    Yields (bindIdentifierMapper scope e path node) Entity.Specified := by
  unfold bindIdentifierMapper
  exact .next fun mapper => yields_specified_changeRoot (h.addProperty _) fun _ hdata =>
    ⟨hdata.identifier, hdata.version, hdata.discriminator⟩

/-- A composite identifier chooses its component and its shadow together. -/
theorem yields_specified_compositeId (scope : Scope) (h : e.Specified) (node : Element) :
    Yields (bindCompositeId scope e node) Entity.Specified := by
  unfold bindCompositeId
  refine .ite (fun _ => .throw_bind _ _ _) fun _ => .next fun id => ?_
  extract_lets key finish
  have hfinish : ∀ e₁ : Entity, e₁.Specified → Yields (finish e₁) Entity.Specified := by
    intro e₁ he₁
    unfold finish
    dsimp only
    split
    · refine .bind (.ofExcept fun p => boundAs_of_bindProperty) fun p hp => ?_
      refine yields_specified_identified (b := .named p) he₁ ?_ (fun _ => rfl) (fun _ => rfl)
        (fun _ => rfl) fun _ => rfl
      rw [IdentifierBinding.value, hp.value]
      rfl
    · refine yields_specified_identified he₁ ?_ (fun _ => rfl) (fun _ => rfl) (fun _ => rfl)
        fun _ => rfl
      dsimp only [IdentifierBinding.value]
      split <;> rfl
  clear_value finish
  exact .ite (fun _ => .bind (yields_specified_mapper scope h _ node) hfinish)
    fun _ => .bind (.pure h) hfinish

/-- A version points at the property it has just added. -/
theorem yields_specified_version (scope : Scope) (h : e.Specified) (node : Element) :
    Yields (bindVersion scope e node) Entity.Specified := by
  unfold bindVersion changeRoot
  refine .next fun name => .next fun v =>
    .bind (.ofExcept fun _ => boundAs_of_bindProperty) fun p hbound => ?_
  obtain rfl := hbound.name
  have hversion : p.value.Versions := by
    refine ⟨_, hbound.value, ?_, rfl⟩
    dsimp only
    cases v.typeName <;> rfl
  refine .ite (fun _ => .throw_bind _ _ _) fun _ =>
    .bind (P := (· = e.modifyRoot ({ · with version := some p.name })))
      (.ite (fun _ => .pure rfl) fun _ => .throw _ _) fun e' he' => .pure ?_
  rw [he']
  exact h.addVersion hversion

/-- A discriminator column is chosen together with its value. -/
theorem yields_specified_discriminator (h : e.Specified) (node : Element) :
    Yields (bindDiscriminator e node) Entity.Specified := by
  unfold bindDiscriminator
  refine .next fun v => yields_specified_changeRoot h fun data hdata =>
    ⟨hdata.identifier, hdata.version, fun d hd => ?_⟩
  cases hd
  refine ⟨?_, rfl⟩
  dsimp only
  cases v.typeName <;> rfl

/-- Each part of a row keeps what is specified of the root. -/
theorem yields_specified_rowChild (scope : Scope) (h : e.Specified) (node : Element) :
    Yields (bindRowChild scope e node) Entity.Specified := by
  unfold bindRowChild
  split
  · exact yields_specified_simpleId scope h node
  · exact yields_specified_compositeId scope h node
  · exact yields_specified_version scope h node
  · exact yields_specified_version scope h node
  · exact yields_specified_discriminator h node
  · exact .next fun _ => .pure (h.modifyRoot fun _ hdata =>
      ⟨hdata.identifier, hdata.version, hdata.discriminator⟩)
  · exact .pure h

/-- The children of a class keep it fully specified, one after the other. -/
theorem yields_specified_row (scope : Scope) (h : e.Specified) (children : List Element) :
    Yields (bindRow scope e children) Entity.Specified := by
  induction children generalizing e with
  | nil => exact .pure h
  | cons node rest ih => exact .bind (yields_specified_rowChild scope h node) fun _ h₁ => ih h₁

end

/-- A class is fully specified when it is registered. -/
theorem yields_specified_prepared (scope : Scope) (node : Element) :
    Yields (prepareRootClass scope node) Entity.Specified :=
  yields_prepared fun _ he => yields_specified_row _ (.of_rowless he) node.children

/-! ## Development -/

/-- A member of a list is still there after one is changed, or is the one that is. -/
theorem exists_mem_modify {α : Type} {l : List α} {a : α} (f : α → α) (i : Nat) (h : a ∈ l) :
    ∃ b ∈ l.modify i f, b = a ∨ b = f a := by
  obtain ⟨j, hj⟩ := List.mem_iff_getElem?.mp h
  refine ⟨if i = j then f a else a, List.mem_iff_getElem?.mpr ⟨j, ?_⟩, ?_⟩
  · rw [List.getElem?_modify, hj]
    rfl
  · split
    · exact .inr rfl
    · exact .inl rfl

/-- What holds of the value of a property, and is kept when the columns of a value are marked as a
key and when the members of a component change, holds after a mark below the property. -/
theorem Property.value_modifyAt {P : Value → Prop}
    (hmark : ∀ w : Value, P w → P (w.modifySimple ({ · with alternateUniqueKey := true })))
    (hmembers : ∀ (c : Component) (properties : List Property),
      P (.component c) → P (.component { c with properties })) (members : List Nat) {p : Property}
    (h : P p.value) : P (p.modifyAt markAlternateKey members).value := by
  cases members with
  | nil => exact hmark p.value h
  | cons index rest =>
    unfold Property.modifyAt
    split
    · next c hvalue => exact hmembers c _ (hvalue ▸ h)
    · exact h

/-- A mark leaves a value that identifies rows what it is. -/
theorem Property.identifies_modifyAt (members : List Nat) {p : Property}
    (h : p.value.Identifies) : (p.modifyAt markAlternateKey members).value.Identifies := by
  refine Property.value_modifyAt (fun w hw => ?_) (fun _ _ hc => hc) members h
  cases w with
  | simple v => exact ⟨hw.typed, hw.unsaved⟩
  | component => exact hw
  | any | collection | dependant | manyToOne | oneToMany | oneToOne => exact hw

/-- A mark leaves a version what it is. -/
theorem Property.versions_modifyAt (members : List Nat) {p : Property} (h : p.value.Versions) :
    (p.modifyAt markAlternateKey members).value.Versions := by
  refine Property.value_modifyAt (fun w hw => ?_) (fun _ _ hc => ?_) members h
  · obtain ⟨v, rfl, htyped, hunsaved⟩ := hw
    exact ⟨_, rfl, htyped, hunsaved⟩
  · obtain ⟨v, hv, -⟩ := hc
    cases hv

/-- Development keeps a root fully specified. -/
theorem Entity.Development.specified {e e' : Entity} (h : e.Development e')
    (he : e.Specified) : e'.Specified := by
  cases h with
  | supplement hkind hproperties =>
    exact he.of_root (congrArg EntityKind.root? hkind) fun p hp hversion =>
      ⟨p, hproperties ▸ hp, rfl, hversion⟩
  | declare p => exact he.addProperty p
  | choose =>
    exact he.modifyRoot fun _ hdata => ⟨hdata.identifier, hdata.version, hdata.discriminator⟩
  | mark slot members =>
    cases slot with
    | own index =>
      refine he.of_root rfl fun p hp hversion => ?_
      obtain ⟨q, hq, hqp⟩ := exists_mem_modify (·.modifyAt markAlternateKey members) index hp
      refine ⟨q, hq, ?_⟩
      rcases hqp with rfl | rfl
      · exact ⟨rfl, hversion⟩
      · exact ⟨(p.same_modifyAt members).1, p.versions_modifyAt members hversion⟩
    | joined => exact he.of_root rfl fun p hp hversion => ⟨p, hp, rfl, hversion⟩
    | identifier =>
      refine he.modifyRoot fun data hdata => ⟨fun b hb => ?_, hdata.version, hdata.discriminator⟩
      obtain ⟨old, hold, rfl⟩ := Option.map_eq_some_iff.mp hb
      have hidentifies := hdata.identifier old hold
      cases old with
      | named p => exact p.identifies_modifyAt members hidentifies
      | unnamed => exact hidentifies

/-! ## Sessions -/

namespace Session

/-- In every registry that a session is driven to, what the roots say of their rows is fully
specified. -/
theorem roots_specified {options : RegistryOptions} {documents : Document → Prop} {r : Registry}
    (hr : Driven options documents r) {name : String} {e : Entity}
    (he : r.entity? name = some e) : e.Specified := by
  intro data hdata
  have hroot : e.isRoot = true := by
    rw [Entity.isRoot, hdata]
    rfl
  obtain ⟨_, _, -, -, hspecified⟩ :=
    (stemsFrom_of_driven hr he hroot).exists_of_yields (Q := fun _ _ => Entity.Specified)
      yields_specified_prepared fun hstep he => hstep.specified he
  exact hspecified data hdata

/-- Orders with a generated identifier, a version and a discriminator without a type, and lines
with a composite identifier. -/
def numberedOrders : Document := documentOf [
  { name := "class"
    attributes := .ofList [("name", "Order")]
    children := [
      { name := "id"
        attributes := .ofList [("name", "number"), ("type", "long")]
        children := [{ name := "generator", attributes := .ofList [("class", "native")] }] },
      { name := "discriminator", attributes := .ofList [("column", "kind")] },
      namedElement "version" "revision" []] },
  { name := "class"
    attributes := .ofList [("name", "Line")]
    children := [
      { name := "composite-id"
        children := [namedElement "key-property" "position" []] }] }]

/-- The registry after the orders were added. -/
def numberedRegistry : Registry := (Call.add numberedOrders .empty).run.after { options := {} }

/-- What the root of a name says of its version, its discriminator and its identifier: types, and
what marks new instances. -/
def rowsOf (r : Registry) (name : String) : Option (Option String × Option String ×
    Option (Option String × Option String)) :=
  ((r.entity? name).bind Entity.root?).map fun data =>
    (data.version, data.discriminator.bind (·.value.typeName), data.identifierValue?.bind fun w =>
      match w with
      | .simple v => some (v.typeName, v.unsavedValue)
      | .component c => some (none, c.unsavedValue)
      | _ => none)

/-- The number of an order is generated, and not marked by a value; the discriminator is a string;
and a value marks the identifier of a new line. -/
theorem roots_specified_orders :
    Driven {} (· = numberedOrders) numberedRegistry ∧
      rowsOf numberedRegistry "Order"
        = some (some "revision", some "string", some (some "long", none)) ∧
      rowsOf numberedRegistry "Line" = some (none, none, some (none, some "undefined")) ∧
      (∃ e, numberedRegistry.entity? "Order" = some e ∧ e.Specified) ∧
      ∃ e, numberedRegistry.entity? "Line" = some e ∧ e.Specified := by
  have hstart : Driven {} (· = numberedOrders) { options := {} } := .start
  have hdriven : Driven {} (· = numberedOrders) numberedRegistry :=
    hstart.call (.add numberedOrders .empty) fun _ hdocument => (Option.some.inj hdocument).symm
  have hspecified : ∀ name, numberedRegistry.hasEntity name = true →
      ∃ e, numberedRegistry.entity? name = some e ∧ e.Specified := by
    intro name hname
    obtain ⟨e, he⟩ := hasEntity_iff_exists.mp hname
    exact ⟨e, he, roots_specified hdriven he⟩
  exact ⟨hdriven, by decide +kernel, by decide +kernel, hspecified "Order" (by decide +kernel),
    hspecified "Line" (by decide +kernel)⟩

end Session

end ObjectMapping
