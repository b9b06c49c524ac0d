import ObjectMapping.Proofs.NaturalIdBinding
import ObjectMapping.Proofs.PropertyTraits
import ObjectMapping.Proofs.RootOrigins

/-!
# Generated properties

A property that the database generates is not written: one that it always generates is neither
inserted nor updated, and one that it generates on insert is not inserted.  An element that says
otherwise is refused, and so is one that names another kind of generation; no other element is
refused on account of its settings.  Since properties are written less often afterwards, but never
more often, and their generation does not change, this holds of every property of every registry,
at any depth.

A version or timestamp may not be generated on insert.  Its property stays with its root as it was
bound.
-/

namespace ObjectMapping

open Binding Registry

/-! ## Refused settings -/

/-- A sequence of checks is refused where one of them is, if the rest does not rest on the first. -/
theorem except_bind_eq_error {α β : Type} {x : Except MappingError α}
    {f : α → Except MappingError β} {Q : Prop} (hf : ∀ a, (∃ e, f a = .error e) ↔ Q) :
    (∃ e, (x >>= f) = .error e) ↔ (∃ e, x = .error e) ∨ Q := by
  cases x with
  | error e => simp [bind, Except.bind]
  | ok a => simpa [bind, Except.bind] using hf a

/-- It is refused to write what is generated. -/
theorem writable_eq_error_iff {node : Element} {name : String} {generated : Bool}
    {refusal : MappingError} : (∃ e, writable node name generated refusal = .error e) ↔
      generated = true ∧ node.attribute? name = some "true" := by
  have hpresent : node.hasAttribute name = (node.attribute? name).isSome :=
    (KeyedList.isSome_get? node.attributes name).symm
  unfold writable Element.isNotDenied
  rw [hpresent]
  cases generated with
  | false => simp
  | true =>
    cases node.attribute? name with
    | none => simp
    | some raw => by_cases htrue : raw = "true" <;> simp [htrue]

/-- A kind of generation that is not known is refused. -/
theorem generationOf_eq_error_iff {node : Element} : (∃ e, generationOf node = .error e) ↔
    ∃ raw, node.attribute? "generated" = some raw ∧ raw ∉ ["always", "insert", "never"] := by
  unfold generationOf
  cases node.attribute? "generated" with
  | none => simp
  | some raw =>
    simp only [PropertyGeneration.ofLiteral?, List.mem_cons, List.not_mem_nil, or_false,
      Option.some.injEq, exists_eq_left']
    split_ifs <;> simp_all

/-- What is generated is said to be so, on insert or always. -/
theorem generated_of_generationOf {node : Element} {generation : PropertyGeneration}
    (h : generationOf node = .ok generation) :
    generation ≠ .never ↔ node.attribute? "generated" = some "insert" ∨
      node.attribute? "generated" = some "always" := by
  unfold generationOf PropertyGeneration.ofLiteral? at h
  split at h
  · next hnone =>
    cases h
    simp [hnone]
  · next raw hraw =>
    split_ifs at h <;> cases h <;> simp_all

/-- A property is refused if the kind of generation is not known, or if it is said to be written
although it is generated. -/
theorem bindProperty_eq_error_iff {scope : Scope} {node : Element} {v : Value} {name : String} :
    (∃ e, bindProperty scope node v name = .error e) ↔
      (∃ raw, node.attribute? "generated" = some raw ∧ raw ∉ ["always", "insert", "never"]) ∨
      ((node.attribute? "generated" = some "insert" ∨ node.attribute? "generated" = some "always") ∧
        node.attribute? "insert" = some "true") ∨
      (node.attribute? "generated" = some "always" ∧ node.attribute? "update" = some "true") := by
  rw [← generationOf_eq_error_iff]
  unfold bindProperty
  cases hgeneration : generationOf node with
  | error e => exact ⟨fun _ => .inl ⟨e, rfl⟩, fun _ => ⟨e, rfl⟩⟩
  | ok generation =>
    have hnone : ¬ ∃ e, (Except.ok generation : Except MappingError _) = .error e := nofun
    rw [or_iff_right hnone]
    refine (except_bind_eq_error fun _ => except_bind_eq_error (Q := False) fun _ =>
      ⟨fun ⟨_, h⟩ => (nomatch h), False.elim⟩).trans ?_
    rw [writable_eq_error_iff, writable_eq_error_iff, or_false, decide_eq_true_iff,
      decide_eq_true_iff, generated_of_generationOf hgeneration, always_of_generationOf hgeneration]

/-! ## Properties at any depth -/

/-- What the database generates is not written. -/
structure Property.Unwritten (p : Property) : Prop where
  always : p.generation = .always → p.insertable = false ∧ p.updatable = false
  insert : p.generation = .insert → p.insertable = false

/-- A property is not written if it is generated. -/
theorem unwritten_of_bindProperty {scope : Scope} {node : Element} {v : Value} {name : String}
    {p : Property} (h : bindProperty scope node v name = .ok p) : p.Unwritten := by
  have hbound := boundAs_of_bindProperty h
  obtain ⟨_, hinsertable⟩ := hbound.insertable
  obtain ⟨_, hupdatable⟩ := hbound.updatable
  refine ⟨fun halways => ?_, fun hinsert => ?_⟩
  · rw [halways] at hinsertable hupdatable
    exact ⟨(eq_of_writable hinsertable).trans (Bool.and_false _),
      (eq_of_writable hupdatable).trans (Bool.and_false _)⟩
  · rw [hinsert] at hinsertable
    exact (eq_of_writable hinsertable).trans (Bool.and_false _)

/-- What is shown of a collection is not generated. -/
theorem generation_of_backref? {c : Collection} {node : Element} {kind : BackrefKind}
    {target : String} {p : Property} (h : c.backref? node kind = some (target, p)) :
    p.generation = .never := by
  unfold Collection.backref? at h
  split at h
  · split at h
    · cases h
    · obtain ⟨⟨_, _, _⟩, -, hp⟩ := Option.map_eq_some_iff.mp h
      cases hp
      rfl
  · cases h

/-- To be written less often than asked for is a trait of all properties. -/
theorem trait_unwritten : Property.Trait Property.Unwritten where
  bound := unwritten_of_bindProperty
  shadow _ := ⟨nofun, nofun⟩
  backref h := by
    have hnever := generation_of_backref? h
    exact ⟨fun halways => PropertyGeneration.noConfusion (hnever.symm.trans halways),
      fun hinsert => PropertyGeneration.noConfusion (hnever.symm.trans hinsert)⟩
  restrict hp hinsertable hupdatable := by
    have hfalse : ∀ {a b : Bool}, (a → b) → b = false → a = false :=
      fun h hb => Bool.eq_false_iff.mpr fun ha => Bool.false_ne_true (hb.symm.trans (h ha))
    refine ⟨fun halways => ?_, fun hinsert => hfalse hinsertable (hp.insert hinsert)⟩
    obtain ⟨hinserted, hupdated⟩ := hp.always halways
    exact ⟨hfalse hinsertable hinserted, hfalse hupdatable hupdated⟩
  revalue _ hp := ⟨hp.always, hp.insert⟩

/-! ## Versions -/

/-- Whether a child of a class is a version or timestamp. -/
def Element.isVersion (node : Element) : Bool :=
  node.tag? = some .version || node.tag? = some .timestamp

/-- A property was bound from a version or timestamp: it has the name of the element, and is
generated as the element says, but not on insert. -/
structure Property.VersionedBy (p : Property) (node : Element) : Prop where
  name : node.attribute? "name" = some p.name
  generation : generationOf node = .ok p.generation
  allowed : p.generation ≠ .insert

/-- What a version or timestamp says of its property. -/
def Property.stamp (p : Property) : String × PropertyGeneration := (p.name, p.generation)

/-- Only the stamp of a property says what versions it. -/
theorem Property.VersionedBy.of_stamp {p q : Property} {node : Element} (h : p.VersionedBy node)
    (hstamp : q.stamp = p.stamp) : q.VersionedBy node := by
  obtain ⟨hname, hgeneration⟩ := Prod.mk.inj hstamp
  exact ⟨hname ▸ h.name, hgeneration ▸ h.generation, hgeneration ▸ h.allowed⟩

/-- A mark changes the value of a property only. -/
theorem Property.stamp_modifyAt (members : List Nat) (p : Property) :
    (p.modifyAt markAlternateKey members).stamp = p.stamp := by
  cases members with
  | nil => rfl
  | cons index rest =>
    unfold Property.modifyAt
    split <;> rfl

namespace Entity

variable {e e' : Entity}

/-- The properties of an entity come first among those of another one, up to their values. -/
def Leads (e e' : Entity) : Prop :=
  e.properties.map Property.stamp <+: e'.properties.map Property.stamp

/-- Properties with equal stamps lead to one another. -/
theorem Leads.of_stamps (h : e'.properties.map Property.stamp = e.properties.map Property.stamp) :
    e.Leads e' :=
  ⟨[], (List.append_nil _).trans h.symm⟩

/-- So do equal properties. -/
theorem Leads.of_properties (h : e'.properties = e.properties) : e.Leads e' :=
  .of_stamps (congrArg _ h)

/-- One lead may follow another. -/
theorem Leads.trans {e'' : Entity} (h : e.Leads e') (h' : e'.Leads e'') : e.Leads e'' :=
  List.IsPrefix.trans h h'

/-- Properties may be added at the end. -/
theorem Leads.of_append {ps : List Property} (h : e'.properties = e.properties ++ ps) :
    e.Leads e' := by
  rw [Leads, h, List.map_append]
  exact List.prefix_append _ _

/-- A property that was bound from a version is not lost. -/
theorem Leads.exists_versionedBy (h : e.Leads e') {node : Element}
    (he : ∃ p ∈ e.properties, p.VersionedBy node) : ∃ p ∈ e'.properties, p.VersionedBy node := by
  obtain ⟨p, hp, hversion⟩ := he
  obtain ⟨q, hq, hstamp⟩ := List.mem_map.mp (h.subset (List.mem_map_of_mem hp))
  exact ⟨q, hq, hversion.of_stamp hstamp⟩

/-- A development keeps properties where they are. -/
theorem Development.leads (h : e.Development e') : e.Leads e' := by
  cases h with
  | supplement _ hproperties => exact .of_properties hproperties
  | declare => exact .of_append rfl
  | choose => exact .of_properties rfl
  | mark slot members =>
    cases slot with
    | joined | identifier => exact .of_properties rfl
    | own index =>
      exact .of_stamps (map_modify_of_eq Property.stamp (Property.stamp_modifyAt members) _ _)

end Entity

/-- Changing a root leaves its properties alone. -/
theorem yields_properties_changeRoot (e : Entity) (f : RootData → RootData) :
    Yields (changeRoot e f) fun e' => e'.properties = e.properties := by
  unfold changeRoot
  exact .ite (fun _ => .pure rfl) fun _ => .throw _ _

/-- A version or timestamp adds its property, which is not generated on insert. -/
theorem yields_versioned (scope : Scope) (e : Entity) (node : Element) :
    Yields (bindVersion scope e node) fun e' =>
      ∃ p, e'.properties = e.properties ++ [p] ∧ p.VersionedBy node := by
  unfold bindVersion
  refine .bind (.ofExcept fun _ => attribute?_of_propertyName) fun name hname => .next fun v => ?_
  refine .bind (.ofExcept fun p => id) fun p hp =>
    .ite (fun _ => .throw_bind _ _ _) fun hallowed => ?_
  refine .bind (yields_properties_changeRoot e _) fun e' he' => .pure ⟨p, ?_, ?_, ?_, hallowed⟩
  · rw [Entity.addProperty, he']
  · rw [(boundAs_of_bindProperty hp).name, hname]
  · exact (boundAs_of_bindProperty hp).generation

/-- The children of a class leave the properties alone that are there. -/
theorem rowKept_leads (e : Entity) : Entity.RowKept e.Leads where
  modifyRoot _ hlater := hlater.trans (.of_properties rfl)
  addProperty _ hlater := hlater.trans (.of_append rfl)

/-- A version element is bound as a version. -/
theorem bindRowChild_of_isVersion {node : Element} (h : node.isVersion = true) (scope : Scope)
    (e : Entity) : bindRowChild scope e node = bindVersion scope e node := by
  rw [Element.isVersion, Bool.or_eq_true, decide_eq_true_iff, decide_eq_true_iff] at h
  rcases h with htag | htag <;> rw [bindRowChild, htag]

/-- All versions and timestamps among the children of a class leave their properties behind.  By
induction on the children, the later of which leave alone what an earlier one has added. -/
theorem yields_versioned_row (scope : Scope) (e : Entity) (children : List Element) :
    Yields (bindRow scope e children) fun e' => e.Leads e' ∧
      ∀ node ∈ children, node.isVersion = true → ∃ p ∈ e'.properties, p.VersionedBy node := by
  induction children generalizing e with
  | nil => exact .pure ⟨.of_properties rfl, List.forall_mem_nil _⟩
  | cons node rest ih =>
    intro r e' r' hrun
    obtain ⟨e₁, r₁, hfirst, hrest⟩ := run_bind_eq_ok.mp hrun
    obtain ⟨hlater, hothers⟩ := ih e₁ r₁ e' r' hrest
    have hkept := (rowKept_leads e).rowChild scope (.of_properties rfl) node r e₁ r₁ hfirst
    refine ⟨hkept.trans hlater,
      List.forall_mem_cons.mpr ⟨fun hnode => hlater.exists_versionedBy ?_, hothers⟩⟩
    rw [bindRowChild_of_isVersion hnode] at hfirst
    obtain ⟨p, hadded, hversioned⟩ := yields_versioned scope e node r e₁ r₁ hfirst
    exact ⟨p, hadded ▸ List.mem_append_right _ (List.mem_singleton_self p), hversioned⟩

/-! ## Sessions -/

namespace Session

/-- In every registry that a session is driven to, what the database generates is not written, at
any depth, and every root has a property for each version or timestamp of its class, which is not
generated on insert.  An element is refused because of its settings exactly if it names an unknown
kind of generation, or says that what is generated is written. -/
theorem generated_unwritten {options : RegistryOptions} {documents : Document → Prop} {r : Registry}
    (hr : Driven options documents r) :
    (∀ name e, r.entity? name = some e → ∀ p ∈ e.propertiesWithin, p.Unwritten) ∧
    (∀ role c, r.collection? role = some c → ∀ p ∈ c.propertiesWithin, p.Unwritten) ∧
    (∀ name e, r.entity? name = some e → e.isRoot = true → ∃ scope node,
      ClassIn documents scope node ∧ entityNameIn scope.defaults node = name ∧
        ∀ c ∈ node.children, c.isVersion = true → ∃ p ∈ e.properties, p.VersionedBy c) ∧
    (∀ scope e node r₁ e' r₂, (bindVersion scope e node).run r₁ = .ok e' r₂ →
      ∃ p, e'.properties = e.properties ++ [p] ∧ p.VersionedBy node) ∧
    ∀ scope node v name, (∃ e, bindProperty scope node v name = .error e) ↔
      (∃ raw, node.attribute? "generated" = some raw ∧ raw ∉ ["always", "insert", "never"]) ∨
      ((node.attribute? "generated" = some "insert" ∨ node.attribute? "generated" = some "always") ∧
        node.attribute? "insert" = some "true") ∨
      (node.attribute? "generated" = some "always" ∧ node.attribute? "update" = some "true") := by
  obtain ⟨hentities, hcollections⟩ := bears_of_driven trait_unwritten hr
  refine ⟨hentities, hcollections, fun name e he hroot => ?_, yields_versioned,
    fun _ _ _ _ => bindProperty_eq_error_iff⟩
  exact (stemsFrom_of_driven hr he hroot).exists_of_yields
    (fun scope node => yields_prepared fun e₀ _ =>
      (yields_versioned_row (scope.descend node) e₀ node.children).mono fun _ h => h.2)
    fun hstep hversions c hc hversion => hstep.leads.exists_versionedBy (hversions c hc hversion)

/-- A property that is generated. -/
def generatedElement (tag name typeName generated : String) : Element where
  name := tag
  attributes := .ofList [("name", name), ("type", typeName), ("generated", generated)]

/-- Orders with a revision and a total that are always generated, and with dates that are generated
when they are inserted, one of them in a component. -/
def datedClass : Element := identifiedClass "Order" [
  generatedElement "version" "revision" "integer" "always",
  generatedElement "property" "total" "long" "always",
  generatedElement "property" "placed" "date" "insert",
  namedElement "component" "delivery" [generatedElement "property" "promised" "date" "insert"]]

/-- A document with these orders. -/
def datedOrders : Document := documentOf [datedClass]

/-- The registry after the orders were added. -/
def datedRegistry : Registry := (Call.add datedOrders .empty).run.after { options := {} }

/-- Whether and when the properties of an entity are generated and written, at any depth. -/
def writing (r : Registry) (name : String) :
    Option (List (String × PropertyGeneration × Bool × Bool)) :=
  (r.entity? name).map fun e => e.propertiesWithin.map fun p =>
    (p.name, p.generation, p.insertable, p.updatable)

/-- The revision and the total are never written, and the dates are not inserted. -/
theorem generated_unwritten_orders :
    Driven {} (· = datedOrders) datedRegistry ∧
      writing datedRegistry "Order" = some [
        ("revision", .always, false, false), ("total", .always, false, false),
        ("placed", .insert, false, true), ("delivery", .never, true, true),
        ("id", .never, true, true), ("promised", .insert, false, true)] ∧
      (∀ name e, datedRegistry.entity? name = some e → ∀ p ∈ e.propertiesWithin, p.Unwritten) ∧
      ∃ e, datedRegistry.entity? "Order" = some e ∧ ∃ p ∈ e.properties,
        p.VersionedBy (generatedElement "version" "revision" "integer" "always") := by
  have hstart : Driven {} (· = datedOrders) { options := {} } := .start
  have hdriven : Driven {} (· = datedOrders) datedRegistry :=
    hstart.call (.add datedOrders .empty) fun _ hdocument => (Option.some.inj hdocument).symm
  obtain ⟨hunwritten, -, hversions, -⟩ := generated_unwritten hdriven
  have hwriting : writing datedRegistry "Order" = some [
      ("revision", .always, false, false), ("total", .always, false, false),
      ("placed", .insert, false, true), ("delivery", .never, true, true),
      ("id", .never, true, true), ("promised", .insert, false, true)] := by decide +kernel
  obtain ⟨e, he, -⟩ := Option.map_eq_some_iff.mp hwriting
  have hroot : (datedRegistry.entity? "Order").all Entity.isRoot = true := by decide +kernel
  rw [he, Option.all_some] at hroot
  obtain ⟨scope, node, ⟨document, metas, rfl, -, hnode⟩, -, hversioned⟩ :=
    hversions "Order" e he hroot
  obtain rfl : node = datedClass := List.mem_singleton.mp hnode
  exact ⟨hdriven, hwriting, hunwritten, e, he, hversioned _ (.tail _ (.head _)) rfl⟩

end Session

end ObjectMapping
