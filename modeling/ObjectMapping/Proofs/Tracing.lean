import ObjectMapping.Proofs.Parts
import ObjectMapping.Proofs.Source

/-!
# Traced registries

What a registry stores about associations can be traced to elements of the documents.  A property
has the cascade of its element, or of the document if its element gives none, and what its value
does with orphans is what the element alone says: the defaults of the document are not asked.
Only backrefs and the shadows of composite identifiers are synthetic.  An association to a
property has recorded which one, and an association without `property-ref` has the target that
its element names, or that is left to the backing class.  The latter is not checked anywhere, and
neither is the target of the foreign key that is made for it at once; any other foreign key is
made to a registered entity.

A registry retains what another has if its options are the same, no entity, reference or
collection is missing, and collections do the same with orphans.  Whatever is traced stays so in a
registry that retains it.
-/

namespace ObjectMapping

open Registry

/-! ## Elements and their scopes -/

/-- Whether elements of a kind are associations to one entity. -/
def Tag.isAssociation : Tag → Bool
  | indexManyToMany | keyManyToOne | manyToMany | manyToOne | oneToOne => true
  | _ => false

/-- Whether the cascade that an element gives asks for the deletion of orphans. -/
def Element.deletesOrphans (e : Element) : Bool :=
  (e.attribute? "cascade").any cascadesDeleteOrphan

/-- An element is an association to one entity. -/
def Element.IsAssociation (e : Element) : Prop := e.tag?.any Tag.isAssociation

instance (e : Element) : Decidable e.IsAssociation := inferInstanceAs (Decidable (_ = true))

/-- Whether an element is an association can be told from its tag. -/
theorem Element.isAssociation_of_tag {e : Element} {tag : Tag} (h : e.tag? = some tag)
    (htag : tag.isAssociation) : e.IsAssociation := by
  rw [IsAssociation, h]
  exact htag

namespace Source

variable {S : Source} {scope : Scope} {node : Element}

/-- An element of a document, in a scope that has the defaults of that document. -/
def Reads (S : Source) (scope : Scope) (node : Element) : Prop :=
  ∃ d, S.documents d ∧ node.Within d.root ∧ scope.defaults = .ofRoot d.root

/-- Only the defaults of a scope matter. -/
theorem Reads.congr (h : S.Reads scope node) {scope' : Scope}
    (hdefaults : scope'.defaults = scope.defaults) : S.Reads scope' node := by
  obtain ⟨d, hd, hwithin, hscope⟩ := h
  exact ⟨d, hd, hwithin, hdefaults.trans hscope⟩

/-- The children of an element are read in its scope. -/
theorem Reads.child (h : S.Reads scope node) {c : Element} (hc : c ∈ node.children) :
    S.Reads scope c := by
  obtain ⟨d, hd, hwithin, hscope⟩ := h
  exact ⟨d, hd, hwithin.child hc, hscope⟩

/-- An association of the documents without `property-ref` names a target, or leaves it to a
backing class that does. -/
def Refers (S : Source) (reflection : Reflection) (target : String) : Prop :=
  ∃ scope node, S.Reads scope node ∧ node.IsAssociation ∧ node.attribute? "property-ref" = none ∧
    (scope.targetOf? node = some target ∨ scope.targetOf? node = none ∧
      ∃ className property, reflection.propertyType? className property = some target)

end Source

/-! ## What is retained -/

namespace Registry

/-- A registry that has the options of another, and all of its entities, references and
collections. -/
structure Retains (r r' : Registry) : Prop where
  options : r'.options = r.options
  entities : ∀ {name : String}, r.hasEntity name = true → r'.hasEntity name = true
  references : r.propertyReferences ⊆ r'.propertyReferences
  collections : ∀ {role : String} {c : Collection}, r.collection? role = some c →
    ∃ c', r'.collection? role = some c' ∧ c'.orphanDelete = c.orphanDelete

/-- A registry retains what it has. -/
theorem Retains.refl (r : Registry) : Retains r r :=
  ⟨rfl, id, fun _ h => h, fun {_ c} h => ⟨c, h, rfl⟩⟩

/-- What is retained twice is retained. -/
theorem Retains.trans {r r' r'' : Registry} (h : Retains r r') (h' : Retains r' r'') :
    Retains r r'' := by
  refine ⟨h'.options.trans h.options, h'.entities ∘ h.entities,
    List.Subset.trans h.references h'.references, fun hc => ?_⟩
  obtain ⟨c', hc', horphans⟩ := h.collections hc
  obtain ⟨c'', hc'', horphans'⟩ := h'.collections hc'
  exact ⟨c'', hc'', horphans'.trans horphans⟩

/-- Some table of a registry has a foreign key. -/
def Constrains (r : Registry) (k : ForeignKey) : Prop :=
  ∃ t ∈ r.tables.values, k ∈ t.foreignKeys.values

end Registry

/-! ## Traced values -/

section

variable (S : Source) (r : Registry)

/-- An association to a property has recorded it; one without names a target of the documents. -/
structure ToOne.Sourced (v : ToOne) : Prop where
  recorded : ∀ entity property, v.referencedEntity = some entity →
    v.referencedProperty = some property →
    { entity, property, unique := true } ∈ r.propertyReferences
  named : ∀ entity, v.referencedEntity = some entity → v.referencedProperty = none →
    S.Refers r.options.reflection entity

/-- What a value does with orphans is what an element says: an association to one entity does not
delete them, a collection does if the element asks for it.  References to any class are bound
whatever their element says. -/
def Value.OrphansAs (node : Element) : Value → Prop
  | .manyToOne _ | .oneToOne _ => node.deletesOrphans = false
  | .any _ => node.tag? = some .any
  | .collection role => ∃ c, r.collection? role = some c ∧ c.orphanDelete = node.deletesOrphans
  | .component _ | .dependant _ _ _ _ | .oneToMany _ | .simple _ => True

/-- A property has the cascade of an element, or the default, and a value that does with orphans
what the element says. -/
structure Property.BoundFrom (scope : Scope) (node : Element) (p : Property) : Prop where
  cascade : p.cascade = (node.attribute? "cascade").getD scope.defaults.cascade
  value : p.value.OrphansAs r node

/-- A property comes from an element of the documents, or is synthetic: then it cascades nothing
and is no collection. -/
def Property.Sourced (p : Property) : Prop :=
  p.cascade = "none" ∧ p.value.isCollection = false ∨
    ∃ scope node, S.Reads scope node ∧ p.BoundFrom r scope node

/-- A value is sourced, apart from the values inside it. -/
def Value.Sourced : Value → Prop
  | .manyToOne v => v.toOne.Sourced S r
  | .oneToOne v => v.toOne.Sourced S r
  | .component c => ∀ p ∈ c.properties, p.Sourced S r
  | .any _ | .collection _ | .dependant _ _ _ _ | .oneToMany _ | .simple _ => True

/-- A value and all values inside it are sourced. -/
def Value.Traced (v : Value) : Prop := ∀ part ∈ v.parts, part.Sourced S r

/-- A property is sourced, and its value is traced. -/
structure Property.Traced (p : Property) : Prop where
  value : p.value.Traced S r
  sourced : p.Sourced S r

/-! ## Traced registries -/

/-- What an entity stores is traced. -/
structure Entity.Traced (e : Entity) : Prop where
  properties : ∀ p ∈ e.allProperties, p.Traced S r
  keys : ∀ j ∈ e.joins, ∀ v, j.key = some v → v.Traced S r
  kind : ∀ v ∈ e.kind.values, v.Traced S r
  identifier : ∀ p, e.identifierProperty? = some p → p.Sourced S r

/-- What a collection stores is traced and is no collection itself.  An index that is a simple
value has a type. -/
structure Collection.Traced (c : Collection) : Prop where
  values : ∀ v ∈ c.values, v.Traced S r ∧ v.isCollection = false
  typed : ∀ v, c.index = some (.simple v) → v.typeName.isSome

/-- A foreign key is to a registered entity, or was made for an association without
`property-ref`. -/
def ForeignKey.Traced (k : ForeignKey) : Prop :=
  r.hasEntity k.referencedEntity = true ∨
    k.referencedColumns = [] ∧ S.Refers r.options.reflection k.referencedEntity

/-- Everything that is stored in a registry is traced.  Entities and collections are stored under
their own names. -/
structure Registry.Traced : Prop where
  entities : ∀ name e, r.entity? name = some e → e.name = name ∧ e.Traced S r
  foreignKeys : ∀ k, r.Constrains k → k.Traced S r
  collections : ∀ role c, r.collection? role = some c → c.role = role ∧ c.Traced S r
  passes : ∀ kind pass, .contents kind pass ∈ r.passes → S.Reads pass.scope pass.node
  waiting : ∀ pending ∈ r.waiting, S.documents pending.document

end

/-! ## What is traced stays so -/

section

variable {S : Source} {r r' : Registry} (h : r.Retains r')
include h

/-- A recorded reference stays recorded. -/
theorem ToOne.Sourced.mono {v : ToOne} (hv : v.Sourced S r) : v.Sourced S r' where
  recorded entity property hentity hproperty :=
    h.references (hv.recorded entity property hentity hproperty)
  named entity hentity hproperty := by
    rw [h.options]
    exact hv.named entity hentity hproperty

/-- A collection does with orphans later what it does now. -/
theorem Value.OrphansAs.mono {node : Element} {v : Value} (hv : v.OrphansAs r node) :
    v.OrphansAs r' node := by
  cases v with
  | collection role =>
    obtain ⟨c, hc, horphans⟩ := hv
    obtain ⟨c', hc', hkept⟩ := h.collections hc
    exact ⟨c', hc', hkept.trans horphans⟩
  | any | component | dependant | manyToOne | oneToMany | oneToOne | simple => exact hv

/-- A property stays as its element says. -/
theorem Property.BoundFrom.mono {scope : Scope} {node : Element} {p : Property}
    (hp : p.BoundFrom r scope node) : p.BoundFrom r' scope node :=
  ⟨hp.cascade, hp.value.mono h⟩

/-- The element that a property comes from stays one of the documents. -/
theorem Property.Sourced.mono {p : Property} (hp : p.Sourced S r) : p.Sourced S r' :=
  hp.imp_right fun ⟨scope, node, hnode, hbound⟩ => ⟨scope, node, hnode, hbound.mono h⟩

theorem Value.Sourced.mono {v : Value} (hv : v.Sourced S r) : v.Sourced S r' := by
  cases v with
  | manyToOne v | oneToOne v => exact ToOne.Sourced.mono h hv
  | component c => exact fun p hp => (hv p hp).mono h
  | any | collection | dependant | oneToMany | simple => trivial

/-- A value stays traced with all values inside it. -/
theorem Value.Traced.mono {v : Value} (hv : v.Traced S r) : v.Traced S r' :=
  fun part hpart => (hv part hpart).mono h

theorem Property.Traced.mono {p : Property} (hp : p.Traced S r) : p.Traced S r' :=
  ⟨hp.value.mono h, hp.sourced.mono h⟩

/-- What an entity stores stays traced. -/
theorem Entity.Traced.mono {e : Entity} (he : e.Traced S r) : e.Traced S r' where
  properties p hp := (he.properties p hp).mono h
  keys j hj v hv := (he.keys j hj v hv).mono h
  kind v hv := (he.kind v hv).mono h
  identifier p hp := (he.identifier p hp).mono h

/-- So does what a collection stores. -/
theorem Collection.Traced.mono {c : Collection} (hc : c.Traced S r) : c.Traced S r' where
  values v hv := (hc.values v hv).imp_left (·.mono h)
  typed := hc.typed

/-- The entity that a foreign key references stays registered. -/
theorem ForeignKey.Traced.mono {k : ForeignKey} (hk : k.Traced S r) : k.Traced S r' := by
  refine hk.imp h.entities fun hrefers => ?_
  rw [h.options]
  exact hrefers

end

/-! ## Building traced values -/

section

variable {S : Source} {r : Registry}

/-- A value that holds no other is traced if it is sourced. -/
theorem Value.traced_of_sourced {v : Value} (hparts : v.parts = [v]) (h : v.Sourced S r) :
    v.Traced S r := by
  intro part hpart
  rw [hparts, List.mem_singleton] at hpart
  exact hpart ▸ h

/-- A simple value is no association, so nothing has to be known of its element. -/
theorem Value.traced_simple (v : SimpleValue) : (Value.simple v).Traced S r :=
  Value.traced_of_sourced rfl trivial

/-- An association to any class names no target. -/
theorem Value.traced_any (v : AnyValue) : (Value.any v).Traced S r :=
  Value.traced_of_sourced rfl trivial

/-- What a collection stores is traced with the collection and not with the value that stands for
it. -/
theorem Value.traced_collection (role : String) : (Value.collection role).Traced S r :=
  Value.traced_of_sourced rfl trivial

theorem Value.traced_oneToMany (v : OneToMany) : (Value.oneToMany v).Traced S r :=
  Value.traced_of_sourced rfl trivial

/-- A component is traced if its members are. -/
theorem Value.traced_component_iff {c : Component} :
    (Value.component c).Traced S r ↔ ∀ p ∈ c.properties, p.Traced S r := by
  simp only [Value.Traced, Value.parts_component, List.forall_mem_cons, List.forall_mem_flatMap]
  constructor
  · rintro ⟨hsourced, hparts⟩
    exact fun p hp => ⟨hparts p hp, hsourced p hp⟩
  · intro hmembers
    exact ⟨fun p hp => (hmembers p hp).sourced, fun p hp => (hmembers p hp).value⟩

/-- A dependent key is traced if what it refers to is. -/
theorem Value.traced_dependant (base : SimpleValue) {wrapped : Value}
    (hwrapped : wrapped.Traced S r) (nullable updatable : Bool) :
    (Value.dependant base wrapped nullable updatable).Traced S r := by
  intro part hpart
  rw [Value.parts] at hpart
  rcases List.mem_cons.mp hpart with rfl | hinner
  · trivial
  · exact hwrapped part hinner

/-- The settings of a property do not show where it comes from, apart from its cascade. -/
theorem Property.Traced.congr {p p' : Property} (h : p.Traced S r) (hvalue : p'.value = p.value)
    (hcascade : p'.cascade = p.cascade) : p'.Traced S r := by
  refine ⟨hvalue ▸ h.value, ?_⟩
  rcases h.sourced with ⟨hnone, hcollection⟩ | ⟨scope, node, hnode, hbound⟩
  · exact .inl ⟨hcascade.trans hnone, hvalue ▸ hcollection⟩
  · exact .inr ⟨scope, node, hnode, hcascade.trans hbound.cascade, hvalue ▸ hbound.value⟩

end

end ObjectMapping
