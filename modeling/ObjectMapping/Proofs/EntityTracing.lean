import ObjectMapping.Proofs.PropertyTracing
import ObjectMapping.Proofs.Stocking

/-!
# Tracing entities

An entity is traced from its header to its registration, and stays so while its body is bound: its
properties and those of its joins are read from elements, in scopes that have the defaults of their
document, and the shadow of a composite identifier is synthetic.  The key of a secondary table
refers to the identifier of an entity that is registered by then.  So what is traced is a stock that
is kept, and the walk over a document keeps it.
-/

namespace ObjectMapping

open Binding Registry

variable {S : Source} {r : Registry} {scope : Scope} {node : Element}

/-! ## Stored values -/

/-- An entity is traced if the values and the properties that it stores are. -/
theorem Entity.traced_iff {e : Entity} :
    e.Traced S r ↔ e.Stores (Value.Traced S r) (Property.Traced S r) (Property.Traced S r) := by
  constructor
  · exact fun h => ⟨h.properties, h.keys, h.kind, fun p hp =>
      ⟨h.kind p.value (value_mem_kind_values hp), h.identifier p hp⟩⟩
  · exact fun h => ⟨h.properties, h.keys, h.kind, fun p hp => (h.identifier p hp).sourced⟩

/-- Every value that a traced entity stores is traced. -/
theorem Entity.Traced.value {e : Entity} (h : e.Traced S r) {v : Value} (hv : v ∈ e.values) :
    v.Traced S r := by
  have hstores : e.Stores (Value.Traced S r)
      (fun p => p.value.Traced S r ∧ p.Traced S r) (Property.Traced S r) :=
    (traced_iff.mp h).imp (fun _ => id) (fun _ hp => ⟨hp.value, hp⟩) fun _ _ => id
  exact hstores.value hv

namespace Registry.Traced

/-- What is stored along a chain of superclasses is traced. -/
theorem ancestor (hr : r.Traced S) {name : String} {e : Entity} (he : r.Ancestor name e) :
    e.Traced S r := by
  obtain ⟨name', hname⟩ := he.registered
  exact (hr.entities name' e hname).2

/-- The identifier of a traced entity is traced. -/
theorem identifierValue (hr : r.Traced S) {name : String} {v : Value}
    (h : r.identifierValue? name = some v) : v.Traced S r := by
  obtain ⟨e, hancestor, hv⟩ := stored_of_identifierValue? h
  exact (hr.ancestor hancestor).value hv

/-- So is a property that a reference resolves to. -/
theorem referencedProperty (hr : r.Traced S) {entity path : String} {p : Property}
    (h : r.referencedProperty? entity path = some p) : p.value.Traced S r := by
  obtain ⟨e, hancestor, ⟨v, hv, hparts⟩, -⟩ := stored_of_referencedProperty? h
  exact fun part hpart => (hr.ancestor hancestor).value hv part (hparts hpart)

end Registry.Traced

/-! ## Entities -/

/-- Members that are bound as associations to one entity are such associations. -/
theorem Tag.isAssociation_of_asMember {tag : Tag} (h : tag.asMember = .manyToOne) :
    tag.isAssociation := by
  cases tag <;> first | rfl | cases h

/-- Only an `any` becomes one as a member. -/
theorem Tag.eq_any_of_asMember {tag : Tag} (h : tag.asMember = .any) : tag = .any := by
  cases tag <;> first | rfl | cases h

/-- A simple member of a class, a join or a component is read from its element. -/
theorem upholds_bindMember {tag member : Tag} (htag : node.tag? = some tag)
    (hmember : member = tag ∨ member = tag.asMember) (scope : Scope) (site : ColumnSite) :
    Upholds S.tracing (bindSimpleMember scope site node member) r fun o r' =>
      ∀ v, o = some v → v.ReadFrom S r' scope node := by
  refine upholds_bindSimpleMember scope site (fun hassociation => ?_) fun hany => ?_
  · refine Element.isAssociation_of_tag htag ?_
    rcases hmember with rfl | rfl
    · exact hassociation ▸ rfl
    · exact Tag.isAssociation_of_asMember hassociation
  · rcases hmember with rfl | rfl
    · exact hany ▸ htag
    · rw [htag, Tag.eq_any_of_asMember hany]

/-- The key of a secondary table refers to the identifier of a registered entity. -/
theorem upholds_bindDependantKey (table : TableId) (referenced path : String) (node : Element) :
    Upholds S.tracing (bindDependantKey table referenced path node) r fun v r' =>
      v.Traced S r' := by
  unfold bindDependantKey
  refine .of_invariant fun hr => .get_bind (.require_bind fun identifier hidentifier => ?_)
  have hwrapped := Registry.Traced.identifierValue hr hidentifier
  obtain ⟨e, hancestor, -⟩ := stored_of_identifierValue? hidentifier
  refine .bind (steady_bindSimpleValue _ _).traces fun v r₁ hkeeps _ => ?_
  refine .bind (steady_changeTable _ (f := (·.setPrimaryKey _)) (fun _ => rfl)
    fun t => .setPrimaryKey t _).traces fun _ r₂ hkeeps' _ => ?_
  have hentity := hkeeps'.entities (hkeeps.entities hancestor.hasEntity)
  refine .bind (.write fun hr => hr.constrainTo _ (.inl hentity)) fun _ r₃ hkeeps'' _ => .pure ?_
  exact Value.traced_dependant _ (((hwrapped.mono hkeeps).mono hkeeps').mono hkeeps'') _ _

/-- What is traced, as far as it is bound for elements of the documents. -/
def Source.stock (S : Source) : Stock where
  upkeep := S.tracing
  reads := S.Reads
  value r _ v := v.Traced S r
  property r _ p := p.Traced S r
  suits r _ scope node v := v.ReadFrom S r scope node
  bound r _ _ _ p := p.Traced S r
  entity _ := True

/-- Whatever is bound for the elements of the documents is traced. -/
theorem kept_stock (S : Source) : S.stock.Kept where
  child hnode hc := hnode.child hc
  descend hnode hc := (hnode.child hc).congr rfl
  member hnode _ hc := (hnode.child hc).congr rfl
  value_later hkeeps hv := hv.mono hkeeps
  property_later hkeeps hp := hp.mono hkeeps
  suits_later hkeeps hv := hv.mono hkeeps
  bound_later hkeeps hp := hp.mono hkeeps
  stored _ hp := ⟨hp.value, hp⟩
  restrict hp _ _ := hp.congr rfl rfl
  simple v := Value.traced_simple v
  suits_simple _ _ := ⟨trivial, trivial⟩
  component hc := Value.traced_component_iff.mpr hc.described
  suits_component _ _ _ hmembers := .component fun p hp => by
    obtain ⟨_, _, hbound⟩ := hmembers p hp
    exact hbound
  component_congr hc hproperties _ := .component (hproperties ▸ hc.described)
  shadow hc := ⟨hc, .inl ⟨rfl, rfl⟩⟩
  bindProperty hnode _ hv hvalue hp := Property.traced_of_bindProperty hnode hvalue hv.orphans hp
  createProperty hnode hv className := upholds_createProperty hnode hv className _
  bindCollection hnode _ path := upholds_bindCollection hnode _ _
  bindOneToOne _ htag site owner :=
    upholds_bindOneToOne _ site owner (Element.isAssociation_of_tag htag rfl)
  bindSimpleMember _ htag hmember := upholds_bindMember htag hmember _
  bindDependantKey _ := upholds_bindDependantKey
  entity_congr _ _ _ := trivial
  header _ _ _ := trivial
  steady h hr := h.tracing hr
  addDenormalizedTable hadd hr := Registry.Traced.addDenormalizedTable hr hadd
  addEntity he hadd hr := Registry.Traced.addEntity hr (Entity.traced_iff.mpr he.stores) hadd
  modifyEntity _ _ hf hr := Registry.Traced.modifyEntity hr fun e hname he => by
    have hchanged := hf e ⟨hname, trivial, Entity.traced_iff.mp he⟩
    exact ⟨hchanged.name, Entity.traced_iff.mpr hchanged.stores⟩

/-! ## Documents -/

/-- A document of the source is bound element by element, with its own defaults. -/
theorem upholds_bindRoot {document : Document} (hdocument : S.documents document)
    (metas : MetaMap) :
    Upholds S.tracing (bindRoot document.root metas) r fun _ _ => True :=
  (kept_stock S).walked.upholds_bindRoot metas
    (fun _ hc => ⟨document, hdocument, .child (.self _) hc, rfl⟩)
    (.of_writes _ fun h hr => h.tracing hr)

end ObjectMapping
