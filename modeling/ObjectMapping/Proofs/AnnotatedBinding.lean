import ObjectMapping.Proofs.AnnotatedRegistry
import ObjectMapping.Proofs.Grounding
import ObjectMapping.Proofs.Stocking

/-!
# Binding annotated objects

Every object that is bound for an element takes the meta attributes of that element, merged over
those that its scope hands down.  The scope itself is made on the way: it is passed on by bodies,
joins and natural identifiers, the public tags of a class are written over it for what is below the
class, and a component passes on what is inheritable of its own.  So the walk over a document meets
each element in the scope that the elements around it make, and whatever is bound is annotated.
-/

namespace ObjectMapping

open Binding Registry

variable {documents : Document → Prop} {r : Registry} {d : Document} {scope : Scope}
  {node : Element}

/-! ## Quiet computations -/

/-- A quiet computation keeps a registry annotated, and yields what it yields. -/
theorem annotates_yields {α : Type} {m : Binding α} (hm : m.Quiet) {P : α → Prop}
    (hyields : Yields m P) : Upholds (annotating documents) m r fun a _ => P a :=
  .of_makes hm hyields fun _ _ hwrite hr => Registry.Annotated.of_alike hr hwrite.alike

/-- A quiet computation keeps a registry annotated. -/
theorem annotates_quiet {α : Type} {m : Binding α} (hm : m.Quiet) :
    Upholds (annotating documents) m r fun _ _ => True :=
  annotates_yields hm (P := fun _ => True) fun _ _ _ _ => trivial

/-- So does a steady one. -/
theorem annotates_steady {α : Type} {m : Binding α} (hm : m.Steady) :
    Upholds (annotating documents) m r fun _ _ => True := annotates_quiet hm.quiet

/-! ## Properties -/

/-- A value may be that of a property of an element: if it is a component, it has the meta
attributes of the element. -/
structure Value.Suits (documents : Document → Prop) (scope : Scope) (node : Element)
    (v : Value) : Prop where
  annotated : v.Annotated documents
  metas : ∀ c, v = .component c → c.metas = mergeMetas node scope.metas false

namespace Value

/-- A value that holds no other and is no component suits any element. -/
theorem suits_of_single {v : Value} (hparts : v.parts = [v]) (hv : v.component? = none) :
    v.Suits documents scope node := by
  refine ⟨annotated_of_single hparts hv, ?_⟩
  rintro c rfl
  cases hv

/-- Reflection does not change which elements a value suits. -/
theorem Suits.reflected {v : Value} (h : v.Suits documents scope node) (reflection : Reflection)
    (className property : String) :
    (v.reflected reflection className property).Suits documents scope node := by
  refine ⟨h.annotated.reflected reflection className property, fun c hc => h.metas c ?_⟩
  cases v <;> first | exact hc | cases hc

end Value

/-- A simple member is no component. -/
theorem annotates_bindSimpleMember (scope : Scope) (site : ColumnSite) (node : Element)
    (tag : Tag) : Upholds (annotating documents) (bindSimpleMember scope site node tag) r
      fun o _ => ∀ v, o = some v → v.Suits documents scope node := by
  refine annotates_yields (steady_bindSimpleMember scope site node tag).quiet
    (P := fun o => ∀ v, o = some v → v.Suits documents scope node) ?_
  have hsingle : ∀ v : Value, v.parts = [v] → v.component? = none →
      ∀ w, some v = some w → w.Suits documents scope node := by
    rintro v hparts hv w ⟨⟩
    exact Value.suits_of_single hparts hv
  cases tag with
  | manyToOne | any | property => exact .next fun v => .pure (hsingle _ rfl rfl)
  | _ => exact .pure fun _ hnone => absurd hnone.symm (Option.some_ne_none _)

/-- An element accounts for the property that is bound for it. -/
theorem Property.accountedFor_of_bindProperty {root : Element} (hnode : root.Hands scope.metas node)
    {value : Value} {name : String} {p : Property} (hname : node.attribute? "name" = some name)
    (hvalue : value.Suits documents scope node) (h : bindProperty scope node value name = .ok p) :
    p.value.Annotated documents ∧ p.AccountedFor root node := by
  have hbound := boundAs_of_bindProperty h
  obtain rfl := hbound.value
  refine ⟨hvalue.annotated, hbound.name ▸ hname, hbound.metas ▸ hnode.accountsFor, ?_⟩
  exact hbound.metas ▸ hvalue.metas

namespace Registry.Annotated

variable (hr : r.Annotated documents)
include hr

/-- A foreign key may be put off. -/
theorem queuePropertyRef (v : ManyToOne) :
    (annotating documents).Advances r (r.queuePropertyRef v) := by
  unfold Registry.queuePropertyRef
  split
  · split
    · exact .refl hr
    · exact hr.addPass nofun
  · exact .refl hr

/-- What a value refers to may be recorded. -/
theorem recordReferences (owner : String) (isManyToMany : Bool) (v : Value) :
    (annotating documents).Advances r (r.recordReferences owner isManyToMany v) := by
  have hrefer : ∀ toOne, (annotating documents).Advances r (r.referTo toOne) :=
    fun toOne => hr.of_alike (quietWrites_referTo r toOne).alike
  unfold Registry.recordReferences
  split
  · split
    · exact hrefer _
    · exact (hrefer _).trans ((hrefer _).invariant.queuePropertyRef _)
  · exact hrefer _
  · split
    · exact hr.of_alike (QuietWrite.propertyReference r _).alike
    · exact .refl hr
  · exact .refl hr

end Registry.Annotated

/-- An element accounts for the property of a value that suits it. -/
theorem annotates_createProperty (hnode : d.Reaches scope node) {value : Value}
    (hvalue : value.Suits documents scope node) (className : Option String) (owner : String) :
    Upholds (annotating documents) (createProperty scope node value className owner) r
      fun p _ => p.value.Annotated documents ∧ p.AccountedFor d.root node := by
  have hfinish : ∀ (known : Value) (name : String), node.attribute? "name" = some name →
      known.Suits documents scope node → Upholds (annotating documents) (do
        modify (·.recordReferences owner (node.tag? = some .manyToMany) known)
        modify (·.constrainValue known)
        Binding.ofExcept (bindProperty scope node known name)) r
          fun p _ => p.value.Annotated documents ∧ p.AccountedFor d.root node := by
    intro known name hname hknown
    refine .bind (.write fun hr => Registry.Annotated.recordReferences hr owner _ known)
      fun _ r₁ _ _ => ?_
    refine .bind (.write fun hr => Registry.Annotated.of_alike hr
      (quietWrites_constrainValue r₁ known).alike) fun _ r₂ _ _ => .ofExcept fun p hp => ?_
    exact Property.accountedFor_of_bindProperty hnode.hands hname hknown hp
  unfold createProperty
  refine .ofExcept_bind fun name hname => .get_bind ?_
  have hnamed := attribute?_of_propertyName hname
  cases className with
  | none => exact hfinish value name hnamed hvalue
  | some className => exact hfinish _ name hnamed (hvalue.reflected _ className name)

/-! ## Collections -/

/-- A collection is bound with the meta attributes of its element. -/
theorem annotates_bindCollection (hd : documents d) (hnode : d.Reaches scope node)
    {kind : CollectionKind} (htag : node.tag? = some (.collection kind)) (path : String)
    (owner : Owner) :
    Upholds (annotating documents)
      (bindCollection scope node kind (qualify path ((node.attribute? "name").getD "")) owner) r
      fun v _ => v.Suits documents scope node := by
  unfold bindCollection
  refine .ofExcept_bind fun batchSize _ => .optional (fun _ => ?_) fun r₁ _ => ?_
  · exact .write fun hr => Registry.Annotated.modifyEntity hr _ fun e hname he => ⟨hname,
      he.congr rfl rfl ⟨he.stored.properties, he.stored.keys, he.stored.kind, he.stored.identifier⟩⟩
  · refine .bind (annotates_yields (steady_openElement scope node _ owner).quiet
      (yields_openElement scope node _ owner)) fun ⟨element, table⟩ r₂ _ helement => ?_
    refine .bind (annotates_steady (.mapM steady_bindFilterUse _)) fun filters r₃ _ _ => ?_
    split
    refine .bind (P := fun _ _ => True) (.register fun r₄ hr hadd =>
      ⟨Registry.Annotated.addCollection hr ?_ hadd, trivial⟩) fun _ r₄ _ _ => ?_
    · refine ⟨⟨d, node, hd, hnode.hands.isBelow, htag, ⟨path, rfl⟩, hnode.hands.accountsFor⟩,
        fun v hv => ?_⟩
      rcases Collection.mem_values.mp hv with h | h | h | h
      · cases h
      · obtain ⟨target, rfl⟩ := helement v h
        exact Value.annotated_of_single rfl rfl
      · cases h
      · cases h
    · refine .bind (.write fun hr => Registry.Annotated.addPass hr ?_) fun _ r₅ _ _ => .pure ?_
      · rintro _ _ ⟨⟩
        exact ⟨d, hd, hnode⟩
      · exact Value.suits_of_single rfl rfl

/-- The identifier that the key of a secondary table refers to is stored. -/
theorem annotates_bindDependantKey (table : TableId) (referenced path : String) (node : Element) :
    Upholds (annotating documents) (bindDependantKey table referenced path node) r
      fun v _ => v.Annotated documents := by
  unfold bindDependantKey
  refine .of_invariant fun hr => .get_bind (.require_bind fun identifier hidentifier => ?_)
  obtain ⟨e, hancestor, hstored⟩ := stored_of_identifierValue? hidentifier
  obtain ⟨name, hname⟩ := hancestor.registered
  have hwrapped := (hr.entities name e hname).stored.value hstored
  refine .bind (annotates_steady (steady_bindSimpleValue _ _)) fun v r₁ _ _ => ?_
  refine .bind (annotates_quiet (quiet_changeTable _ fun t => .setPrimaryKey t _))
    fun _ r₂ _ _ => ?_
  refine .bind (.write fun hr => Registry.Annotated.of_alike hr
    (quietWrites_constrainTo r₂ _ _).alike) fun _ r₃ _ _ => .pure ?_
  exact Value.annotated_dependant_iff.mpr hwrapped

/-! ## Entities -/

/-- What is annotated, as far as it is bound for elements of a document. -/
def annotatedStock (documents : Document → Prop) (d : Document) : Stock where
  upkeep := annotating documents
  reads := d.Reaches
  value _ _ v := v.Annotated documents
  property _ _ p := p.value.Annotated documents ∧ p.Annotated documents
  suits _ _ scope node v := v.Suits documents scope node
  bound _ _ _ node p := p.value.Annotated documents ∧ p.AccountedFor d.root node
  entity e := Accounted documents e.AccountedFor

/-- Whatever is bound for the elements of a document is annotated. -/
theorem kept_annotatedStock (hd : documents d) : (annotatedStock documents d).Kept where
  child hnode hc := hnode.child hc
  descend hnode hc := hnode.descend hc
  member hnode hcomposite hc := hnode.member hcomposite hc
  value_later _ hv := hv
  property_later _ hp := hp
  suits_later _ hv := hv
  bound_later _ hp := hp
  stored hnode hp := ⟨hp.1, hp.1, .inr ⟨d, _, hd, hnode.hands.isBelow, hp.2⟩⟩
  restrict hp _ _ := ⟨hp.1, hp.2.name, hp.2.metas, hp.2.component⟩
  simple _ := Value.annotated_of_single rfl rfl
  suits_simple _ _ := Value.suits_of_single rfl rfl
  component hc := hc.annotated
  suits_component {_ _ scope node c} hnode hcomposite hmetas hmembers := by
    have hown : c.AccountedFor d.root node := by
      refine ⟨hcomposite, hmetas ▸ hnode.hands.accountsFor, fun p hp => ?_⟩
      obtain ⟨child, hchild, -, hbound⟩ := hmembers p hp
      exact ⟨child, hchild, hbound⟩
    refine ⟨Value.annotated_component_iff.mpr ⟨⟨d, node, hd, hnode.hands.isBelow, hown⟩, ?_⟩, ?_⟩
    · intro p hp
      obtain ⟨child, -, hvalue, -⟩ := hmembers p hp
      exact hvalue
    · rintro _ ⟨⟩
      exact hmetas
  component_congr {_ _ scope node c c'} hc hproperties hmetas := by
    obtain ⟨hown, hvalues⟩ := Value.annotated_component_iff.mp hc.annotated
    refine ⟨Value.annotated_component_iff.mpr ⟨hown.mono fun root node' h => ?_, ?_⟩, ?_⟩
    · exact ⟨h.composite, hmetas ▸ h.metas, hproperties ▸ h.members⟩
    · exact hproperties ▸ hvalues
    · rintro _ ⟨⟩
      exact hmetas.trans (hc.metas c rfl)
  shadow hc := ⟨hc, .inl ⟨rfl, rfl⟩⟩
  bindProperty hnode hname hv _ hp :=
    Property.accountedFor_of_bindProperty hnode.hands hname hv hp
  createProperty hnode hv className := annotates_createProperty hnode hv className _
  bindCollection hnode htag := annotates_bindCollection hd hnode htag
  bindOneToOne {_ scope node} _ _ _ _ := annotates_yields (steady_bindOneToOne _ _ _ _).quiet
    (P := fun v => (Value.oneToOne v).Suits documents scope node)
    fun _ _ _ _ => Value.suits_of_single rfl rfl
  bindSimpleMember _ _ _ _ := annotates_bindSimpleMember _ _ _ _
  bindDependantKey _ := annotates_bindDependantKey
  entity_congr {e e'} he hname hmetas := he.mono fun root node h => by
    refine ⟨?_, hmetas ▸ h.metas⟩
    rw [hname]
    exact h.name
  header {scope node e} hnode hname hmetas := by
    refine ⟨d, node, hd, hnode.hands.isBelow, ?_, hmetas ▸ hnode.hands.accountsFor⟩
    rw [← hnode.defaults]
    exact hname
  steady h hr := Registry.Annotated.of_alike hr h.quietWrite.alike
  addDenormalizedTable hadd hr := by
    cases eq_of_addDenormalizedTable hadd
    exact Registry.Annotated.of_alike hr ⟨rfl, rfl, rfl, rfl⟩
  addEntity he hadd hr := Registry.Annotated.addEntity hr
    ⟨he.own, he.stores.imp (fun _ => id) (fun _ => id) fun _ _ => And.right⟩ hadd
  modifyEntity name _ hf hr := Registry.Annotated.modifyEntity hr name fun e hname he => by
    obtain ⟨hname', hown, hstores⟩ := hf e
      ⟨hname, he.own, he.stored.imp (fun _ => id) (fun _ => id) fun _ => And.intro⟩
    exact ⟨hname', hown, hstores.imp (fun _ => id) (fun _ => id) fun _ _ => And.right⟩

end ObjectMapping
