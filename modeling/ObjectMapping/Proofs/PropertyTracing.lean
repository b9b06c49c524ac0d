import ObjectMapping.Proofs.TracedWrites
import ObjectMapping.Proofs.ValueBinding

/-!
# Tracing properties

A value is read from an element if it does with orphans what the element says, an association has
the target and the property that the element names, and the members of a component are traced.
Every value that is bound for an element is read from it.  Once the references of the value are
recorded, it is traced; so its foreign keys may be made, and its property is traced as well.
-/

namespace ObjectMapping

open Binding Registry

variable {S : Source} {r : Registry} {scope : Scope} {node : Element}

/-! ## Steady computations -/

namespace Binding.Steady

variable {α : Type} {m : Binding α}

/-- A steady computation keeps a registry traced, and yields what it yields. -/
theorem upholds (hm : m.Steady) {P : α → Prop} (hyields : Yields m P) :
    Upholds S.tracing m r fun a _ => P a :=
  .of_makes hm hyields fun _ _ hwrite hr => hwrite.tracing hr

/-- What is steady keeps a registry traced. -/
theorem traces (hm : m.Steady) : Upholds S.tracing m r fun _ _ => True :=
  hm.upholds (P := fun _ => True) fun _ _ _ _ => trivial

end Binding.Steady

/-! ## Values that are read from elements -/

/-- An association has the target that an element names, or one that the backing class supplies
because the element names none; the property it refers to is that of the element. -/
structure ToOne.DescribedBy (reflection : Reflection) (scope : Scope) (node : Element)
    (v : ToOne) : Prop where
  target : v.referencedEntity = scope.targetOf? node ∨ scope.targetOf? node = none ∧
    ∀ entity, v.referencedEntity = some entity →
      ∃ className property, reflection.propertyType? className property = some entity
  property : v.referencedProperty = node.attribute? "property-ref"

/-- An element describes the associations and the members of a value. -/
def Value.DescribedBy (S : Source) (r : Registry) (scope : Scope) (node : Element) : Value → Prop
  | .manyToOne v => node.IsAssociation ∧ v.toOne.DescribedBy r.options.reflection scope node
  | .oneToOne v => node.IsAssociation ∧ v.toOne.DescribedBy r.options.reflection scope node
  | .component c => ∀ p ∈ c.properties, p.Traced S r
  | .any _ | .collection _ | .oneToMany _ | .simple _ => True
  | .dependant _ _ _ _ => False

/-- A value is described by an element, and does with orphans what the element says. -/
structure Value.ReadFrom (S : Source) (r : Registry) (scope : Scope) (node : Element)
    (v : Value) : Prop where
  described : v.DescribedBy S r scope node
  orphans : v.OrphansAs r node

namespace Value.ReadFrom

variable {v w : Value}

/-- A value stays one that was read from its element. -/
theorem mono {r' : Registry} (h : r.Retains r') (hv : v.ReadFrom S r scope node) :
    v.ReadFrom S r' scope node := by
  refine ⟨?_, hv.orphans.mono h⟩
  have hdescribed := hv.described
  cases v with
  | manyToOne v | oneToOne v =>
    refine ⟨hdescribed.1, ?_⟩
    rw [h.options]
    exact hdescribed.2
  | component c => exact fun p hp => (hdescribed p hp).mono h
  | dependant => exact hdescribed
  | any | collection | oneToMany | simple => trivial

theorem of_some (hv : v.ReadFrom S r scope node) (h : some v = some w) :
    w.ReadFrom S r scope node := Option.some.inj h ▸ hv

/-- A component is read from any element if its members are traced. -/
theorem component {c : Component} (h : ∀ p ∈ c.properties, p.Traced S r) :
    (Value.component c).ReadFrom S r scope node := ⟨h, trivial⟩

end Value.ReadFrom

/-- What the backing class knows of an association may supply its target. -/
theorem ToOne.DescribedBy.reflected {reflection : Reflection} {v : ToOne}
    (h : v.DescribedBy reflection scope node) (className property : String) :
    (v.reflected reflection className property).DescribedBy reflection scope node := by
  refine ⟨?_, h.property⟩
  unfold ToOne.reflected
  rcases h.target with htarget | ⟨hnone, hsupplied⟩
  · cases hnamed : scope.targetOf? node with
    | some entity => exact .inl (by rw [htarget, hnamed]; rfl)
    | none =>
      rw [hnamed] at htarget
      rw [htarget]
      exact .inr ⟨rfl, fun entity hentity => ⟨className, property, hentity⟩⟩
  · refine .inr ⟨hnone, fun entity hentity => ?_⟩
    rcases Option.or_eq_some_iff.mp hentity with hold | ⟨-, hnew⟩
    · exact hsupplied entity hold
    · exact ⟨className, property, hnew⟩

/-- What the backing class knows of a value names a target where the element does not. -/
theorem Value.ReadFrom.reflected {v : Value} (h : v.ReadFrom S r scope node)
    (className property : String) :
    (v.reflected r.options.reflection className property).ReadFrom S r scope node := by
  obtain ⟨hdescribed, horphans⟩ := h
  cases v with
  | manyToOne v | oneToOne v =>
    exact ⟨⟨hdescribed.1, hdescribed.2.reflected className property⟩, horphans⟩
  | any | collection | component | dependant | oneToMany | simple => exact ⟨hdescribed, horphans⟩

/-- An association that is described by an element is sourced once its reference is recorded. -/
theorem ToOne.DescribedBy.sourced {v : ToOne}
    (h : v.DescribedBy r.options.reflection scope node) (hnode : S.Reads scope node)
    (hassociation : node.IsAssociation)
    (hrecorded : ∀ entity property, v.referencedEntity = some entity →
      v.referencedProperty = some property →
      { entity, property, unique := true } ∈ r.propertyReferences) : v.Sourced S r := by
  refine ⟨hrecorded, fun entity hentity hproperty => ?_⟩
  refine ⟨scope, node, hnode, hassociation, h.property ▸ hproperty, ?_⟩
  rcases h.target with htarget | ⟨hnone, hsupplied⟩
  · exact .inl (htarget ▸ hentity)
  · exact .inr ⟨hnone, hsupplied entity hentity⟩

/-! ## Columns and associations -/

/-- An association to one entity is bound only if its element does not ask to delete orphans. -/
theorem yields_checkCascade (node : Element) (path : String) :
    Yields (checkCascade node path) fun _ => node.deletesOrphans = false := by
  refine .ite (fun _ => .throw _ _) fun hcascade => .pure ?_
  exact eq_false_of_ne_true hcascade

/-- An association is described by its element, which does not ask to delete orphans. -/
theorem yields_bindManyToOne (scope : Scope) (site : ColumnSite) (node : Element)
    (reflection : Reflection) :
    Yields (bindManyToOne scope site node) fun v =>
      node.deletesOrphans = false ∧ v.toOne.DescribedBy reflection scope node :=
  .next fun _ => .bind (yields_checkCascade _ _) fun _ horphans => .pure ⟨horphans, .inl rfl, rfl⟩

/-- A one-to-one deletes no orphans, and refers to what its element says. -/
theorem yields_bindOneToOne (scope : Scope) (site : ColumnSite) (owner : String) (node : Element)
    (reflection : Reflection) :
    Yields (bindOneToOne scope site owner node) fun v =>
      node.deletesOrphans = false ∧ v.toOne.DescribedBy reflection scope node :=
  .next fun _ => .bind (yields_checkCascade _ _) fun _ horphans => .pure ⟨horphans, .inl rfl, rfl⟩

/-- A many-to-one is read from its element. -/
theorem upholds_bindManyToOne (scope : Scope) (site : ColumnSite) {node : Element}
    (hassociation : node.IsAssociation) :
    Upholds S.tracing (bindManyToOne scope site node) r fun v r' =>
      (Value.manyToOne v).ReadFrom S r' scope node := by
  refine ((steady_bindManyToOne scope site node).upholds
    (yields_bindManyToOne scope site node r.options.reflection)).mono fun v r' hkeeps hv => ?_
  refine ⟨⟨hassociation, ?_⟩, hv.1⟩
  rw [hkeeps.options]
  exact hv.2

/-- So is a one-to-one. -/
theorem upholds_bindOneToOne (scope : Scope) (site : ColumnSite) (owner : String) {node : Element}
    (hassociation : node.IsAssociation) :
    Upholds S.tracing (bindOneToOne scope site owner node) r fun v r' =>
      (Value.oneToOne v).ReadFrom S r' scope node := by
  refine ((steady_bindOneToOne scope site owner node).upholds
    (yields_bindOneToOne scope site owner node r.options.reflection)).mono fun v r' hkeeps hv => ?_
  refine ⟨⟨hassociation, ?_⟩, hv.1⟩
  rw [hkeeps.options]
  exact hv.2

/-- A simple member of a class, a join or a component is read from its element. -/
theorem upholds_bindSimpleMember (scope : Scope) (site : ColumnSite) {node : Element} {tag : Tag}
    (hassociation : tag = .manyToOne → node.IsAssociation)
    (hany : tag = .any → node.tag? = some .any) :
    Upholds S.tracing (bindSimpleMember scope site node tag) r fun o r' =>
      ∀ v, o = some v → v.ReadFrom S r' scope node := by
  cases tag with
  | manyToOne =>
    exact .bind (upholds_bindManyToOne scope site (hassociation rfl)) fun v r' _ hv =>
      .pure fun _ => hv.of_some
  | any =>
    refine .bind (steady_bindAny scope site node).traces fun v r' _ _ => .pure fun w hw => ?_
    cases hw
    exact ⟨trivial, hany rfl⟩
  | property =>
    refine .bind (steady_bindSimpleValue site node).traces fun v r' _ _ => .pure fun w hw => ?_
    cases hw
    exact ⟨trivial, trivial⟩
  | _ => exact .pure fun _ hsome => by cases hsome

/-! ## Properties -/

/-- Recording the references of a value that is read from an element leaves it traced. -/
theorem Registry.Traced.recordReferences (hr : r.Traced S) (hnode : S.Reads scope node)
    (owner : String) (isManyToMany : Bool) {v : Value} (hv : v.ReadFrom S r scope node) :
    S.tracing.Advances r (r.recordReferences owner isManyToMany v) ∧
      v.Traced S (r.recordReferences owner isManyToMany v) := by
  obtain ⟨hdescribed, -⟩ := hv
  have hreferred : ∀ toOne : ToOne, node.IsAssociation →
      toOne.DescribedBy r.options.reflection scope node →
      S.tracing.Advances r (r.referTo toOne) ∧ toOne.Sourced S (r.referTo toOne) := by
    intro toOne hassociation hto
    obtain ⟨hadvances, hrecorded⟩ := hr.referTo toOne
    rw [← hadvances.keeps.options] at hto
    exact ⟨hadvances, hto.sourced hnode hassociation hrecorded⟩
  cases v with
  | manyToOne m =>
    obtain ⟨hadvances, hsourced⟩ := hreferred m.toOne hdescribed.1 hdescribed.2
    have htraced := Value.traced_of_sourced (v := .manyToOne m) rfl hsourced
    unfold Registry.recordReferences
    dsimp only
    split
    · exact ⟨hadvances, htraced⟩
    · have hqueued := hadvances.invariant.queuePropertyRef m
      exact ⟨hadvances.trans hqueued, htraced.mono hqueued.keeps⟩
  | oneToOne m =>
    obtain ⟨hadvances, hsourced⟩ := hreferred m.toOne hdescribed.1 hdescribed.2
    exact ⟨hadvances, Value.traced_of_sourced (v := .oneToOne m) rfl hsourced⟩
  | collection role =>
    refine ⟨?_, Value.traced_collection role⟩
    unfold Registry.recordReferences
    dsimp only
    split
    · exact hr.addPropertyReference _
    · exact hr.advances
  | component c => exact ⟨hr.advances, Value.traced_component_iff.mpr hdescribed⟩
  | any v => exact ⟨hr.advances, Value.traced_any v⟩
  | oneToMany v => exact ⟨hr.advances, Value.traced_oneToMany v⟩
  | simple v => exact ⟨hr.advances, Value.traced_simple v⟩
  | dependant => exact hdescribed.elim

/-- A property of a traced value is traced, if the value does with orphans what its element
says. -/
theorem Property.traced_of_bindProperty (hnode : S.Reads scope node) {value : Value}
    {name : String} {p : Property} (hvalue : value.Traced S r) (horphans : value.OrphansAs r node)
    (h : bindProperty scope node value name = .ok p) : p.Traced S r := by
  have hbound := boundAs_of_bindProperty h
  refine ⟨hbound.value ▸ hvalue, .inr ⟨scope, node, hnode, hbound.cascade, ?_⟩⟩
  exact hbound.value ▸ horphans

/-- The property of a value that is read from an element is traced. -/
theorem upholds_createProperty (hnode : S.Reads scope node) {value : Value}
    (hvalue : value.ReadFrom S r scope node) (className : Option String) (owner : String) :
    Upholds S.tracing (createProperty scope node value className owner) r fun p r' =>
      p.Traced S r' := by
  have hfinish : ∀ (known : Value) (name : String), known.ReadFrom S r scope node →
      Upholds S.tracing (do
        modify (·.recordReferences owner (node.tag? = some .manyToMany) known)
        modify (·.constrainValue known)
        Binding.ofExcept (bindProperty scope node known name)) r fun p r' => p.Traced S r' := by
    intro known name hknown
    have hrecord : Upholds S.tracing
        (modify (·.recordReferences owner (node.tag? = some .manyToMany) known)) r
        fun _ r' => known.Traced S r' :=
      .modify fun hr => hr.recordReferences hnode owner _ hknown
    refine .bind hrecord fun _ r₁ hkeeps htraced => ?_
    refine .bind (.write fun hr => hr.constrainValue known htraced) fun _ r₂ hkeeps' _ => ?_
    refine .ofExcept fun p hp => Property.traced_of_bindProperty hnode (htraced.mono hkeeps') ?_ hp
    exact (hknown.orphans.mono hkeeps).mono hkeeps'
  unfold createProperty
  refine .ofExcept_bind fun name _ => .get_bind ?_
  cases className with
  | none => exact hfinish value name hvalue
  | some className => exact hfinish _ name (hvalue.reflected className name)

/-! ## Collections -/

/-- A collection is registered with what its element says about orphans, and its pass is queued
with that element. -/
theorem upholds_enlist (hnode : S.Reads scope node) {c : Collection} (hc : c.Traced S r)
    (horphans : c.orphanDelete = node.deletesOrphans) (kind : PassKind) :
    Upholds S.tracing (do
      Binding.register (·.addCollection c)
      modify (·.addPass (.contents kind { role := c.role, node, scope }))
      return Value.collection c.role) r fun v r' => v.ReadFrom S r' scope node := by
  have hadd : Upholds S.tracing (Binding.register (·.addCollection c)) r fun _ r' =>
      r'.collection? c.role = some c := .register fun r' hr hadd => hr.addCollection hc hadd
  refine .bind hadd fun _ r₁ _ hfound => ?_
  refine .bind (.write fun hr => hr.addContents kind hnode) fun _ r₂ hkeeps _ => .pure ?_
  have hregistered : (Value.collection c.role).OrphansAs r₁ node := ⟨c, hfound, horphans⟩
  exact ⟨trivial, hregistered.mono hkeeps⟩

/-- A collection deletes orphans if its element asks for it. -/
theorem upholds_bindCollection (hnode : S.Reads scope node) (kind : CollectionKind) (role : String)
    (owner : Owner) :
    Upholds S.tracing (bindCollection scope node kind role owner) r fun v r' =>
      v.ReadFrom S r' scope node := by
  unfold bindCollection
  refine .ofExcept_bind fun batchSize _ => .optional (fun _ => ?_) fun r₁ _ => ?_
  · exact .write fun hr => hr.modifyEntity fun e hname he =>
      ⟨hname, he.properties, he.keys, he.kind, he.identifier⟩
  · refine .bind ((steady_openElement scope node role owner).upholds
      (yields_openElement scope node role owner)) fun ⟨element, table⟩ r₂ _ helement => ?_
    refine .bind (Steady.traces (.mapM steady_bindFilterUse _)) fun filters r₃ _ _ => ?_
    split
    refine upholds_enlist hnode ⟨fun v hv => ?_, fun _ h => by cases h⟩ rfl _
    rcases Collection.mem_values.mp hv with h | h | h | h
    · cases h
    · obtain ⟨target, rfl⟩ := helement v h
      exact ⟨Value.traced_oneToMany target, rfl⟩
    · cases h
    · cases h

end ObjectMapping
