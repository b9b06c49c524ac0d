import ObjectMapping.Proofs.Acceptance
import ObjectMapping.Proofs.Metas
import ObjectMapping.Proofs.Opening
import ObjectMapping.Proofs.Stores
import ObjectMapping.Proofs.Walk

/-!
# Stocking entities

What a registry stores about entities is bound for elements, one value and one property at a time.
A stock says what is asked of values, of properties and of entities, and what in between is asked
of those that were bound for an element and are not stored yet.  What is asked of a value or of a
property may depend on the entity that it is bound for.  `Stock.Kept` lists what has to be shown of
single objects: how a value becomes that of a property, what a component makes of its members, and
that such objects may be written to the registry.

From there on everything follows the binders.  Components are bound down through their members; an
entity is prepared from its header through its row, and registered; and its body adds properties and
joins.  So whatever the walk over a document leaves in the registry meets what is asked of it.
-/

namespace ObjectMapping

open Binding Registry

/-- What is asked of values, properties and entities, under an upkeep.  Values and properties are
those of an entity, which is given by its name. -/
structure Stock where
  upkeep : Upkeep
  /-- The elements that are met, in their scopes. -/
  reads : Scope → Element → Prop
  /-- Of a value that is stored, unless it is that of a declared property. -/
  value : Registry → String → Value → Prop
  /-- Of a property that is stored. -/
  property : Registry → String → Property → Prop
  /-- Of a value that was bound for an element. -/
  suits : Registry → String → Scope → Element → Value → Prop
  /-- Of a property that was bound for an element. -/
  bound : Registry → String → Scope → Element → Property → Prop
  /-- Of an entity, apart from what it stores. -/
  entity : Entity → Prop

namespace Stock

/-- An entity of a name meets what is asked of it, and so does what it stores. -/
structure Holds (T : Stock) (r : Registry) (owner : String) (e : Entity) : Prop where
  name : e.name = owner
  own : T.entity e
  stores : e.Stores (T.value r owner) (T.property r owner) (T.property r owner)

/-- What has to be shown of single objects. -/
structure Kept (T : Stock) : Prop where
  child : ∀ {scope : Scope} {node c : Element}, T.reads scope node → c ∈ node.children →
    T.reads scope c
  descend : ∀ {scope : Scope} {node c : Element}, T.reads scope node → c ∈ node.children →
    T.reads (scope.descend node) c
  /-- The members of a component have a scope of their own. -/
  member : ∀ {scope : Scope} {node c : Element}, T.reads scope node → node.IsComposite →
    c ∈ node.children →
      T.reads { scope with metas := (mergeMetas node scope.metas false).inheritablePart } c
  value_later : ∀ {r r' : Registry} {name : String} {v : Value}, T.upkeep.keeps r r' →
    T.value r name v → T.value r' name v
  property_later : ∀ {r r' : Registry} {name : String} {p : Property}, T.upkeep.keeps r r' →
    T.property r name p → T.property r' name p
  suits_later : ∀ {r r' : Registry} {name : String} {scope : Scope} {node : Element} {v : Value},
    T.upkeep.keeps r r' → T.suits r name scope node v → T.suits r' name scope node v
  bound_later : ∀ {r r' : Registry} {name : String} {scope : Scope} {node : Element}
    {p : Property}, T.upkeep.keeps r r' → T.bound r name scope node p →
      T.bound r' name scope node p
  /-- A property that was bound for an element may be stored. -/
  stored : ∀ {r : Registry} {name : String} {scope : Scope} {node : Element} {p : Property},
    T.reads scope node → T.bound r name scope node p →
      T.value r name p.value ∧ T.property r name p
  /-- It may be written less often than it says, and its place in a join or in a natural identifier
  does not matter. -/
  restrict : ∀ {r : Registry} {name : String} {scope : Scope} {node : Element} {p : Property}
    {insertable updatable isOptional naturalIdentifier : Bool}, T.bound r name scope node p →
      (insertable → p.insertable) → (updatable → p.updatable) →
      T.bound r name scope node { p with insertable, updatable, isOptional, naturalIdentifier }
  simple : ∀ {r : Registry} {name : String} (v : SimpleValue), T.value r name (.simple v)
  suits_simple : ∀ {r : Registry} {name : String} {scope : Scope} {node : Element}
    (v : SimpleValue), T.reads scope node → T.suits r name scope node (.simple v)
  component : ∀ {r : Registry} {name : String} {scope : Scope} {node : Element} {c : Component},
    T.suits r name scope node (.component c) → T.value r name (.component c)
  /-- A component suits its element if its members were bound for the children. -/
  suits_component : ∀ {r : Registry} {name : String} {scope : Scope} {node : Element}
    {c : Component}, T.reads scope node → node.IsComposite →
      c.metas = mergeMetas node scope.metas false →
      (∀ p ∈ c.properties, ∃ child ∈ node.children,
        T.bound r name { scope with metas := c.metas.inheritablePart } child p) →
      T.suits r name scope node (.component c)
  component_congr : ∀ {r : Registry} {name : String} {scope : Scope} {node : Element}
    {c c' : Component}, T.suits r name scope node (.component c) → c'.properties = c.properties →
      c'.metas = c.metas → T.suits r name scope node (.component c')
  /-- The shadow of a composite identifier may be stored. -/
  shadow : ∀ {r : Registry} {name : String} {c : Component}, T.value r name (.component c) →
    T.property r name {
      name := identifierMapperName
      nodeName := some "id"
      value := .component c
      access := "embedded"
      insertable := false
      updatable := false }
  /-- A value that was bound for an element and may be stored may become that of a property. -/
  bindProperty : ∀ {r : Registry} {name : String} {scope : Scope} {node : Element} {v : Value}
    {propertyName : String} {p : Property}, T.reads scope node →
      node.attribute? "name" = some propertyName → T.suits r name scope node v →
      T.value r name v → bindProperty scope node v propertyName = .ok p →
      T.bound r name scope node p
  /-- Any value that was bound for an element may, once its references are recorded. -/
  createProperty : ∀ {r : Registry} {owner : String} {scope : Scope} {node : Element} {v : Value},
    T.reads scope node → T.suits r owner scope node v → ∀ className : Option String,
      Upholds T.upkeep (createProperty scope node v className owner) r
        fun p r' => T.bound r' owner scope node p
  bindCollection : ∀ {r : Registry} {scope : Scope} {node : Element} {kind : CollectionKind},
    T.reads scope node → node.tag? = some (.collection kind) → ∀ (path : String) (owner : Owner),
      Upholds T.upkeep
        (bindCollection scope node kind (qualify path ((node.attribute? "name").getD "")) owner) r
        fun v r' => T.suits r' owner.name scope node v
  bindOneToOne : ∀ {r : Registry} {scope : Scope} {node : Element}, T.reads scope node →
    node.tag? = some .oneToOne → ∀ (site : ColumnSite) (owner : String),
      Upholds T.upkeep (bindOneToOne scope site owner node) r
        fun v r' => T.suits r' owner scope node (.oneToOne v)
  bindSimpleMember : ∀ {r : Registry} {name : String} {scope : Scope} {node : Element}
    {tag member : Tag}, T.reads scope node → node.tag? = some tag →
      member = tag ∨ member = tag.asMember →
      ∀ site : ColumnSite, Upholds T.upkeep (bindSimpleMember scope site node member) r
        fun o r' => ∀ v, o = some v → T.suits r' name scope node v
  bindDependantKey : ∀ {r : Registry} (name : String) (table : TableId) (referenced path : String)
    (node : Element), Upholds T.upkeep (bindDependantKey table referenced path node) r
      fun v r' => T.value r' name v
  /-- What is asked of an entity depends on its name and on its meta attributes. -/
  entity_congr : ∀ {e e' : Entity}, T.entity e → e'.name = e.name → e'.metas = e.metas →
    T.entity e'
  header : ∀ {scope : Scope} {node : Element} {e : Entity}, T.reads scope node →
    entityNameOf scope node = .ok e.name → e.metas = mergeMetas node scope.metas false → T.entity e
  steady : ∀ {r r' : Registry}, SteadyWrite r r' → T.upkeep.invariant r → T.upkeep.Advances r r'
  addDenormalizedTable : ∀ {r r' : Registry} {q : TableRequest} {parent id : TableId},
    r.addDenormalizedTable q parent = .ok (r', id) → T.upkeep.invariant r → T.upkeep.Advances r r'
  addEntity : ∀ {r r' : Registry} {name : String} {e : Entity}, T.Holds r name e →
    r.addEntity e = .ok r' → T.upkeep.invariant r → T.upkeep.Advances r r'
  modifyEntity : ∀ {r : Registry} (name : String) {f : Entity → Entity},
    (∀ e, T.Holds r name e → T.Holds r name (f e)) → T.upkeep.invariant r →
      T.upkeep.Advances r (r.modifyEntity name f)

/-! ## Entities that are held -/

variable {T : Stock}

namespace Holds

variable {r : Registry} {name : String} {e e' : Entity} (h : T.Holds r name e)
include h

/-- What an entity has besides its name, its meta attributes and what it stores may be changed. -/
theorem relabel (hname : e'.name = e.name) (hown : T.entity e')
    (hproperties : e'.properties = e.properties) (hjoins : e'.joins = e.joins)
    (hkind : e'.kind = e.kind) : T.Holds r name e' := by
  refine ⟨hname.trans h.name, hown, ?_, ?_, ?_, ?_⟩
  · rw [Entity.allProperties, hproperties, hjoins]
    exact h.stores.properties
  · rw [hjoins]
    exact h.stores.keys
  · rw [hkind]
    exact h.stores.kind
  · rw [Entity.identifierProperty?, Entity.root?, hkind]
    exact h.stores.identifier

end Holds

namespace Kept

variable (h : T.Kept) {r : Registry} {name : String} {scope : Scope} {node : Element}
include h

/-- Steady computations keep the stock. -/
theorem ofSteady {α : Type} {m : Binding α} (hm : m.Steady) :
    Upholds T.upkeep m r fun _ _ => True :=
  .of_steps hm fun _ _ => h.steady

/-- What is stored stays as it was asked for. -/
theorem holds_later {r' : Registry} {e : Entity} (hkeeps : T.upkeep.keeps r r')
    (he : T.Holds r name e) : T.Holds r' name e where
  name := he.name
  own := he.own
  stores := he.stores.imp (fun _ => h.value_later hkeeps) (fun _ => h.property_later hkeeps)
    fun _ _ => h.property_later hkeeps

/-! ## Components -/

mutual

/-- A component suits the element that it is bound for. -/
theorem bindComponent {r : Registry} (scope : Scope) (site : ComponentSite) :
    ∀ node, T.reads scope node → node.IsComposite →
      Upholds T.upkeep (bindComponent scope site node) r
        fun c r' => T.suits r' site.owner.name scope node (.component c)
  | ⟨name, attributes, children, text⟩, hnode, hcomposite => by
    rw [ObjectMapping.bindComponent]
    refine .get_bind ?_
    split
    refine .bind (bindMembers _ site _ children fun c hc => h.member hnode hcomposite hc)
      fun properties r₁ _ hmembers => .optional (fun _ => ?_) fun r₂ hkeeps => .pure ?_
    · exact h.ofSteady (steady_changeTable _ (f := (·.createUniqueKey _)) (fun _ => rfl)
        fun t => .createUniqueKey t _)
    · refine h.suits_component hnode hcomposite rfl fun p hp => ?_
      obtain ⟨c, hc, hbound⟩ := hmembers p hp
      exact ⟨c, hc, h.bound_later hkeeps hbound⟩

/-- Each member of a component is bound for a child of its element. -/
theorem bindMembers {r : Registry} (scope : Scope) (site : ComponentSite)
    (className : Option String) : ∀ children, (∀ c ∈ children, T.reads scope c) →
      Upholds T.upkeep (bindMembers scope site className children) r
        fun ps r' => ∀ p ∈ ps, ∃ c ∈ children, T.bound r' site.owner.name scope c p
  | [], _ => by
    rw [ObjectMapping.bindMembers]
    exact .pure fun _ hp => absurd hp List.not_mem_nil
  | node :: rest, hchildren => by
    rw [List.forall_mem_cons] at hchildren
    obtain ⟨hnode, hrest⟩ := hchildren
    unfold ObjectMapping.bindMembers
    extract_lets name others
    have hlater : ∀ r', Upholds T.upkeep (ObjectMapping.bindMembers scope site className rest) r'
        fun ps r' => ∀ p ∈ ps, ∃ c ∈ node :: rest, T.bound r' site.owner.name scope c p :=
      fun r' => (bindMembers scope site className rest hrest).mono fun ps _ _ hps p hp =>
        (hps p hp).imp fun c hc => hc.imp_left (List.mem_cons_of_mem node)
    have hothers : ∀ value r', (∀ v, value = some v → T.suits r' site.owner.name scope node v) →
        Upholds T.upkeep (others value) r'
          fun ps r' => ∀ p ∈ ps, ∃ c ∈ node :: rest, T.bound r' site.owner.name scope c p := by
      intro value r₁ hvalue
      cases value with
      | none => exact hlater r₁
      | some value =>
        refine .bind (h.createProperty hnode (hvalue value rfl) className) fun p r₂ _ hp =>
          .bind (hlater r₂) fun ps r₃ hkeeps hps => .pure (List.forall_mem_cons.mpr ⟨?_, hps⟩)
        refine ⟨node, List.mem_cons_self, ?_⟩
        have hlater := h.bound_later hkeeps hp
        split
        · exact h.restrict hlater nofun nofun
        · exact hlater
    clear_value others
    have hsome : ∀ (v : Value) r', T.suits r' site.owner.name scope node v →
        Upholds T.upkeep (others (some v)) r'
          fun ps r' => ∀ p ∈ ps, ∃ c ∈ node :: rest, T.bound r' site.owner.name scope c p :=
      fun v r' hv => hothers _ r' fun w hw => Option.some.inj hw ▸ hv
    have hcomponent : node.IsComposite → Upholds T.upkeep (do
        others (some (.component (← ObjectMapping.bindComponent scope (site.nested className name)
          node)))) r
          fun ps r' => ∀ p ∈ ps, ∃ c ∈ node :: rest, T.bound r' site.owner.name scope c p :=
      fun hcomposite => .bind (bindComponent scope _ node hnode hcomposite) fun c r₁ _ hc =>
        hsome _ r₁ hc
    split
    · exact .bind (h.bindCollection hnode ‹_› _ _) fun v r₁ _ hv => hsome v r₁ hv
    · exact hcomponent (Element.isComposite_of_tag ‹_› rfl)
    · exact hcomponent (Element.isComposite_of_tag ‹_› rfl)
    · exact hcomponent (Element.isComposite_of_tag ‹_› rfl)
    · exact .bind (h.bindOneToOne hnode ‹_› _ _) fun v r₁ _ hv => hsome _ r₁ hv
    · exact .bind (h.bindSimpleMember hnode ‹_› (.inr rfl) _) fun value r₁ _ hvalue =>
        hothers value r₁ hvalue
    · exact hothers none r nofun

end

/-- A component that is bound as the value of a property suits its element. -/
theorem bindComponentValue (hnode : T.reads scope node) (hcomposite : node.IsComposite)
    (site : ComponentSite) :
    Upholds T.upkeep (do
      return some (Value.component (← ObjectMapping.bindComponent scope site node))) r
      fun o r' => ∀ v, o = some v → T.suits r' site.owner.name scope node v :=
  .bind (h.bindComponent scope site node hnode hcomposite) fun _ _ _ hc =>
    .pure fun _ hv => Option.some.inj hv ▸ hc

/-! ## Rows -/

section

variable {e : Entity} (he : T.Holds r name e) (hnode : T.reads scope node)
include he

/-- The data of a root may be changed if they store what may be stored. -/
theorem holds_modifyRoot {f : RootData → RootData}
    (hf : ∀ data : RootData, data.Stores (T.value r name) (T.property r name) →
      (f data).Stores (T.value r name) (T.property r name)) : T.Holds r name (e.modifyRoot f) :=
  ⟨he.name, h.entity_congr he.own rfl rfl, he.stores.modifyRoot hf⟩

/-- An entity may get a property of the stock. -/
theorem holds_addProperty {p : Property} (hp : T.property r name p) :
    T.Holds r name (e.addProperty p) :=
  ⟨he.name, h.entity_congr he.own rfl rfl, he.stores.addProperty hp⟩

/-- So may the data of the root of a hierarchy be changed. -/
theorem changeRoot {f : RootData → RootData}
    (hf : ∀ data : RootData, data.Stores (T.value r name) (T.property r name) →
      (f data).Stores (T.value r name) (T.property r name)) :
    Upholds T.upkeep (changeRoot e f) r fun e' r' => T.Holds r' name e' :=
  .ite (fun _ => .pure (h.holds_modifyRoot he hf)) fun _ => .throw _

/-- The identifier of a root may be set. -/
theorem setIdentifier {binding : IdentifierBinding}
    (hbinding : binding.Stores (T.value r name) (T.property r name)) {f : RootData → RootData}
    (hidentifier : ∀ data, (f data).identifier = some binding)
    (hmapper : ∀ data, (f data).identifierMapper = data.identifierMapper)
    (hdiscriminator : ∀ data, (f data).discriminator = data.discriminator) :
    Upholds T.upkeep (ObjectMapping.changeRoot e f) r fun e' r' => T.Holds r' name e' :=
  h.changeRoot he fun data hdata => hdata.setIdentifier hbinding (hidentifier data)
    (hmapper data) (hdiscriminator data)

include hnode in
/-- An identifier is bound as a value, or as a property if it has a name. -/
theorem bindSimpleId :
    Upholds T.upkeep (bindSimpleId scope e node) r fun e' r' => T.Holds r' name e' := by
  unfold ObjectMapping.bindSimpleId
  refine .bind (h.ofSteady (steady_bindSimpleValue _ _)) fun v r₁ hkeeps _ => ?_
  have he₁ := h.holds_later hkeeps he
  refine .get_bind (.ite (fun _ => .throw_bind _ _) fun _ => .ofExcept_bind fun v' _ => ?_)
  split
  · next propertyName hname =>
    refine .bind (P := fun binding r' => r' = r₁ ∧
        binding.Stores (T.value r₁ name) (T.property r₁ name))
      (.map (P := fun p r' => r' = r₁ ∧ T.value r₁ name p.value ∧ T.property r₁ name p)
        (.ofExcept fun p hp => ⟨rfl, ?_⟩) fun _ _ _ hp => hp) ?_
    · exact h.stored hnode (h.bindProperty hnode hname (h.suits_simple v' hnode) (h.simple v') hp)
    · rintro binding r₂ - ⟨rfl, hbinding⟩
      exact h.setIdentifier he₁ hbinding (fun _ => rfl) (fun _ => rfl) fun _ => rfl
  · have hunnamed : (IdentifierBinding.unnamed (.simple v')).Stores (T.value r₁ name)
        (T.property r₁ name) := h.simple v'
    exact h.setIdentifier he₁ hunnamed (fun _ => rfl) (fun _ => rfl) fun _ => rfl

include hnode in
/-- The shadow of a composite identifier is a component and a property besides. -/
theorem bindIdentifierMapper (hcomposite : node.IsComposite) (path : String) :
    Upholds T.upkeep (bindIdentifierMapper scope e path node) r
      fun e' r' => T.Holds r' name e' := by
  unfold ObjectMapping.bindIdentifierMapper
  refine .bind (h.bindComponent scope _ node hnode hcomposite) fun mapper r' hkeeps hmapper => ?_
  -- The component is bound for the entity itself.
  obtain rfl : e.name = name := he.name
  have hvalue : T.value r' e.name (.component mapper) := h.component hmapper
  have he' := h.holds_addProperty (h.holds_later hkeeps he) (p := {
    name := identifierMapperName
    nodeName := some "id"
    value := .component mapper
    access := "embedded"
    insertable := false
    updatable := false }) (h.shadow hvalue)
  exact h.changeRoot he' fun data hdata => hdata.setMapper hvalue

include hnode in
/-- A composite identifier is a component with a shadow, if it is mapped. -/
theorem bindCompositeId (hcomposite : node.IsComposite) :
    Upholds T.upkeep (bindCompositeId scope e node) r fun e' r' => T.Holds r' name e' := by
  unfold ObjectMapping.bindCompositeId
  refine .ite (fun _ => .throw_bind _ _) fun _ =>
    .bind (h.bindComponent scope _ node hnode hcomposite) ?_
  intro key r₁ hkeeps hkey
  obtain rfl : e.name = name := he.name
  have he₁ := h.holds_later hkeeps he
  extract_lets key' finish
  -- Between the component and its property the shadow may have been bound.
  have hfinish : ∀ e₁ r', T.suits r' e.name scope node (.component key) → T.Holds r' e.name e₁ →
      Upholds T.upkeep (finish e₁) r' fun e' r' => T.Holds r' e.name e' := by
    intro e₁ r' hkey' he'
    unfold finish
    dsimp only
    split
    · next propertyName hname =>
      refine .ofExcept_bind fun p hp => ?_
      have hsuits : T.suits r' e.name scope node (.component key') :=
        h.component_congr hkey' rfl rfl
      have hnamed : (IdentifierBinding.named p).Stores (T.value r' e.name) (T.property r' e.name) :=
        h.stored hnode (h.bindProperty hnode hname hsuits (h.component hsuits) hp)
      exact h.setIdentifier he' hnamed (fun _ => rfl) (fun _ => rfl) fun _ => rfl
    · have hunnamed : ∀ c : Component, c.properties = key.properties → c.metas = key.metas →
          (IdentifierBinding.unnamed (.component c)).Stores (T.value r' e.name)
            (T.property r' e.name) :=
        fun c hproperties hmetas => h.component (h.component_congr hkey' hproperties hmetas)
      refine h.setIdentifier he' (hunnamed _ ?_ ?_) (fun _ => rfl) (fun _ => rfl) fun _ => rfl
      · split <;> rfl
      · split <;> rfl
  clear_value finish
  refine .ite (fun _ => ?_) fun _ => hfinish e r₁ hkey he₁
  exact .bind (h.bindIdentifierMapper he₁ hnode hcomposite _) fun e' r₂ hkeeps' he' =>
    hfinish e' r₂ (h.suits_later hkeeps' hkey) he'

include hnode in
/-- A version is a property like any other. -/
theorem bindVersion :
    Upholds T.upkeep (bindVersion scope e node) r fun e' r' => T.Holds r' name e' := by
  unfold ObjectMapping.bindVersion
  refine .ofExcept_bind fun propertyName hname => .bind (h.ofSteady (steady_bindSimpleValue _ _))
    fun v r₁ hkeeps _ => .ofExcept_bind fun p hp => .ite (fun _ => .throw_bind _ _) fun _ => ?_
  have he₁ := h.holds_later hkeeps he
  have hbound : T.bound r₁ name scope node p :=
    h.bindProperty hnode (attribute?_of_propertyName hname) (h.suits_simple _ hnode) (h.simple _) hp
  refine .bind (h.changeRoot he₁ fun data hdata => hdata.of_same rfl rfl)
    fun e' r₂ hkeeps' he' => .pure ?_
  exact h.holds_addProperty he' (h.stored hnode (h.bound_later hkeeps' hbound)).2

/-- A discriminator is stored as a value. -/
theorem bindDiscriminator (node : Element) :
    Upholds T.upkeep (bindDiscriminator e node) r fun e' r' => T.Holds r' name e' := by
  unfold ObjectMapping.bindDiscriminator
  refine .bind (h.ofSteady (steady_bindSimpleValue _ _)) fun v r₁ hkeeps _ => ?_
  exact h.changeRoot (h.holds_later hkeeps he) fun data hdata =>
    hdata.setDiscriminator (h.simple _) true

/-- The cache of an entity stores nothing. -/
theorem bindCache (node : Element) :
    Upholds T.upkeep (bindCache e node) r fun e' r' => T.Holds r' name e' := by
  unfold ObjectMapping.bindCache
  exact .ofExcept_bind fun _ _ => .pure (h.holds_modifyRoot he fun data hdata =>
    hdata.of_same rfl rfl)

include hnode in
/-- A child of a class that describes its rows keeps what is asked of the entity. -/
theorem bindRowChild :
    Upholds T.upkeep (bindRowChild scope e node) r fun e' r' => T.Holds r' name e' := by
  unfold ObjectMapping.bindRowChild
  split
  · exact h.bindSimpleId he hnode
  · exact h.bindCompositeId he hnode (Element.isComposite_of_tag ‹_› rfl)
  · exact h.bindVersion he hnode
  · exact h.bindVersion he hnode
  · exact h.bindDiscriminator he node
  · exact h.bindCache he node
  · exact .pure he

end

/-- The children that describe rows are bound one after another. -/
theorem bindRow {e : Entity} (he : T.Holds r name e) {children : List Element}
    (hchildren : ∀ c ∈ children, T.reads scope c) :
    Upholds T.upkeep (bindRow scope e children) r fun e' r' => T.Holds r' name e' := by
  induction children generalizing r e with
  | nil => exact .pure he
  | cons node rest ih =>
    rw [List.forall_mem_cons] at hchildren
    exact .bind (h.bindRowChild he hchildren.1) fun e' r' _ he' => ih he' hchildren.2

/-! ## Opening entities -/

/-- A header stores the values of its kind. -/
theorem bindHeader (hnode : T.reads scope node) (hname : entityNameOf scope node = .ok name)
    {kind : EntityKind} (table : TableId) (hkind : ∀ v ∈ kind.values, T.value r name v)
    (hidentifier : kind.root?.bind RootData.identifierProperty? = none) :
    Upholds T.upkeep (bindHeader scope node name kind table) r
      fun e r' => T.Holds r' e.name e := by
  have hyields : Yields (ObjectMapping.bindHeader scope node name kind table) fun e =>
      e.name = name ∧ e.metas = mergeMetas node scope.metas false ∧ e.properties = [] ∧
        e.joins = [] ∧ e.kind = kind :=
    .next fun _ => .next fun _ => .next fun _ => .pure ⟨rfl, rfl, rfl, rfl, rfl⟩
  refine (Upholds.of_makes (steady_bindHeader scope node name kind table) hyields
    fun _ _ => h.steady).mono fun e r' hkeeps he => ?_
  obtain ⟨rfl, hmetas, hproperties, hjoins, rfl⟩ := he
  refine ⟨rfl, h.header hnode hname hmetas, fun p hp => ?_, ?_,
    fun v hv => h.value_later hkeeps (hkind v hv), fun p hp => ?_⟩
  · rw [Entity.allProperties, hproperties, hjoins] at hp
    exact absurd hp List.not_mem_nil
  · rw [hjoins]
    exact fun _ hj => absurd hj List.not_mem_nil
  · cases hidentifier.symm.trans hp

/-- A subclass is prepared with the value of its key at most. -/
theorem prepareSubclass (hnode : T.reads scope node) (kind : SubclassKind) (superclass : String) :
    Upholds T.upkeep (prepareSubclass kind scope superclass node) r
      fun e r' => T.Holds r' e.name e := by
  cases kind with
  | plain =>
    refine .bind (h.ofSteady (steady_superclassTable superclass)) fun table r₁ _ _ => ?_
    exact .ofExcept_bind fun name hname => h.bindHeader hnode hname _
      (fun _ hv => absurd hv List.not_mem_nil) rfl
  | joined =>
    refine .ofExcept_bind fun name hname => .bind (h.ofSteady (steady_requestTable _ _ _ _))
      fun q r₁ _ _ => ?_
    refine .bind (h.ofSteady (steady_openTable q)) fun table r₂ _ _ => ?_
    refine .bind (h.ofSteady (steady_commentTable table node)) fun _ r₃ _ _ => ?_
    refine .require_bind fun keyNode _ => ?_
    refine .bind (h.bindDependantKey name table superclass name keyNode) fun key r₄ _ hkey => ?_
    refine .bind (h.ofSteady (steady_checkTable table node)) fun _ r₅ hkeeps _ => ?_
    refine h.bindHeader hnode hname _ (fun v hv => ?_) rfl
    cases List.mem_singleton.mp hv
    exact h.value_later hkeeps hkey
  | union =>
    refine .bind (h.ofSteady (steady_superclassTable superclass)) fun parent r₁ _ _ => ?_
    refine .ofExcept_bind fun name hname => .bind (h.ofSteady (steady_requestTable _ _ _ _))
      fun q r₂ _ _ => .get_bind (.ofExcept_bind fun ⟨r₃, table⟩ hadd => ?_)
    -- The registry that is written back is the one that the new table was added to.
    have hset : Upholds T.upkeep (set r₃ : Binding PUnit) r₂ fun _ _ => True :=
      .write (h.addDenormalizedTable hadd)
    exact .bind hset fun _ r₄ _ _ => h.bindHeader hnode hname _
      (fun _ hv => absurd hv List.not_mem_nil) rfl

/-- A registered entity may be changed as long as it meets what is asked of it. -/
theorem changeEntity {f : Entity → Entity} (hf : ∀ e, T.Holds r name e → T.Holds r name (f e)) :
    Upholds T.upkeep (changeEntity name f) r fun _ _ => True := by
  unfold Binding.changeEntity
  refine .get_bind (.ite (fun _ => ?_) fun _ => .throw _)
  exact .write (h.modifyEntity name hf)

/-- An entity may be registered with what it stores. -/
theorem register {e : Entity} (he : T.Holds r name e) :
    Upholds T.upkeep (Binding.register (·.addEntity e)) r fun _ _ => True :=
  .register fun _ hr hadd => ⟨h.addEntity he hadd hr, trivial⟩

/-- A subclass is registered as it was prepared, and its superclass stores what it did. -/
theorem openSubclass (hnode : T.reads scope node) (kind : SubclassKind) (superclass : String) :
    Upholds T.upkeep (openSubclass kind scope superclass node) r fun _ _ => True := by
  unfold ObjectMapping.openSubclass registerSubclass
  refine .bind (h.prepareSubclass hnode kind superclass) fun e r₁ _ he => ?_
  refine .bind (P := fun _ _ => True) ?_ fun _ _ _ _ => .pure trivial
  refine .bind (h.register he) fun _ r₂ _ _ => ?_
  refine .bind (h.changeEntity fun s hs => hs.relabel rfl (h.entity_congr hs.own rfl rfl)
    rfl rfl rfl) fun _ r₃ _ _ => .write fun hr => ?_
  split
  · exact .refl hr
  · unfold Registry.modifyRootOf
    split
    · exact h.modifyEntity _ (fun e' he' => h.holds_modifyRoot he'
        fun data hdata => hdata.of_same rfl rfl) hr
    · exact .refl hr

/-- A root class is prepared with the values of its rows. -/
theorem prepareRootClass (hnode : T.reads scope node) :
    Upholds T.upkeep (prepareRootClass scope node) r fun e r' => T.Holds r' e.name e := by
  unfold ObjectMapping.prepareRootClass
  refine .ofExcept_bind fun name hname => .bind (h.ofSteady (steady_requestTable _ _ _ _))
    fun q r₁ _ _ => ?_
  refine .bind (h.ofSteady (steady_openTable q)) fun table r₂ _ _ => ?_
  refine .bind (h.ofSteady (steady_commentTable table node)) fun _ r₃ _ _ => ?_
  refine .bind (h.bindHeader hnode hname table (fun _ hv => absurd hv List.not_mem_nil) rfl)
    fun e r₄ _ he => ?_
  refine .bind (h.ofSteady (steady_checkTable table node)) fun _ r₅ hkeeps _ => ?_
  extract_lets rows
  have hrows : ∀ u r', T.Holds r' e.name e →
      Upholds T.upkeep (rows u) r' fun e r' => T.Holds r' e.name e := by
    intro u r₆ he₆
    refine .bind (h.bindRow he₆ fun c hc => h.descend hnode hc) fun e' r₇ _ he' => ?_
    obtain he' : T.Holds r₇ e'.name e' := he'.name.symm ▸ he'
    refine .ite (fun _ => .pure he') fun _ => ?_
    exact .bind (h.ofSteady (steady_changeTable _ (f := (·.setPrimaryKey _)) (fun _ => rfl)
      fun t => .setPrimaryKey t _)) fun _ r₈ hkeeps' _ => .pure (h.holds_later hkeeps' he')
  clear_value rows
  have he₅ := h.holds_later hkeeps he
  split
  · exact .bind (h.ofSteady (steady_changeTable _ (f := ({ · with rowId := some _ }))
      (fun _ => rfl) fun t => .setRowId t _)) fun _ r₆ hkeeps' _ =>
        hrows _ r₆ (h.holds_later hkeeps' he₅)
  · exact hrows _ r₅ he₅

/-- A root class is registered as it was prepared. -/
theorem openRootClass (hnode : T.reads scope node) :
    Upholds T.upkeep (openRootClass scope node) r fun _ _ => True := by
  unfold ObjectMapping.openRootClass
  refine .bind (h.prepareRootClass hnode) fun e r₁ _ he => ?_
  exact .bind (h.register he) fun _ _ _ _ => .pure trivial

/-! ## Bodies -/

/-- A value in a join suits its element. -/
theorem bindJoinedValue (hnode : T.reads scope node) (owner : Owner) (table : TableId) :
    Upholds T.upkeep (bindJoinedValue scope owner table node) r
      fun o r' => ∀ v, o = some v → T.suits r' owner.name scope node v := by
  unfold ObjectMapping.bindJoinedValue
  dsimp only
  split
  · exact h.bindComponentValue hnode (Element.isComposite_of_tag ‹_› rfl) (bodySite owner _ _ _)
  · exact h.bindComponentValue hnode (Element.isComposite_of_tag ‹_› rfl) (bodySite owner _ _ _)
  · exact h.bindSimpleMember hnode ‹_› (.inl rfl) _
  · exact .pure nofun

/-- The properties of a join may be stored. -/
theorem bindJoinedProperties (owner : Owner) (table : TableId) (isOptional : Bool)
    {children : List Element} (hchildren : ∀ c ∈ children, T.reads scope c) :
    Upholds T.upkeep (bindJoinedProperties scope owner table isOptional children) r
      fun ps r' => ∀ p ∈ ps, T.property r' owner.name p := by
  induction children generalizing r with
  | nil => exact .pure fun _ hp => absurd hp List.not_mem_nil
  | cons node rest ih =>
    rw [List.forall_mem_cons] at hchildren
    obtain ⟨hnode, hrest⟩ := hchildren
    rw [ObjectMapping.bindJoinedProperties]
    refine .bind (h.bindJoinedValue hnode owner table) fun value r₁ _ hvalue => ?_
    cases value with
    | none => exact ih hrest
    | some value =>
      refine .bind (h.createProperty hnode (hvalue value rfl) owner.className)
        fun p r₂ _ hp => ?_
      refine .bind (ih hrest) fun ps r₃ hkeeps hps => .pure (List.forall_mem_cons.mpr ⟨?_, hps⟩)
      exact (h.stored hnode (h.restrict (h.bound_later hkeeps hp) id id)).2

/-- What a join stores is its key and its properties. -/
theorem bindJoin (hnode : T.reads scope node) (owner : Owner) :
    Upholds T.upkeep (bindJoin scope owner node) r fun j r' =>
      (∀ v, j.key = some v → T.value r' owner.name v) ∧
        ∀ p ∈ j.properties, T.property r' owner.name p := by
  unfold ObjectMapping.bindJoin
  refine .bind (h.ofSteady (steady_requestTable _ _ _ _)) fun q r₁ _ _ => ?_
  refine .bind (h.ofSteady (steady_openTable q)) fun table r₂ _ _ => ?_
  refine .bind (h.ofSteady (steady_commentTable table node)) fun _ r₃ _ _ => ?_
  refine .require_bind fun keyNode _ => ?_
  refine .bind (h.bindDependantKey owner.name table _ _ keyNode) fun key r₄ _ hkey => ?_
  refine .bind (h.bindJoinedProperties owner table _ fun c hc => h.child hnode hc)
    fun ps r₅ hkeeps hps => .pure ⟨fun v hv => ?_, hps⟩
  exact Option.some.inj hv ▸ h.value_later hkeeps hkey

/-- A value in a body suits its element. -/
theorem bindBodyValue (hnode : T.reads scope node) (owner : Owner) (walk : BodyWalk) :
    Upholds T.upkeep (bindBodyValue scope owner walk node) r
      fun o r' => ∀ v, o = some v → T.suits r' owner.name scope node v := by
  unfold ObjectMapping.bindBodyValue
  dsimp only
  split
  · exact .bind (h.bindCollection hnode ‹_› _ _) fun v r' _ hv =>
      .pure fun _ hw => Option.some.inj hw ▸ hv
  · exact .bind (h.bindOneToOne hnode ‹_› _ _) fun v r' _ hv =>
      .pure fun _ hw => Option.some.inj hw ▸ hv
  · exact h.bindComponentValue hnode (Element.isComposite_of_tag ‹_› rfl) (bodySite owner _ _ _)
  · exact h.bindComponentValue hnode (Element.isComposite_of_tag ‹_› rfl) (bodySite owner _ _ _)
  · exact h.bindComponentValue hnode (Element.isComposite_of_tag ‹_› rfl) (bodySite owner _ _ _)
  · exact h.bindSimpleMember hnode ‹_› (.inl rfl) _
  · exact .pure nofun

/-- A property of a body is added to its entity. -/
theorem bindBodyProperty (hnode : T.reads scope node) (owner : Owner) (walk : BodyWalk) :
    Upholds T.upkeep (bindBodyProperty scope owner walk node) r fun _ _ => True := by
  unfold ObjectMapping.bindBodyProperty
  refine .bind (h.bindBodyValue hnode owner walk) fun value r₁ _ hvalue => ?_
  cases value with
  | none => exact .pure trivial
  | some value =>
    refine .bind (h.createProperty hnode (hvalue value rfl) owner.className)
      fun p r₂ _ hp => .bind (h.changeEntity fun e he => ?_) fun _ _ _ _ => .pure trivial
    refine h.holds_addProperty he (h.stored hnode (h.restrict hp id fun hupdatable => ?_)).2
    exact (Bool.and_eq_true_iff.mp hupdatable).1

/-- Of what a body has besides properties and subclasses, joins store something. -/
theorem bindBodyExtra (hnode : T.reads scope node) (owner : Owner) (tag : Tag) :
    Upholds T.upkeep (bindBodyExtra scope owner node tag) r fun _ _ => True := by
  unfold ObjectMapping.bindBodyExtra
  split
  · exact .bind (h.bindJoin hnode owner) fun j r₁ _ hj => h.changeEntity fun e he =>
      ⟨he.name, h.entity_congr he.own rfl rfl, he.stores.addJoin hj.1 hj.2⟩
  · exact .bind (h.ofSteady (steady_bindFilterUse node)) fun filter r₁ _ _ =>
      h.changeEntity fun e he => he.relabel rfl (h.entity_congr he.own rfl rfl) rfl rfl rfl
  · exact h.ofSteady (steady_bindNamedQuery _ _)
  · exact h.ofSteady (steady_bindNamedSqlQuery _ _ _)
  · exact h.ofSteady (steady_bindResultSet _ _ _)
  · exact .pure trivial

/-- Wherever the walk over a document stops, the stock is kept. -/
theorem walked : Walked T.upkeep T.reads where
  child := h.child
  descend := h.descend
  steady := h.steady
  openRootClass := h.openRootClass
  openSubclass kind _ superclass _ hnode := h.openSubclass hnode kind superclass
  bindBodyProperty owner _ _ hnode := h.bindBodyProperty hnode.read owner _
  bindBodyExtra owner _ tag hnode := h.bindBodyExtra hnode.read owner tag

end Kept

end Stock

end ObjectMapping
