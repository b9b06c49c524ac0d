import Mathlib.Data.List.TakeWhile
import ObjectMapping.Proofs.Replay
import ObjectMapping.Proofs.Workload

/-!
# Shadows of composite identifiers

A composite identifier that is mapped twice is bound twice: once as the identifier, and once as a
component that shadows it.  The two walks are told apart by where the component is declared, and
name the same columns all the same: a column that is made from a path is named after the last step
of the path, which is the last step of the property's own name wherever the property stands.  So
the second walk is a repetition of the first, and the shadow has the columns of the identifier and
can be written nowhere.
-/

namespace ObjectMapping

open Binding Registry

/-! ## Columns named after paths -/

/-- The text after the last dot is what comes before the first dot from the end. -/
theorem unqualify_eq (name : String) :
    unqualify name = String.ofList (name.toList.reverse.takeWhile (· != '.')).reverse := by
  unfold unqualify splitLastDot
  dsimp only
  split
  · next hsplit =>
    split at hsplit <;> cases hsplit
    rfl
  · next hsplit =>
    split at hsplit
    · cases hsplit
    · next hdot =>
      have hall : name.toList.reverse.takeWhile (· != '.') = name.toList.reverse := by
        refine List.takeWhile_eq_self_iff.mpr fun c hc => ?_
        simp only [bne_iff_ne, ne_eq]
        exact fun heq => hdot (heq ▸ hc)
      rw [hall, List.reverse_reverse, String.ofList_toList]

/-- What stands before a dot does not show after the last one. -/
theorem unqualify_append_dot (outer name : String) :
    unqualify (outer ++ "." ++ name) = unqualify name := by
  have hcut : ∀ l rest : List Char,
      (l ++ '.' :: rest).takeWhile (· != '.') = l.takeWhile (· != '.') := by
    intro l rest
    induction l with
    | nil => simp
    | cons c l ih => simp only [List.cons_append, List.takeWhile_cons, ih]
  rw [unqualify_eq, unqualify_eq]
  simp only [String.toList_append, List.reverse_append]
  have hdot : ".".toList.reverse = ['.'] := rfl
  rw [hdot, List.singleton_append, hcut]

/-- What is left of a text after its beginning is stripped. -/
theorem eq_append_of_stripPrefix? {beginning s rest : String}
    (h : stripPrefix? beginning s = some rest) : s = beginning ++ rest := by
  unfold stripPrefix? at h
  split at h
  · next hprefix =>
    cases h
    rw [List.isPrefixOf_iff_prefix] at hprefix
    obtain ⟨after, hafter⟩ := hprefix
    rw [← String.toList_inj, String.toList_append, String.toList_ofList, ← hafter,
      ← String.length_toList, List.drop_left]
  · cases h

/-- Wherever a component is declared, a column is named after the property alone. -/
theorem ComponentSite.unqualify_columnPath (site : ComponentSite) (name : String) :
    unqualify (site.columnPath name) = unqualify name := by
  have hpath : unqualify (qualify site.path name) = unqualify name := unqualify_append_dot _ _
  unfold columnPath
  split
  · rfl
  · dsimp only
    cases hstrip : stripPrefix? (site.owner.name ++ ".") (qualify site.path name) with
    | none => exact hpath
    | some rest =>
      rw [eq_append_of_stripPrefix? hstrip, unqualify_append_dot] at hpath
      exact hpath

/-! ## Columns -/

/-- Sites in one table, with the same nullability, after which columns are named alike. -/
structure ColumnSite.Agrees (site site' : ColumnSite) : Prop where
  table : site'.table = site.table
  nullable : site'.nullable = site.nullable
  path : unqualify site'.path = unqualify site.path

/-- A column that is registered again is selected again. -/
theorem replays_registerColumn (table : Option TableId) (c : Column) (sources : List Element) :
    Replays id (registerColumn table c sources) (registerColumn table c sources) :=
  .map (.changeTable (.registerColumn c sources) table) fun _ _ _ => rfl

section

variable {site site' : ColumnSite} (h : site.Agrees site')
include h

/-- So are nested columns, position by position. -/
theorem replays_bindNestedColumns (owner : Element) (children : List Element) (position : Nat) :
    Replays id (bindNestedColumns site owner position children)
      (bindNestedColumns site' owner position children) := by
  induction children generalizing position with
  | nil => exact .pure rfl
  | cons child rest ih =>
    have hcons : ∀ position (s : Selectable), Replays id
        (do return s :: (← bindNestedColumns site owner position rest))
        (do return s :: (← bindNestedColumns site' owner position rest)) := fun position s =>
      .map (ih position) fun _ _ hsame => congrArg (s :: ·) hsame
    unfold bindNestedColumns
    refine .ite ?_ (.ite (hcons _ _) (ih position))
    refine .bind_same (.require _ _ _) fun name => ?_
    refine .get_bind fun r₀ r hoptions => ?_
    have hnaming : r.naming = r₀.naming := congrArg RegistryOptions.naming hoptions
    rw [hnaming, h.table, h.nullable]
    refine .bind_same (.ofExcept fun _ _ hc hc' => ?_) fun c => ?_
    · exact Except.ok.inj (hc'.symm.trans hc)
    · refine .bind_same (replays_registerColumn _ _ _) fun s => ?_
      exact hcons _ _

/-- So is the column that an element names itself. -/
theorem replays_bindOwnColumn (node : Element) (name : String) :
    Replays id (bindOwnColumn site node name) (bindOwnColumn site' node name) := by
  unfold bindOwnColumn
  rw [h.table, h.nullable]
  refine .bind_same (.ofExcept fun _ _ hc hc' => ?_) fun c => ?_
  · exact Except.ok.inj (hc'.symm.trans hc)
  · exact .map (replays_registerColumn _ _ _) fun _ _ hsame => congrArg (fun s => [s]) hsame

/-- So are the columns of an element, named or nested. -/
theorem replays_bindNamedColumns (node : Element) :
    Replays id (bindNamedColumns site node) (bindNamedColumns site' node) := by
  unfold bindNamedColumns
  split
  · refine .ite (.throw_bind _ _ _) (.ite (.throw_bind _ _ _) (.get_bind fun r₀ r hoptions => ?_))
    have hnaming : r.naming = r₀.naming := congrArg RegistryOptions.naming hoptions
    rw [hnaming]
    exact replays_bindOwnColumn h node _
  · exact replays_bindNestedColumns h node _ _

/-- A column that is made from the path is named alike, although the paths differ. -/
theorem replays_bindColumns (node : Element) :
    Replays id (bindColumns site node) (bindColumns site' node) := by
  unfold bindColumns
  refine .bind_same (replays_bindNamedColumns h node) fun s => ?_
  refine .ite (.get_bind fun r₀ r hoptions => ?_) (.pure rfl)
  have hnaming : r.naming = r₀.naming := congrArg RegistryOptions.naming hoptions
  rw [hnaming, NamingStrategy.columnOfProperty, NamingStrategy.columnOfProperty, h.path]
  exact replays_bindOwnColumn h node _

/-- So are columns with their default, and a formula. -/
theorem replays_bindColumnsOrFormula (node : Element) :
    Replays id (bindColumnsOrFormula site node) (bindColumnsOrFormula site' node) := by
  unfold bindColumnsOrFormula
  split
  · exact .pure rfl
  · exact replays_bindColumns h node

/-! ## Values -/

/-- The type of a value may be another one, but not its columns. -/
theorem replays_bindSimpleValue (node : Element) :
    Replays SimpleValue.selectables (bindSimpleValue site node) (bindSimpleValue site' node) :=
  .get_bind fun _ _ _ => .map (replays_bindColumnsOrFormula h node) fun _ _ hsame => hsame

omit h in
/-- A cascade is accepted again. -/
theorem replays_checkCascade (node : Element) (path path' : String) :
    Replays id (checkCascade node path) (checkCascade node path') := by
  unfold checkCascade
  exact .ite (.throw _ _) (.pure rfl)

/-- A many-to-one selects what it selected before. -/
theorem replays_bindManyToOne (scope : Scope) (node : Element) :
    Replays (·.base.selectables) (bindManyToOne scope site node) (bindManyToOne scope site' node) :=
  .bind (replays_bindColumnsOrFormula h node) fun _ _ hsame =>
    .map (replays_checkCascade node _ _) fun _ _ _ => hsame

/-- A one-to-one selects what it selected before. -/
theorem replays_bindOneToOne (scope : Scope) (owner : String) (node : Element) :
    Replays (·.base.selectables) (bindOneToOne scope site owner node)
      (bindOneToOne scope site' owner node) :=
  .bind (replays_bindNamedColumns h node) fun _ _ hsame =>
    .map (replays_checkCascade node _ _) fun _ _ _ => hsame

/-- The columns of a reference to any class are named by its element alone. -/
theorem replays_bindAny (scope : Scope) (node : Element) :
    Replays (·.base.selectables) (bindAny scope site node) (bindAny scope site' node) := by
  have hsite : ColumnSite.Agrees { site with path := "" } { site' with path := "" } :=
    ⟨h.table, h.nullable, rfl⟩
  exact .get_bind fun _ _ _ => .map (replays_bindNamedColumns hsite node) fun _ _ hsame => hsame

/-- A member that is not a component selects what it selected before. -/
theorem replays_bindSimpleMember (scope : Scope) (node : Element) (tag : Tag) :
    Replays (Option.map Value.selectables) (bindSimpleMember scope site node tag)
      (bindSimpleMember scope site' node tag) := by
  unfold bindSimpleMember
  split
  · exact .map (replays_bindManyToOne h scope node) fun _ _ hsame => congrArg some hsame
  · exact .map (replays_bindAny h scope node) fun _ _ hsame => congrArg some hsame
  · exact .map (replays_bindSimpleValue h node) fun _ _ hsame => congrArg some hsame
  · exact .pure rfl

end

/-! ## Members -/

/-- The references and foreign keys of a property may be others, but not its columns. -/
theorem replays_createProperty (scope : Scope) (node : Element) {v v' : Value}
    (h : v'.selectables = v.selectables) (className className' : Option String) (owner : String) :
    Replays (·.value.selectables) (createProperty scope node v className owner)
      (createProperty scope node v' className' owner) := by
  have hlayout : Replays (fun _ => ()) (createProperty scope node v className owner)
      (createProperty scope node v' className' owner) := by
    unfold createProperty
    refine .bind_same (.ofExcept fun _ _ hn hn' => ?_) fun name => .get_bind fun r₀ r _ => ?_
    · exact Except.ok.inj (hn'.symm.trans hn)
    · refine .bind (.modify (fun s => sameLayout_recordReferences s _ _ _)
        fun s => sameLayout_recordReferences s _ _ _) fun _ _ _ => ?_
      refine .bind (.modify (fun s => sameLayout_constrainValue s _)
        fun s => sameLayout_constrainValue s _) fun _ _ _ => ?_
      exact .ofExcept fun _ _ _ _ => rfl
  exact hlayout.of_yields
    (yields_createProperty_view Value.selectables_reflected scope node v className owner)
    (yields_createProperty_view Value.selectables_reflected scope node v' className' owner)
    fun p p' hp hp' => (hp'.trans h).trans hp.symm

/-- A collection cannot be registered a second time. -/
theorem replays_bindCollection {γ : Type} (view : Value → γ) (scope : Scope) (node : Element)
    (kind : CollectionKind) (role : String) (owner : Owner) :
    Replays view (bindCollection scope node kind role owner)
      (bindCollection scope node kind role owner) := by
  intro r₀ v r₁ hrun
  obtain ⟨hcovered, -, hrole⟩ := covered_of_bindCollection hrun
  refine ⟨hcovered, fun r v' r' hr hrun' => ?_⟩
  obtain ⟨-, hfresh, -⟩ := covered_of_bindCollection hrun'
  exact absurd (hr.roles role hrole) (by simp [hfresh])

/-- The value of a member of a component, if it is one. -/
def bindMember (scope : Scope) (site : ComponentSite) (className : Option String) (node : Element) :
    Binding (Option Value) :=
  let name := (node.attribute? "name").getD ""
  match node.tag? with
  | some (.collection kind) =>
    some <$> bindCollection scope node kind (qualify site.path name) site.owner
  | some .component | some .dynamicComponent | some .nestedCompositeElement =>
    (some ∘ .component) <$> bindComponent scope (site.nested className name) node
  | some .oneToOne =>
    (some ∘ .oneToOne) <$> bindOneToOne scope (site.columnSite name) site.owner.name node
  | some tag => bindSimpleMember scope (site.columnSite name) node tag.asMember
  | none => pure none

/-- Members are bound one after another. -/
theorem bindMembers_cons (scope : Scope) (site : ComponentSite) (className : Option String)
    (node : Element) (rest : List Element) :
    bindMembers scope site className (node :: rest) = (do
      match ← bindMember scope site className node with
      | none => bindMembers scope site className rest
      | some value =>
        let p ← createProperty scope node value className site.owner.name
        let p := if site.isShadow then { p with insertable := false, updatable := false } else p
        return p :: (← bindMembers scope site className rest)) := by
  rw [bindMembers]
  unfold bindMember
  cases node.tag? with
  | none => simp only [pure_bind]
  | some tag =>
    cases tag with
    | collection kind => simp only [map_eq_pure_bind, bind_assoc, pure_bind]
    | component | dynamicComponent | nestedCompositeElement | oneToOne =>
      simp only [map_eq_pure_bind, bind_assoc, pure_bind, Function.comp_apply]
    | _ => rfl

/-- Places of one component that differ in what stands for its class, and in whether the component
shadows an identifier. -/
structure ComponentSite.Agrees (site site' : ComponentSite) : Prop where
  owner : site'.owner = site.owner
  table : site'.table = site.table
  path : site'.path = site.path
  nullable : site'.nullable = site.nullable

namespace ComponentSite.Agrees

variable {site site' : ComponentSite}

/-- Where sites agree, the columns of a member are named alike. -/
theorem columnSite (h : site.Agrees site') (name : String) :
    (site.columnSite name).Agrees (site'.columnSite name) where
  table := h.table
  nullable := h.nullable
  path := (site'.unqualify_columnPath name).trans (site.unqualify_columnPath name).symm

/-- Where sites agree, so do those of nested components. -/
theorem nested (h : site.Agrees site') (className className' : Option String) (name : String) :
    (site.nested className name).Agrees (site'.nested className' name) where
  owner := h.owner
  table := h.table
  path := congrArg (qualify · name) h.path
  nullable := h.nullable

end ComponentSite.Agrees

/-- The columns and formulas of a component. -/
abbrev Component.carried (c : Component) : List Selectable := (Value.component c).selectables

/-- The columns and formulas of some members, in order. -/
abbrev Property.carriedBy (ps : List Property) : List Selectable :=
  ps.flatMap fun p => p.value.selectables

section

variable {site site' : ComponentSite} (h : site.Agrees site') (scope : Scope)
include h

/-- A member is bound alike if a nested component is. -/
theorem replays_bindMember (className className' : Option String) (node : Element)
    (hcomponent : ∀ name, Replays Component.carried
      (bindComponent scope (site.nested className name) node)
      (bindComponent scope (site'.nested className' name) node)) :
    Replays (Option.map Value.selectables) (bindMember scope site className node)
      (bindMember scope site' className' node) := by
  have hnested : ∀ name, Replays (Option.map Value.selectables)
      ((some ∘ Value.component) <$> bindComponent scope (site.nested className name) node)
      ((some ∘ Value.component) <$> bindComponent scope (site'.nested className' name) node) := by
    intro name
    rw [map_eq_pure_bind, map_eq_pure_bind]
    exact .map (hcomponent name) fun _ _ hsame => congrArg some hsame
  unfold bindMember
  dsimp only
  split
  · rw [map_eq_pure_bind, map_eq_pure_bind, h.path, h.owner]
    exact .map (replays_bindCollection Value.selectables scope node _ _ _)
      fun _ _ hsame => congrArg some hsame
  · exact hnested _
  · exact hnested _
  · exact hnested _
  · rw [map_eq_pure_bind, map_eq_pure_bind, h.owner]
    exact .map (replays_bindOneToOne (h.columnSite _) scope _ node)
      fun _ _ hsame => congrArg some hsame
  · exact replays_bindSimpleMember (h.columnSite _) scope node _
  · exact .pure rfl

end

mutual

/-- A component is bound alike wherever it is declared: the walks descend together. -/
theorem replays_bindComponent (scope : Scope) {site site' : ComponentSite}
    (h : site.Agrees site') : ∀ node, Replays Component.carried
      (bindComponent scope site node) (bindComponent scope site' node)
  | ⟨name, attributes, children, text⟩ => by
    rw [bindComponent, bindComponent]
    refine .get_bind fun r₀ r _ => ?_
    generalize hnode : Element.mk name attributes children text = node
    obtain ⟨componentClass, isDynamic⟩ := site.classOf scope r₀.options.reflection node
    obtain ⟨componentClass', isDynamic'⟩ := site'.classOf scope r.options.reflection node
    refine .bind (replays_bindMembers _ h _ _ children) fun ps ps' hsame => ?_
    have hcarried : ∀ c c' : Component, c.properties = ps → c'.properties = ps' →
        c'.carried = c.carried := by
      rintro c c' rfl rfl
      rw [Component.carried, Component.carried, Value.selectables_component,
        Value.selectables_component]
      exact hsame
    have hcolumns : ps'.flatMap (·.value.columnNames) = ps.flatMap (·.value.columnNames) := by
      have hnames := congrArg (fun l => (l.filterMap Selectable.column?).map Column.name) hsame
      simp only [Property.carriedBy, List.filterMap_flatMap, List.map_flatMap] at hnames
      exact hnames
    refine .ite ?_ (.pure (hcarried _ _ rfl rfl))
    rw [hcolumns, h.owner]
    exact .map (.changeTable (.createUniqueKey _) _) fun _ _ _ => hcarried _ _ rfl rfl

/-- Members are bound alike, one after another. -/
theorem replays_bindMembers (scope : Scope) {site site' : ComponentSite} (h : site.Agrees site')
    (className className' : Option String) : ∀ children, Replays Property.carriedBy
      (bindMembers scope site className children) (bindMembers scope site' className' children)
  | [] => by
    rw [bindMembers, bindMembers]
    exact .pure rfl
  | node :: rest => by
    have hrest := replays_bindMembers scope h className className' rest
    rw [bindMembers_cons, bindMembers_cons]
    refine .bind (replays_bindMember h scope className className' node fun name =>
      replays_bindComponent scope (h.nested className className' name) node) fun v v' hsame => ?_
    cases v with
    | none =>
      cases v' with
      | none => exact hrest
      | some v' => cases hsame
    | some v =>
      cases v' with
      | none => cases hsame
      | some v' =>
        rw [h.owner]
        refine .bind (replays_createProperty scope node (Option.some.inj hsame) className className'
          site.owner.name) fun p p' hp => .map hrest fun ps ps' hps => ?_
        have hkept : ∀ (isShadow : Bool) (q : Property), (if isShadow = true then
            { q with insertable := false, updatable := false } else q).value = q.value := by
          intro isShadow q
          cases isShadow <;> rfl
        simp only [Property.carriedBy, List.flatMap_cons, hkept, hp]
        exact congrArg (p.value.selectables ++ ·) hps

end

/-! ## Members of a shadow -/

/-- No property inside a value, at any depth, is written. -/
def Value.Unwritten (v : Value) : Prop :=
  ∀ c, Value.component c ∈ v.parts → ∀ p ∈ c.properties, p.insertable = false ∧ p.updatable = false

/-- A value without a component inside has no property that could be written. -/
theorem Value.unwritten_of_parts {v : Value} (h : v.parts = [v]) (hplain : v.component? = none) :
    v.Unwritten := by
  intro c hc
  rw [h, List.mem_singleton] at hc
  rw [← hc] at hplain
  cases hplain

/-- What the backing class knows does not touch the properties inside. -/
theorem Value.unwritten_reflected (reflection : Reflection) (className name : String) (v : Value) :
    (v.reflected reflection className name).Unwritten = v.Unwritten := by
  have hplain : ∀ w : Value, w.parts = [w] → w.component? = none → w.Unwritten = True :=
    fun w hw hnone => eq_true (Value.unwritten_of_parts hw hnone)
  cases v with
  | component | collection | dependant | any | oneToMany => rfl
  | simple | manyToOne | oneToOne => rw [Value.reflected, hplain _ rfl rfl, hplain _ rfl rfl]

/-- A component whose members are not written, nor anything inside them. -/
theorem Value.unwritten_component {c : Component}
    (h : ∀ p ∈ c.properties, (p.insertable = false ∧ p.updatable = false) ∧ p.value.Unwritten) :
    (Value.component c).Unwritten := by
  intro d hd
  rw [Value.parts_component] at hd
  rcases List.mem_cons.mp hd with heq | hin
  · cases heq
    exact fun p hp => (h p hp).1
  · obtain ⟨p, hp, hpart⟩ := List.mem_flatMap.mp hin
    exact (h p hp).2 d hpart

/-- A member of a shadow is not written inside, if a nested component is not. -/
theorem yields_bindMember_unwritten (scope : Scope) (site : ComponentSite)
    (className : Option String) (node : Element)
    (hcomponent : ∀ name, Yields (bindComponent scope (site.nested className name) node)
      fun c => (Value.component c).Unwritten) :
    Yields (bindMember scope site className node) fun v => ∀ w ∈ v, w.Unwritten := by
  have hplain : ∀ w : Value, w.parts = [w] → w.component? = none →
      ∀ u ∈ some w, u.Unwritten := by
    intro w hparts hnone u hu
    cases hu
    exact Value.unwritten_of_parts hparts hnone
  have hnested : ∀ name, Yields
      ((some ∘ Value.component) <$> bindComponent scope (site.nested className name) node)
      fun v => ∀ w ∈ v, w.Unwritten := by
    intro name
    rw [map_eq_pure_bind]
    refine .bind (hcomponent name) fun c hc => .pure fun w hw => ?_
    cases hw
    exact hc
  unfold bindMember bindSimpleMember
  dsimp only
  split
  · rw [map_eq_pure_bind]
    refine .bind (yields_bindCollection scope node _ _ _) fun v hv => .pure ?_
    subst hv
    exact hplain _ rfl rfl
  · exact hnested _
  · exact hnested _
  · exact hnested _
  · rw [map_eq_pure_bind]
    exact .next fun v => .pure (hplain _ rfl rfl)
  · split
    · exact .next fun v => .pure (hplain _ rfl rfl)
    · exact .next fun v => .pure (hplain _ rfl rfl)
    · exact .next fun v => .pure (hplain _ rfl rfl)
    · exact .pure fun w hw => absurd hw (Option.not_mem_none w)
  · exact .pure fun w hw => absurd hw (Option.not_mem_none w)

mutual

/-- Nothing inside a shadow is written. -/
theorem yields_bindComponent_unwritten (scope : Scope) {site : ComponentSite}
    (h : site.isShadow = true) : ∀ node, Yields (bindComponent scope site node)
      fun c => (Value.component c).Unwritten
  | ⟨name, attributes, children, text⟩ => by
    rw [bindComponent]
    refine .next fun r => ?_
    split
    refine .bind (yields_bindMembers_unwritten _ h _ children) fun ps hps => ?_
    exact .ite (fun _ => .next fun _ => .pure (Value.unwritten_component hps))
      fun _ => .pure (Value.unwritten_component hps)

/-- Members of a shadow are written at no depth. -/
theorem yields_bindMembers_unwritten (scope : Scope) {site : ComponentSite}
    (h : site.isShadow = true) (className : Option String) : ∀ children,
    Yields (bindMembers scope site className children) fun ps =>
      ∀ p ∈ ps, (p.insertable = false ∧ p.updatable = false) ∧ p.value.Unwritten
  | [] => by
    rw [bindMembers]
    exact .pure fun _ hp => absurd hp List.not_mem_nil
  | node :: rest => by
    have hrest := yields_bindMembers_unwritten scope h className rest
    rw [bindMembers_cons]
    have hnested : ∀ name, (site.nested className name).isShadow = true := fun _ => h
    refine .bind (yields_bindMember_unwritten scope site className node fun name =>
      yields_bindComponent_unwritten scope (hnested name) node) fun v hv => ?_
    cases v with
    | none => exact hrest
    | some v =>
      refine .bind (yields_createProperty_view Value.unwritten_reflected scope node v className _)
        fun p hp => .bind hrest fun ps hps => .pure ?_
      rw [if_pos h]
      exact List.forall_mem_cons.mpr ⟨⟨⟨rfl, rfl⟩, hp ▸ hv v rfl⟩, hps⟩

end

/-! ## Composite identifiers -/

/-- Where a composite identifier is declared that is mapped twice, and so has no name. -/
def ComponentSite.ofIdentifier (e : Entity) (node : Element) : ComponentSite where
  owner := .ofEntity e
  table := some e.table
  ownerClass := e.className
  path := qualify e.name "id"
  nullable := false
  embedded := !node.hasAttribute "class"

/-- Where its shadow is. -/
def ComponentSite.ofIdentifierMapper (e : Entity) : ComponentSite where
  owner := .ofEntity e
  table := some e.table
  ownerClass := e.className
  path := qualify e.name "id"
  nullable := false
  embedded := true
  isShadow := true

/-- An entity as it is once its composite identifier is bound along with the shadow. -/
structure Entity.Shadowed (e e' : Entity) (id mapper : Component) : Prop where
  root : ∃ data, e'.root? = some data ∧ data.identifierMapper = some mapper ∧
    ∃ c, data.identifierValue? = some (.component c) ∧ c.properties = id.properties
  property : ∃ p, e'.properties = e.properties ++ [p] ∧ p.name = identifierMapperName ∧
    p.value = .component mapper ∧ p.insertable = false ∧ p.updatable = false

/-- The data of a root is changed, and of nothing else. -/
theorem run_changeRoot_eq_ok {e e' : Entity} {f : RootData → RootData} {r r' : Registry} :
    (changeRoot e f).run r = .ok e' r' ↔
      ∃ data, e.kind = .root data ∧ e' = { e with kind := .root (f data) } ∧ r' = r := by
  unfold changeRoot
  cases hkind : e.kind <;>
    simp [Entity.isRoot, Entity.root?, EntityKind.root?, Entity.modifyRoot, EntityKind.modifyRoot,
      hkind, eq_comm]

/-- A composite identifier that is mapped twice is walked twice, and nothing else is written. -/
theorem runs_of_bindCompositeId {scope : Scope} {e e' : Entity} {node : Element} {r r' : Registry}
    (hmapped : node.attributeIs "mapped" "true" = true)
    (h : (bindCompositeId scope e node).run r = .ok e' r') : ∃ id r₁ mapper,
      (bindComponent scope (.ofIdentifier e node) node).run r = .ok id r₁ ∧
      (bindComponent scope (.ofIdentifierMapper e) node).run r₁ = .ok mapper r' ∧
      e.Shadowed e' id mapper := by
  unfold bindCompositeId at h
  cases hname : node.attribute? "name" with
  | some name => simp [hname, hmapped, EStateM.run_bind] at h
  | none =>
    simp only [hname, hmapped, if_true] at h
    rw [if_neg (by simp)] at h
    obtain ⟨id, r₁, hid, h⟩ := run_bind_eq_ok.mp h
    obtain ⟨e₁, r₂, hshadow, h⟩ := run_bind_eq_ok.mp h
    unfold bindIdentifierMapper at hshadow
    obtain ⟨mapper, r₃, hmapper, hmapped⟩ := run_bind_eq_ok.mp hshadow
    obtain ⟨data, hdata, rfl, rfl⟩ := run_changeRoot_eq_ok.mp hmapped
    obtain ⟨data', hdata', rfl, rfl⟩ := run_changeRoot_eq_ok.mp h
    cases hdata'
    refine ⟨id, r₁, mapper, by simpa [ComponentSite.ofIdentifier] using hid, hmapper, ?_, ?_⟩
    · refine ⟨_, rfl, rfl, _, rfl, ?_⟩
      split <;> rfl
    · exact ⟨_, rfl, rfl, rfl, rfl, rfl⟩

/-- The identifier and its shadow are declared alike. -/
theorem ComponentSite.ofIdentifier_agrees (e : Entity) (node : Element) :
    (ofIdentifier e node).Agrees (ofIdentifierMapper e) := ⟨rfl, rfl, rfl, rfl⟩

/-- A composite identifier that is mapped twice has the columns and formulas of its shadow, in the
same order and with the same settings, and so has the property that the shadow is the value of;
nothing inside the shadow is written; and the walk that binds the shadow leaves every table as the
walk before it did, except for foreign keys. -/
theorem mapper_of_bindCompositeId {scope : Scope} {e e' : Entity} {node : Element}
    {r r' : Registry} (hmapped : node.attributeIs "mapped" "true" = true)
    (h : (bindCompositeId scope e node).run r = .ok e' r') : ∃ id r₁ mapper data value p,
      (bindComponent scope (.ofIdentifier e node) node).run r = .ok id r₁ ∧
      (bindComponent scope (.ofIdentifierMapper e) node).run r₁ = .ok mapper r' ∧
      e'.root? = some data ∧ data.identifierValue? = some value ∧
      data.identifierMapper = some mapper ∧ e'.properties = e.properties ++ [p] ∧
      p.name = identifierMapperName ∧ p.value = .component mapper ∧
      value.selectables = (Value.component mapper).selectables ∧
      (∀ c, Value.component c ∈ (Value.component mapper).parts →
        ∀ q ∈ c.properties, q.insertable = false ∧ q.updatable = false) ∧
      ∀ table, (r'.table? table).map Table.withoutForeignKeys
        = (r₁.table? table).map Table.withoutForeignKeys := by
  obtain ⟨id, r₁, mapper, hid, hmapper, ⟨data, hdata, hshadow, c, hvalue, hmembers⟩,
    p, hproperties, hname, hcomponent, -⟩ := runs_of_bindCompositeId hmapped h
  obtain ⟨hcovered, hagain⟩ := replays_bindComponent scope
    (ComponentSite.ofIdentifier_agrees e node) node _ _ _ hid
  obtain ⟨hrepeats, hsame⟩ := hagain _ _ _ (.refl r₁) hmapper
  refine ⟨id, r₁, mapper, data, .component c, p, hid, hmapper, hdata, hvalue, hshadow, hproperties,
    hname, hcomponent, ?_, ?_, hrepeats.table? hcovered⟩
  · have hcarried : (Value.component c).selectables = id.carried := by
      rw [Component.carried, Value.selectables_component, Value.selectables_component, hmembers]
    rw [hcarried]
    exact hsame.symm
  · exact yields_bindComponent_unwritten scope rfl node _ _ _ hmapper

/-- A composite identifier with a class of its own, a nested component and a reference, and with
indexes and unique keys. -/
def invoiceKey : Element where
  name := "composite-id"
  attributes := .ofList [("class", "InvoiceKey"), ("mapped", "true"), ("unique", "true")]
  children := [
    { name := "key-property", attributes := .ofList [("name", "serial.number"), ("index", "i")] },
    { name := "component"
      attributes := .ofList [("name", "period"), ("class", "Period")]
      children := [
        { name := "property"
          attributes := .ofList [("name", "firstDay"), ("unique-key", "u")] }] },
    { name := "key-many-to-one", attributes := .ofList [("name", "buyer"), ("class", "Person")] }]

/-- The class that it identifies. -/
def invoice : Entity where
  name := "shop.Invoice"
  className := some "shop.Invoice"
  kind := .root {}
  table := ⟨0⟩

/-- A registry with the table of the class only. -/
def invoiceTable : Registry :=
  (({ options := { naming := .snake } } : Registry).addTable { name := "invoice" }).1

/-- Binding it, where the document has no defaults of its own. -/
def bindInvoiceKey : Binding Entity := bindCompositeId ⟨{}, .empty⟩ invoice invoiceKey

/-- The columns of the identifier that an entity is left with. -/
def Entity.identifierColumns (e : Entity) : List String :=
  ((e.root?.bind RootData.identifierValue?).map Value.columnNames).getD []

/-- The two walks name the same columns, although they take the paths of the properties from
different places. -/
theorem mapper_of_bindCompositeId_invoice :
    invoiceKey.attributeIs "mapped" "true" = true ∧ ∃ e' r' id r₁ data value mapper,
      bindInvoiceKey.run invoiceTable = .ok e' r' ∧
      e'.identifierColumns = ["number", "first_day", "buyer"] ∧
      (bindComponent ⟨{}, .empty⟩ (.ofIdentifier invoice invoiceKey) invoiceKey).run invoiceTable
        = .ok id r₁ ∧
      e'.root? = some data ∧ data.identifierValue? = some value ∧
      data.identifierMapper = some mapper ∧
      value.selectables = (Value.component mapper).selectables ∧
      ∀ table, (r'.table? table).map Table.withoutForeignKeys
        = (r₁.table? table).map Table.withoutForeignKeys := by
  have hmapped : invoiceKey.attributeIs "mapped" "true" = true := by decide +kernel
  obtain ⟨e', hrun⟩ := exists_run_of_succeeds (m := bindInvoiceKey) (r := invoiceTable)
    (by decide +kernel)
  have hcolumns : (match bindInvoiceKey.run invoiceTable with
      | .ok e _ => e.identifierColumns
      | .error _ _ => []) = ["number", "first_day", "buyer"] := by decide +kernel
  rw [hrun] at hcolumns
  obtain ⟨id, r₁, mapper, data, value, p, hid, -, hroot, hvalue, hmapper, -, -, -, hsame, -,
    htables⟩ := mapper_of_bindCompositeId hmapped hrun
  exact ⟨hmapped, e', _, id, r₁, data, value, mapper, hrun, hcolumns, hid, hroot, hvalue, hmapper,
    hsame, htables⟩

end ObjectMapping
