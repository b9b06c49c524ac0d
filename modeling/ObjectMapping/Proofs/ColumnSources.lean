import Mathlib.Data.List.Forall2
import ObjectMapping.Proofs.Outline
import ObjectMapping.Proofs.ValueBinding
import ObjectMapping.Proofs.Workload

/-!
# Sources of columns

Each column of a value is described by an element: by a `column` element, by the one that names the
column in an attribute, or by the one that it is made up for.  If that element does not say whether
the column may be null, a default decides, with which the value is bound.

Which elements describe the columns of a property, and with which default each of them, can be read
off the element of the property.  The default of a body only reaches the columns of the properties
and associations that stand in it directly: one-to-ones, and components with all that is in them,
have columns that may be null by default, whatever the body says.
-/

namespace ObjectMapping

open Binding Registry

/-! ## Elements that describe columns -/

/-- What a column is described by: an element, and whether the column may be null if the element
does not say. -/
structure ColumnSource where
  element : Element
  nullable : Bool

namespace ColumnSource

/-- A column has the settings that its source gives it. -/
def Describes (source : ColumnSource) (c : Column) : Prop :=
  ∃ named : Column, named.describedBy source.element source.nullable = .ok c

/-- Whether the columns of a source may be null. -/
def allowsNull (source : ColumnSource) : Bool :=
  ((source.element.attribute? "not-null").map (· == "false")).getD source.nullable

/-- The element of a source has the last word on whether a column may be null. -/
theorem Describes.nullable {source : ColumnSource} {c : Column} (h : source.Describes c) :
    c.nullable = source.allowsNull := by
  obtain ⟨named, hc⟩ := h
  unfold Column.describedBy at hc
  obtain ⟨_, -, hc⟩ := except_bind_eq_ok.mp hc
  obtain ⟨_, -, hc⟩ := except_bind_eq_ok.mp hc
  obtain ⟨_, -, hc⟩ := except_bind_eq_ok.mp hc
  cases hc
  rfl

/-- If the element does not say, it is the default that counts. -/
theorem allowsNull_of_unsaid {source : ColumnSource}
    (h : source.element.attribute? "not-null" = none) : source.allowsNull = source.nullable := by
  rw [allowsNull, h]
  rfl

end ColumnSource

namespace Element

variable (nullable : Bool)

/-- Whether an element names columns or formulas. -/
def selects (node : Element) : Bool :=
  (node.attribute? "column").isSome ||
    node.children.any fun c => c.name = "column" || c.name = "formula"

/-- The sources of the columns that the `column` elements among some children name. -/
def nestedSources (children : List Element) : List ColumnSource :=
  (children.filter fun c => c.name = "column").map (⟨·, nullable⟩)

/-- The sources of the columns that an element names. -/
def namedSources (node : Element) : List ColumnSource :=
  if (node.attribute? "column").isSome then [⟨node, nullable⟩]
  else nestedSources nullable node.children

/-- The sources of the columns of a value that has one column if its element names none, unless it
is a formula. -/
def ownSources (node : Element) : List ColumnSource :=
  if (node.attribute? "formula").isSome then []
  else if node.selects then node.namedSources nullable
  else [⟨node, nullable⟩]

/-- The sources of the columns of a simple member that is bound under a tag. -/
def simpleSources (node : Element) : Tag → List ColumnSource
  | .manyToOne | .property => node.ownSources nullable
  | .any => node.namedSources nullable
  | _ => []

mutual

/-- The sources of the columns of a component. -/
def componentSources : Element → List ColumnSource
  | ⟨_, _, children, _⟩ => memberSources children

/-- The sources of the columns of the members of a component. -/
def memberSources : List Element → List ColumnSource
  | [] => []
  | node :: rest =>
    let first := match node.tag? with
      | some .component | some .dynamicComponent | some .nestedCompositeElement =>
        componentSources node
      | some .oneToOne => node.namedSources nullable
      | some tag => node.simpleSources nullable tag.asMember
      | none => []
    first ++ memberSources rest

end

/-- The sources of the columns of a property in a body with a default. -/
def bodySources (node : Element) : List ColumnSource :=
  match node.tag? with
  | some .oneToOne => node.namedSources true
  | some .component | some .dynamicComponent | some .properties => node.componentSources true
  | some tag => node.simpleSources nullable tag
  | none => []

/-- The default of a body counts for what stands in it as a property or an association. -/
theorem nullable_of_mem_bodySources {nullable : Bool} {node : Element} {source : ColumnSource}
    (htag : node.tag?.any Tag.isSimpleMember) (h : source ∈ node.bodySources nullable) :
    source.nullable = nullable := by
  have hnamed : source ∈ node.namedSources nullable → source.nullable = nullable := by
    intro h
    unfold namedSources nestedSources at h
    split at h
    · rw [List.mem_singleton.mp h]
    · obtain ⟨c, -, rfl⟩ := List.mem_map.mp h
      rfl
  have hown : source ∈ node.ownSources nullable → source.nullable = nullable := by
    intro h
    unfold ownSources at h
    split_ifs at h
    · cases h
    · exact hnamed h
    · rw [List.mem_singleton.mp h]
  unfold bodySources at h
  cases hnode : node.tag? with
  | none => simp [hnode] at htag
  | some tag =>
    rw [hnode] at h htag
    cases tag with
    | manyToOne | property => exact hown h
    | any => exact hnamed h
    | _ => cases htag

end Element

/-! ## Columns that are described -/

/-- Columns and formulas, the columns among which are described by some sources one by one. -/
def SelectedFrom (sources : List ColumnSource) (ss : List Selectable) : Prop :=
  List.Forall₂ ColumnSource.Describes sources (ss.filterMap Selectable.column?)

namespace SelectedFrom

variable {sources sources' : List ColumnSource} {ss ss' : List Selectable}

/-- No source selects nothing. -/
theorem nil : SelectedFrom [] [] := List.Forall₂.nil

/-- A column comes from the source in front of the others. -/
theorem cons {source : ColumnSource} {c : Column} (hc : source.Describes c)
    (h : SelectedFrom sources ss) : SelectedFrom (source :: sources) (.column c :: ss) :=
  List.Forall₂.cons hc h

/-- A formula has no source. -/
theorem formula (sql : String) (h : SelectedFrom sources ss) :
    SelectedFrom sources (.formula sql :: ss) := h

/-- What two lists of sources select is selected by both together. -/
theorem append (h : SelectedFrom sources ss) (h' : SelectedFrom sources' ss') :
    SelectedFrom (sources ++ sources') (ss ++ ss') := by
  rw [SelectedFrom, List.filterMap_append]
  exact List.rel_append h h'

end SelectedFrom

/-! ## Columns -/

/-- A registered column is selected as it is. -/
theorem yields_registerColumn (table : Option TableId) (c : Column) (sources : List Element) :
    Yields (registerColumn table c sources) fun s => s = .column c :=
  .next fun _ => .pure rfl

/-- Nested columns are described by their elements. -/
theorem yields_bindNestedColumns (site : ColumnSite) (owner : Element) (position : Nat)
    (children : List Element) :
    Yields (bindNestedColumns site owner position children) fun ss =>
      SelectedFrom (Element.nestedSources site.nullable children) ss ∧
        ss.isEmpty = !children.any fun c => c.name = "column" || c.name = "formula" := by
  induction children generalizing position with
  | nil => exact .pure ⟨.nil, rfl⟩
  | cons child rest ih =>
    rw [bindNestedColumns]
    by_cases hcolumn : child.name = "column"
    · rw [if_pos hcolumn]
      refine .next fun name => .next fun r => .bind (.ofExcept fun _ => id) fun c hc => ?_
      refine .bind (yields_registerColumn _ _ _) fun s hs => .bind (ih _) fun ss hss => .pure ?_
      subst hs
      have hsources : Element.nestedSources site.nullable (child :: rest)
          = ⟨child, site.nullable⟩ :: Element.nestedSources site.nullable rest := by
        simp [Element.nestedSources, hcolumn]
      rw [hsources]
      exact ⟨hss.1.cons ⟨_, hc⟩, by simp [hcolumn]⟩
    · have hsources : Element.nestedSources site.nullable (child :: rest)
          = Element.nestedSources site.nullable rest := by
        simp [Element.nestedSources, hcolumn]
      rw [if_neg hcolumn, hsources]
      refine .ite (fun hformula => ?_) fun hformula => ?_
      · exact .bind (ih _) fun ss hss => .pure ⟨hss.1.formula _, by simp [hformula]⟩
      · exact (ih _).mono fun ss hss => ⟨hss.1, by simp [hss.2, hcolumn, hformula]⟩

/-- A column may be described by the element of its owner. -/
theorem yields_bindOwnColumn (site : ColumnSite) (node : Element) (name : String) :
    Yields (bindOwnColumn site node name) fun ss =>
      SelectedFrom [⟨node, site.nullable⟩] ss ∧ ss.isEmpty = false := by
  unfold bindOwnColumn
  refine .bind (.ofExcept fun _ => id) fun c hc => .bind (yields_registerColumn _ _ _)
    fun s hs => .pure ?_
  subst hs
  exact ⟨.cons ⟨_, hc⟩ .nil, rfl⟩

/-- Columns come from the named sources, and there are some if the element selects any. -/
theorem yields_bindNamedColumns (site : ColumnSite) (node : Element) :
    Yields (bindNamedColumns site node) fun ss =>
      SelectedFrom (node.namedSources site.nullable) ss ∧ ss.isEmpty = !node.selects := by
  unfold bindNamedColumns Element.namedSources Element.selects
  split
  · next name hname =>
    rw [hname, Option.isSome_some, if_pos rfl, Bool.true_or]
    have hown : Yields (do bindOwnColumn site node ((← get).naming.column name)) fun ss =>
        SelectedFrom [⟨node, site.nullable⟩] ss ∧ ss.isEmpty = false :=
      .next fun _ => yields_bindOwnColumn site node _
    refine .ite (fun _ => .throw_bind _ _ _) fun _ => ?_
    exact .ite (fun _ => .throw_bind _ _ _) fun _ => hown
  · next hnone =>
    rw [hnone, Option.isSome_none, if_neg Bool.false_ne_true, Bool.false_or]
    exact yields_bindNestedColumns site node 0 node.children

/-- A value that is no formula has one column at least, unless its element has formulas. -/
theorem yields_bindColumnsOrFormula (site : ColumnSite) (node : Element) :
    Yields (bindColumnsOrFormula site node) (SelectedFrom (node.ownSources site.nullable)) := by
  unfold bindColumnsOrFormula bindColumns Element.ownSources
  split
  · next sql hsql =>
    rw [hsql, Option.isSome_some, if_pos rfl]
    exact .pure (.formula sql .nil)
  · next hnone =>
    rw [hnone, Option.isSome_none, if_neg Bool.false_ne_true]
    refine .bind (yields_bindNamedColumns site node) fun ss hss => ?_
    rw [hss.2]
    refine .ite (fun hempty => ?_) fun hsome => .pure ?_
    · rw [if_neg (by simpa using hempty)]
      exact .next fun _ => (yields_bindOwnColumn site node _).mono fun _ h => h.1
    · rw [if_pos (by simpa using hsome)]
      exact hss.1

/-! ## Values -/

/-- The columns and formulas of a value, if there is one. -/
def selectablesOf (o : Option Value) : List Selectable := o.elim [] Value.selectables

/-- Columns of a many-to-one come from its own sources. -/
theorem yields_columns_bindManyToOne (scope : Scope) (site : ColumnSite) (node : Element) :
    Yields (bindManyToOne scope site node) fun v =>
      SelectedFrom (node.ownSources site.nullable) v.base.selectables := by
  unfold bindManyToOne
  exact .bind (yields_bindColumnsOrFormula site node) fun _ hss => .next fun _ => .pure hss

/-- A one-to-one has the columns that its element names. -/
theorem yields_columns_bindOneToOne (scope : Scope) (site : ColumnSite) (owner : String)
    (node : Element) : Yields (bindOneToOne scope site owner node) fun v =>
      SelectedFrom (node.namedSources site.nullable) v.base.selectables := by
  unfold bindOneToOne
  exact .bind (yields_bindNamedColumns site node) fun _ hss => .next fun _ => .pure hss.1

/-- Columns of an `any` come from its named sources. -/
theorem yields_columns_bindAny (scope : Scope) (site : ColumnSite) (node : Element) :
    Yields (bindAny scope site node) fun v =>
      SelectedFrom (node.namedSources site.nullable) v.base.selectables := by
  unfold bindAny
  exact .next fun _ => .bind (yields_bindNamedColumns _ node) fun _ hss => .pure hss.1

/-- Columns of a simple value come from its own sources. -/
theorem yields_columns_bindSimpleValue (site : ColumnSite) (node : Element) :
    Yields (bindSimpleValue site node) fun v =>
      SelectedFrom (node.ownSources site.nullable) v.selectables := by
  unfold bindSimpleValue
  exact .next fun _ => .bind (yields_bindColumnsOrFormula site node) fun _ hss => .pure hss

/-- A simple member has the columns that its element describes. -/
theorem yields_columns_bindSimpleMember (scope : Scope) (site : ColumnSite) (node : Element)
    (tag : Tag) : Yields (bindSimpleMember scope site node tag) fun o =>
      SelectedFrom (node.simpleSources site.nullable tag) (selectablesOf o) := by
  cases tag with
  | manyToOne => exact .bind (yields_columns_bindManyToOne _ site node) fun _ hv => .pure hv
  | any => exact .bind (yields_columns_bindAny _ site node) fun _ hv => .pure hv
  | property => exact .bind (yields_columns_bindSimpleValue site node) fun _ hv => .pure hv
  | _ => exact .pure .nil

/-- A property has the columns of the value that it is made of. -/
theorem yields_columns_createProperty (scope : Scope) (node : Element) (v : Value)
    (className : Option String) (owner : String) :
    Yields (createProperty scope node v className owner)
      fun p => p.value.selectables = v.selectables :=
  yields_createProperty_view Value.selectables_reflected scope node v className owner

mutual

/-- The columns of a component are described by the elements of its members. -/
theorem yields_columns_bindComponent (scope : Scope) (site : ComponentSite) : ∀ node : Element,
    Yields (bindComponent scope site node) fun c =>
      SelectedFrom (node.componentSources site.nullable) (Value.component c).selectables
  | ⟨name, attributes, children, text⟩ => by
    rw [bindComponent, Element.componentSources]
    refine .next fun r => ?_
    split
    refine .bind (yields_columns_bindMembers _ site _ children) fun ps hps => ?_
    have hdone : ∀ c : Component, c.properties = ps →
        SelectedFrom (Element.memberSources site.nullable children)
          (Value.component c).selectables := by
      rintro c rfl
      rw [Value.selectables_component]
      exact hps
    exact .ite (fun _ => .next fun _ => .pure (hdone _ rfl)) fun _ => .pure (hdone _ rfl)

/-- Members are bound one after another, each with the columns that its element describes. -/
theorem yields_columns_bindMembers (scope : Scope) (site : ComponentSite)
    (className : Option String) : ∀ children : List Element,
    Yields (bindMembers scope site className children) fun ps =>
      SelectedFrom (Element.memberSources site.nullable children)
        (ps.flatMap fun p => p.value.selectables)
  | [] => by
    rw [bindMembers]
    exact .pure .nil
  | node :: rest => by
    unfold bindMembers
    extract_lets name others
    have hothers : ∀ sources o, SelectedFrom sources (selectablesOf o) →
        Yields (others o) fun ps =>
          SelectedFrom (sources ++ Element.memberSources site.nullable rest)
            (ps.flatMap fun p => p.value.selectables) := by
      intro sources o hfirst
      have hrest := yields_columns_bindMembers scope site className rest
      cases o with
      | none => exact hrest.mono fun ps hps => hfirst.append hps
      | some v =>
        refine .bind (yields_columns_createProperty scope node v _ _)
          fun p hp => .bind hrest fun ps hps => .pure ?_
        rw [List.flatMap_cons]
        refine .append ?_ hps
        split <;> exact hp ▸ hfirst
    clear_value others
    rw [Element.memberSources]
    split
    · rw [‹node.tag? = _›]
      refine .bind (yields_bindCollection scope node _ _ _) fun v hv => hothers _ _ ?_
      subst hv
      exact .nil
    · rw [‹node.tag? = _›]
      exact .bind (yields_columns_bindComponent scope (site.nested className name) node)
        fun c hc => hothers _ _ hc
    · rw [‹node.tag? = _›]
      exact .bind (yields_columns_bindComponent scope (site.nested className name) node)
        fun c hc => hothers _ _ hc
    · rw [‹node.tag? = _›]
      exact .bind (yields_columns_bindComponent scope (site.nested className name) node)
        fun c hc => hothers _ _ hc
    · rw [‹node.tag? = _›]
      exact .bind (yields_columns_bindOneToOne _ (site.columnSite name) _ node)
        fun v hv => hothers _ _ hv
    · next tag _ _ _ _ _ htag =>
      rw [htag]
      refine .bind (yields_columns_bindSimpleMember _ (site.columnSite name) node _)
        fun o ho => ?_
      simp only
      exact hothers _ _ ho
    · rw [‹node.tag? = _›]
      exact hothers _ _ .nil

end

/-- The columns of a property in a body are described by its element, and by those in it. -/
theorem yields_columns_bindBodyValue (scope : Scope) (owner : Owner) (walk : BodyWalk)
    (node : Element) : Yields (bindBodyValue scope owner walk node) fun o =>
      SelectedFrom (node.bodySources walk.nullable) (selectablesOf o) := by
  unfold bindBodyValue Element.bodySources
  dsimp only
  split
  · rw [‹node.tag? = _›]
    refine .bind (yields_bindCollection scope node _ _ _) fun v hv => .pure ?_
    subst hv
    exact .nil
  · rw [‹node.tag? = _›]
    exact .bind (yields_columns_bindOneToOne _ _ _ node) fun v hv => .pure hv
  · rw [‹node.tag? = _›]
    exact .bind (yields_columns_bindComponent _ (bodySite owner _ _ _) node) fun c hc => .pure hc
  · rw [‹node.tag? = _›]
    exact .bind (yields_columns_bindComponent _ (bodySite owner _ _ _) node) fun c hc => .pure hc
  · rw [‹node.tag? = _›]
    exact .bind (yields_columns_bindComponent _ (bodySite owner _ _ _) node) fun c hc => .pure hc
  · next tag _ _ _ _ _ htag =>
    rw [htag]
    simp only
    exact yields_columns_bindSimpleMember scope _ node tag
  · rw [‹node.tag? = _›]
    exact .pure .nil

end ObjectMapping
