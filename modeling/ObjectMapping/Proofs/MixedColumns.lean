import ObjectMapping.Binding.Association
import ObjectMapping.Proofs.Enlistment

/-!
# Column attributes and nested columns

The columns of a value are named by an attribute or by nested elements.  An element that does both
is refused by whatever reads its columns, before anything is written.  One-to-ones and references to
any class always read them.  A simple value and a many-to-one are formulas if their element has a
`formula` attribute, and nothing looks at the columns of such an element: so it is bound, and what
it says of columns is dropped.
-/

namespace ObjectMapping

open Binding

/-! ## Elements that mix -/

namespace Element

/-- Whether an element names a column by attribute, and nests columns or formulas as well. -/
def mixesColumns (node : Element) : Bool :=
  (node.attribute? "column").isSome &&
    node.children.any fun c => c.name = "column" || c.name = "formula"

/-- What an element that mixes is refused with. -/
def mixtureError (node : Element) : MappingError :=
  if (node.child? "column").isSome then .columnAttributeWithColumns
  else .columnAttributeWithFormulas

/-- An element that mixes names a column, and nests columns or else formulas. -/
theorem mixesColumns_iff {node : Element} : node.mixesColumns = true ↔
    (node.attribute? "column").isSome = true ∧
      ((node.child? "column").isSome = true ∨ (node.child? "formula").isSome = true) := by
  simp only [mixesColumns, child?, Bool.and_eq_true, List.any_eq_true, Bool.or_eq_true,
    List.find?_isSome, and_or_left, exists_or]

end Element

/-! ## What binds them -/

section

variable {node : Element} (h : node.mixesColumns = true) (site : ColumnSite) (r : Registry)
include h

/-- The columns of an element that mixes cannot be read. -/
theorem run_bindNamedColumns_of_mixed :
    (bindNamedColumns site node).run r = .error node.mixtureError r := by
  obtain ⟨hattribute, hnested⟩ := Element.mixesColumns_iff.mp h
  obtain ⟨name, hname⟩ := Option.isSome_iff_exists.mp hattribute
  unfold bindNamedColumns Element.mixtureError
  rw [hname]
  dsimp only
  by_cases hcolumn : (node.child? "column").isSome = true
  · rw [if_pos hcolumn, if_pos hcolumn]
    rfl
  · rw [if_neg hcolumn, if_neg hcolumn, if_pos (hnested.resolve_left hcolumn)]
    rfl

/-- Unless an attribute holds a formula, which is all that counts then. -/
theorem run_bindColumnsOrFormula_of_mixed : (bindColumnsOrFormula site node).run r =
    match node.attribute? "formula" with
    | some sql => .ok [.formula sql] r
    | none => .error node.mixtureError r := by
  unfold bindColumnsOrFormula
  cases node.attribute? "formula" with
  | some sql => rfl
  | none => exact run_bind_of_error (run_bindNamedColumns_of_mixed h site r)

/-- A one-to-one always reads its columns. -/
theorem run_bindOneToOne_of_mixed (scope : Scope) (owner : String) :
    (bindOneToOne scope site owner node).run r = .error node.mixtureError r :=
  run_bind_of_error (run_bindNamedColumns_of_mixed h site r)

/-- So does a reference to any class. -/
theorem run_bindAny_of_mixed (scope : Scope) :
    (bindAny scope site node).run r = .error node.mixtureError r := by
  unfold bindAny
  rw [run_get_bind]
  exact run_bind_of_error (run_bindNamedColumns_of_mixed h { site with path := "" } r)

/-- A simple value that is no formula reads its columns. -/
theorem run_bindSimpleValue_of_mixed (hformula : node.attribute? "formula" = none) :
    (bindSimpleValue site node).run r = .error node.mixtureError r := by
  unfold bindSimpleValue
  rw [run_get_bind]
  refine run_bind_of_error ?_
  rw [run_bindColumnsOrFormula_of_mixed h, hformula]

/-- So does a many-to-one that is no formula. -/
theorem run_bindManyToOne_of_mixed (scope : Scope) (hformula : node.attribute? "formula" = none) :
    (bindManyToOne scope site node).run r = .error node.mixtureError r := by
  refine run_bind_of_error ?_
  rw [run_bindColumnsOrFormula_of_mixed h, hformula]

end

/-! ## Formulas -/

section

variable {node : Element} {sql : String} (hformula : node.attribute? "formula" = some sql)
  (site : ColumnSite) (r : Registry)
include hformula

/-- A simple value that is a formula is bound, whatever its element says of columns. -/
theorem run_bindSimpleValue_of_formula :
    ∃ v, (bindSimpleValue site node).run r = .ok v r ∧ v.selectables = [.formula sql] := by
  unfold bindSimpleValue bindColumnsOrFormula
  rw [run_get_bind, hformula]
  exact ⟨_, rfl, rfl⟩

/-- So is a many-to-one, unless it asks to delete orphans. -/
theorem run_bindManyToOne_of_formula (scope : Scope) :
    if (node.attribute? "cascade").any cascadesDeleteOrphan then
      (bindManyToOne scope site node).run r = .error (.orphanDeleteOfSingleValue site.path) r
    else ∃ v, (bindManyToOne scope site node).run r = .ok v r ∧
      v.base.selectables = [.formula sql] := by
  unfold bindManyToOne bindColumnsOrFormula checkCascade
  rw [hformula]
  split
  · rfl
  · exact ⟨_, rfl, rfl⟩

end

/-- An element that mixes is refused as a one-to-one and as a reference to any class, whatever its
other attributes, and as a simple value or a many-to-one just if no attribute holds a formula: the
error says what is mixed, and nothing is written.  With such an attribute the value is the formula,
and a many-to-one is refused only for its cascade. -/
theorem mixedColumns_refused_iff {node : Element} (h : node.mixesColumns = true) (scope : Scope)
    (site : ColumnSite) (owner : String) (r : Registry) :
    (bindOneToOne scope site owner node).run r = .error node.mixtureError r ∧
    (bindAny scope site node).run r = .error node.mixtureError r ∧
    match node.attribute? "formula" with
    | none => (bindSimpleValue site node).run r = .error node.mixtureError r ∧
        (bindManyToOne scope site node).run r = .error node.mixtureError r
    | some sql =>
      (∃ v, (bindSimpleValue site node).run r = .ok v r ∧ v.selectables = [.formula sql]) ∧
        if (node.attribute? "cascade").any cascadesDeleteOrphan then
          (bindManyToOne scope site node).run r = .error (.orphanDeleteOfSingleValue site.path) r
        else ∃ v, (bindManyToOne scope site node).run r = .ok v r ∧
          v.base.selectables = [.formula sql] := by
  refine ⟨run_bindOneToOne_of_mixed h site r scope owner, run_bindAny_of_mixed h site r scope, ?_⟩
  cases hformula : node.attribute? "formula" with
  | none =>
    exact ⟨run_bindSimpleValue_of_mixed h site r hformula,
      run_bindManyToOne_of_mixed h site r scope hformula⟩
  | some sql =>
    exact ⟨run_bindSimpleValue_of_formula hformula site r,
      run_bindManyToOne_of_formula hformula site r scope⟩

/-! ## Totals -/

/-- A property that names a column by attribute and another one by a nested element, with some
further attributes. -/
def mixedTotal (attributes : List (String × String)) : Element where
  name := "property"
  attributes := .ofList ([("name", "total"), ("column", "total")] ++ attributes)
  children := [Session.namedElement "column" "amount" []]

/-- The column of a total that is not stored anywhere. -/
def totalSite : ColumnSite where
  table := none
  nullable := true
  path := "total"

/-- A total that mixes is refused as a many-to-one without a formula, and as a one-to-one with
one; as a simple value with a formula it is that formula. -/
theorem mixedColumns_refused_iff_total :
    (mixedTotal []).mixesColumns = true ∧
      (bindManyToOne default totalSite (mixedTotal [])).run {}
        = .error .columnAttributeWithColumns {} ∧
      (mixedTotal [("formula", "a + b")]).mixesColumns = true ∧
      (bindOneToOne default totalSite "Order" (mixedTotal [("formula", "a + b")])).run {}
        = .error .columnAttributeWithColumns {} ∧
      ∃ v, (bindSimpleValue totalSite (mixedTotal [("formula", "a + b")])).run {} = .ok v {} ∧
        v.selectables = [.formula "a + b"] := by
  have hmixes : ∀ attributes ∈ [[], [("formula", "a + b")]],
      (mixedTotal attributes).mixesColumns = true ∧
        (mixedTotal attributes).mixtureError = .columnAttributeWithColumns := by
    decide +kernel
  obtain ⟨hplain, herror⟩ := hmixes [] (by simp)
  obtain ⟨hformula, herror'⟩ := hmixes [("formula", "a + b")] (by simp)
  have hrefused := mixedColumns_refused_iff hplain default totalSite "Order" {}
  have hbound := mixedColumns_refused_iff hformula default totalSite "Order" {}
  rw [herror] at hrefused
  rw [herror'] at hbound
  exact ⟨hplain, hrefused.2.2.2, hformula, hbound.1, hbound.2.2.1⟩

/-- The columns of a total that mixes are dropped where it has a formula: it is bound as a simple
value. -/
theorem mixedColumns_accepted : ¬ ∀ (scope : Scope) (site : ColumnSite) (owner : String)
    (node : Element) (r : Registry), node.mixesColumns = true →
      (∃ e r', (bindSimpleValue site node).run r = .error e r') ∧
      (∃ e r', (bindManyToOne scope site node).run r = .error e r') ∧
      (∃ e r', (bindOneToOne scope site owner node).run r = .error e r') ∧
      ∃ e r', (bindAny scope site node).run r = .error e r' := by
  intro hclaim
  obtain ⟨⟨e, r', hrun⟩, -⟩ :=
    hclaim default totalSite "Order" (mixedTotal [("formula", "a + b")]) {} (by decide +kernel)
  obtain ⟨v, hbound, -⟩ := run_bindSimpleValue_of_formula
    (show (mixedTotal [("formula", "a + b")]).attribute? "formula" = some "a + b" by
      decide +kernel)
    totalSite {}
  rw [hbound] at hrun
  cases hrun

end ObjectMapping
