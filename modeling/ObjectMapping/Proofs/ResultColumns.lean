import Mathlib.Data.List.Forall2
import ObjectMapping.Binding.Query
import ObjectMapping.Proofs.Run

/-!
# The columns of results

A return of a native query says of each property which columns of the result it is read from.  The
properties are gone through once, in the order of the document, and what they list is collected in
a map that holds the discriminator first, if there is one, under a name that no property may have.
So the discriminator never takes the place of a property: whether a return can be read depends on
its properties alone (`Collectable`), and if it cannot, then the first property at fault says why
(`ReturnFault`).

What one property does to the map is said once (`addPropertyResult_cases`), and what a list of them
does follows by induction.
-/

namespace ObjectMapping

open Binding

/-! ## What is listed -/

namespace Element

/-- The name of a property of a return; a missing one is empty. -/
def resultName (p : Element) : String := (p.attribute? "name").getD ""

/-- The columns that an element lists, as written: that of its attribute, and then those of its
return columns that have a name. -/
def writtenColumns (node : Element) : List String :=
  (node.attribute? "column").toList
    ++ (node.childrenNamed "return-column").filterMap (·.attribute? "name")

/-- An element lists a column, by its attribute or by a return column. -/
def ListsColumn (node : Element) : Prop :=
  (node.attribute? "column").isSome = true ∨
    ∃ c ∈ node.childrenNamed "return-column", (c.attribute? "name").isSome = true

/-- The properties of a return, in the order of the document. -/
def returnProperties (node : Element) : List Element := node.childrenNamed "return-property"

/-- What a return lists columns of, by name: its discriminator, and then its properties. -/
def resultSources (node : Element) : List (String × Element) :=
  (node.child? "return-discriminator").toList.map (fun d => ("class", d))
    ++ node.returnProperties.map fun p => (p.resultName, p)

end Element

/-- How the name of a column is read.  One that starts with a backtick loses it, and then a backtick
at the end, if there is one; any other name stays as it is. -/
inductive Unquoted : String → String → Prop
  | plain {name : String} (h : name.toList.head? ≠ some '`') : Unquoted name name
  | quoted {name : String} : Unquoted ("`" ++ name ++ "`") name
  | opened {name : String} (h : name.toList.getLast? ≠ some '`') : Unquoted ("`" ++ name) name

/-- An entry has the name of a source, and the columns that the source lists. -/
def ListedAs (source : String × Element) (entry : String × List String) : Prop :=
  entry.1 = source.1 ∧ List.Forall₂ Unquoted source.2.writtenColumns entry.2

/-- Names are read without their quotes. -/
theorem unquoted_unquote (name : String) : Unquoted name (unquote name) := by
  obtain ⟨cs, rfl⟩ : ∃ cs, name = String.ofList cs := ⟨name.toList, String.ofList_toList.symm⟩
  unfold unquote
  rw [String.toList_ofList]
  split
  · next cs =>
    split
    · next hlast =>
      have hcs : cs = cs.dropLast ++ ['`'] := (List.dropLast_append_getLast? _ hlast).symm
      have hname : String.ofList ('`' :: cs) = "`" ++ String.ofList cs.dropLast ++ "`" := by
        rw [String.ext_iff]
        simpa using hcs
      rw [hname]
      exact .quoted
    · next hlast =>
      have hname : String.ofList ('`' :: cs) = "`" ++ String.ofList cs := by
        rw [String.ext_iff]
        simp
      rw [hname]
      exact .opened (by simpa using hlast)
  · next hplain =>
    refine .plain fun hhead => ?_
    obtain ⟨cs', hcs'⟩ := List.head?_eq_some_iff.mp hhead
    exact hplain cs' (by simpa using hcs')

/-- The columns of an element are those it lists, without their quotes. -/
theorem unquoted_resultColumns (node : Element) :
    List.Forall₂ Unquoted node.writtenColumns (resultColumns node) := by
  rw [show resultColumns node = node.writtenColumns.map unquote from rfl,
    List.forall₂_map_right_iff, List.forall₂_same]
  exact fun name _ => unquoted_unquote name

/-- An element has columns just if it lists one. -/
theorem isEmpty_resultColumns_eq_false_iff {node : Element} :
    (resultColumns node).isEmpty = false ↔ node.ListsColumn := by
  rw [List.isEmpty_eq_false_iff, show resultColumns node = node.writtenColumns.map unquote from rfl,
    ne_eq, List.map_eq_nil_iff, Element.writtenColumns, List.append_eq_nil_iff, not_and_or]
  refine or_congr ?_ ?_
  · cases node.attribute? "column" <;> simp
  · rw [List.filterMap_eq_nil_iff]
    simp only [not_forall, exists_prop, ← ne_eq, Option.isSome_iff_ne_none]

/-! ## Collecting -/

/-- What lets the properties of a return be collected. -/
structure Collectable (properties : List Element) : Prop where
  /-- No two properties have one name. -/
  distinct : (properties.map Element.resultName).Nodup
  /-- No property has the name of the discriminator. -/
  unreserved : ∀ p ∈ properties, p.resultName ≠ "class"
  /-- Every property lists a column. -/
  listed : ∀ p ∈ properties, p.ListsColumn

/-- Why a property is refused, where some names are taken: a reserved name counts first, and then
that no column is listed. -/
inductive ReturnFault (aliasName : String) (taken : List String) (p : Element) :
    MappingError → Prop
  | reserved (h : p.resultName = "class") : ReturnFault aliasName taken p .reservedReturnProperty
  | unlisted (hname : p.resultName ≠ "class") (h : ¬ p.ListsColumn) :
      ReturnFault aliasName taken p (.returnPropertyWithoutColumns aliasName)
  | repeated (hname : p.resultName ≠ "class") (hlisted : p.ListsColumn)
      (h : p.resultName ∈ taken) :
      ReturnFault aliasName taken p (.duplicateReturnProperty p.resultName aliasName)

/-- A property is refused with its fault, or its columns are added at the end, under a name that is
not taken. -/
theorem addPropertyResult_cases (aliasName : String) (results : KeyedList String (List String))
    (p : Element) :
    (∃ e, addPropertyResult aliasName results p = .error e ∧
      ReturnFault aliasName results.keys p e) ∨
    ∃ results', addPropertyResult aliasName results p = .ok results' ∧
      results'.entries = results.entries ++ [(p.resultName, resultColumns p)] ∧
      p.resultName ≠ "class" ∧ p.ListsColumn ∧ p.resultName ∉ results.keys := by
  have hname : (p.attribute? "name").getD "" = p.resultName := rfl
  simp only [addPropertyResult, discriminatorResult, hname]
  split
  · next hreserved => exact .inl ⟨_, rfl, .reserved hreserved⟩
  · next hunreserved =>
    split
    · next hnone =>
      refine .inl ⟨_, rfl, .unlisted hunreserved fun hlisted => ?_⟩
      rw [isEmpty_resultColumns_eq_false_iff.mpr hlisted] at hnone
      cases hnone
    · next hsome =>
      have hlisted := isEmpty_resultColumns_eq_false_iff.mp (Bool.eq_false_iff.mpr hsome)
      split
      · next htaken =>
        exact .inl ⟨_, rfl, .repeated hunreserved hlisted (KeyedList.contains_iff.mp htaken)⟩
      · next hfree =>
        have hfree := Bool.eq_false_iff.mpr hfree
        refine .inr ⟨_, rfl, ?_, hunreserved, hlisted, KeyedList.not_contains_iff.mp hfree⟩
        rw [KeyedList.insert, dif_pos hfree]
        rfl

/-- Properties can be collected where some names are taken already. -/
def CollectableBeside (taken : List String) (properties : List Element) : Prop :=
  Collectable properties ∧ ∀ p ∈ properties, p.resultName ∉ taken

section

variable {p : Element} {properties earlier later : List Element} {taken : List String}

/-- Nothing stands in the way of no properties. -/
theorem collectableBeside_nil : CollectableBeside taken [] :=
  ⟨⟨.nil, fun _ h => absurd h List.not_mem_nil, fun _ h => absurd h List.not_mem_nil⟩,
    fun _ h => absurd h List.not_mem_nil⟩

/-- A property under a free name may come before others that leave that name to it. -/
theorem CollectableBeside.cons (hunreserved : p.resultName ≠ "class") (hlisted : p.ListsColumn)
    (hfree : p.resultName ∉ taken)
    (h : CollectableBeside (taken ++ [p.resultName]) properties) :
    CollectableBeside taken (p :: properties) := by
  obtain ⟨hcollectable, hothers⟩ := h
  simp only [List.mem_append, List.mem_singleton, not_or] at hothers
  refine ⟨⟨?_, List.forall_mem_cons.mpr ⟨hunreserved, hcollectable.unreserved⟩,
    List.forall_mem_cons.mpr ⟨hlisted, hcollectable.listed⟩⟩,
    List.forall_mem_cons.mpr ⟨hfree, fun q hq => (hothers q hq).1⟩⟩
  rw [List.map_cons, List.nodup_cons]
  refine ⟨fun hmem => ?_, hcollectable.distinct⟩
  obtain ⟨q, hq, hsame⟩ := List.mem_map.mp hmem
  exact (hothers q hq).2 hsame

/-- The name of the discriminator is reserved, so it makes no difference whether it is taken. -/
theorem ReturnFault.of_reserved {aliasName : String} {e : MappingError} {names : List String}
    (htaken : ∀ name ∈ taken, name = "class") (h : ReturnFault aliasName (taken ++ names) p e) :
    ReturnFault aliasName names p e := by
  cases h with
  | reserved hname => exact .reserved hname
  | unlisted hname hunlisted => exact .unlisted hname hunlisted
  | repeated hname hlisted hmem =>
    have hothers := (List.mem_append.mp hmem).resolve_left fun h => hname (htaken _ h)
    exact .repeated hname hlisted hothers

/-- Among properties that can be collected none is at fault where those before it were. -/
theorem Collectable.not_returnFault (h : Collectable (earlier ++ p :: later)) {aliasName : String}
    {e : MappingError} : ¬ ReturnFault aliasName (earlier.map Element.resultName) p e := by
  have hp : p ∈ earlier ++ p :: later := List.mem_append_right _ List.mem_cons_self
  intro hfault
  cases hfault with
  | reserved hname => exact h.unreserved p hp hname
  | unlisted _ hunlisted => exact hunlisted (h.listed p hp)
  | repeated _ _ hearlier =>
    have hdistinct := h.distinct
    rw [List.map_append, List.map_cons, List.nodup_append] at hdistinct
    exact hdistinct.2.2 _ hearlier _ List.mem_cons_self rfl

end

/-- The first property at fault is refused, or the columns of all are added in order, under names
that were not taken. -/
theorem foldlM_addPropertyResult_cases (aliasName : String) (properties : List Element)
    (results : KeyedList String (List String)) :
    (∃ earlier p later e, properties = earlier ++ p :: later ∧
      CollectableBeside results.keys earlier ∧
      ReturnFault aliasName (results.keys ++ earlier.map Element.resultName) p e ∧
      properties.foldlM (addPropertyResult aliasName) results = .error e) ∨
    ∃ results', properties.foldlM (addPropertyResult aliasName) results = .ok results' ∧
      results'.entries
        = results.entries ++ properties.map (fun p => (p.resultName, resultColumns p)) ∧
      CollectableBeside results.keys properties := by
  induction properties generalizing results with
  | nil => exact .inr ⟨results, rfl, by simp, collectableBeside_nil⟩
  | cons p properties ih =>
    rw [List.foldlM_cons]
    obtain ⟨e, hrun, hfault⟩ | ⟨results₁, hrun, hentries, hunreserved, hlisted, hfree⟩ :=
      addPropertyResult_cases aliasName results p
    · refine .inl ⟨[], p, properties, e, rfl, collectableBeside_nil, ?_, by rw [hrun]; rfl⟩
      simpa using hfault
    have hkeys : results₁.keys = results.keys ++ [p.resultName] := by
      rw [KeyedList.keys, hentries, List.map_append]
      rfl
    have hcollected := ih results₁
    rw [hkeys, hentries] at hcollected
    rw [hrun]
    obtain ⟨earlier, q, later, e, hsplit, hearlier, hfault, hrest⟩ |
      ⟨results', hrest, hadded, hothers⟩ := hcollected
    · refine .inl ⟨p :: earlier, q, later, e, by rw [hsplit]; rfl,
        hearlier.cons hunreserved hlisted hfree, ?_, hrest⟩
      simpa using hfault
    · refine .inr ⟨results', hrest, ?_, hothers.cons hunreserved hlisted hfree⟩
      simpa using hadded

/-! ## Returns -/

/-- A return is refused for its first property at fault, or has the columns of its sources, without
their quotes. -/
theorem propertyResults_cases (aliasName : String) (node : Element) :
    (∃ earlier p later e, node.returnProperties = earlier ++ p :: later ∧ Collectable earlier ∧
      ReturnFault aliasName (earlier.map Element.resultName) p e ∧
      propertyResults aliasName node = .error e) ∨
    ∃ results, propertyResults aliasName node = .ok results ∧
      results.entries = node.resultSources.map (fun s => (s.1, resultColumns s.2)) ∧
      Collectable node.returnProperties := by
  let discriminator := (node.child? "return-discriminator").toList.map fun d =>
    (discriminatorResult, resultColumns d)
  have hentries : (KeyedList.ofList discriminator).entries = discriminator := by
    cases hchild : node.child? "return-discriminator" <;> simp [discriminator, hchild] <;> rfl
  have hreserved : ∀ name ∈ (KeyedList.ofList discriminator).keys, name = "class" := by
    rw [KeyedList.keys, hentries]
    simp [discriminator, discriminatorResult]
  obtain ⟨earlier, p, later, e, hsplit, hearlier, hfault, hrun⟩ |
    ⟨results, hrun, hadded, hcollectable⟩ := foldlM_addPropertyResult_cases aliasName
      node.returnProperties (KeyedList.ofList discriminator)
  · exact .inl ⟨earlier, p, later, e, hsplit, hearlier.1, hfault.of_reserved hreserved, hrun⟩
  · refine .inr ⟨results, hrun, ?_, hcollectable.1⟩
    rw [hadded, hentries, Element.resultSources, List.map_append, List.map_map, List.map_map]
    rfl

section

variable {node : Element} {entry : EntityReturn}

/-- An entity of a result has the columns that are collected from its element. -/
theorem propertyResults_of_entityReturn {scope : Scope} {position : Nat}
    (h : entityReturn scope node position = .ok entry) :
    propertyResults entry.aliasName node = .ok entry.propertyResults := by
  unfold entityReturn at h
  dsimp only at h
  split at h
  · cases h
  · obtain ⟨_, -, h⟩ := except_bind_eq_ok.mp h
    obtain ⟨_, hresults, h⟩ := except_bind_eq_ok.mp h
    cases h
    exact hresults

/-- So has what belongs to another return. -/
theorem propertyResults_of_dependentReturn {path : String}
    {source : String → String → ReturnSource} {malformed : String → MappingError}
    (h : dependentReturn node path source malformed = .ok entry) :
    propertyResults entry.aliasName node = .ok entry.propertyResults := by
  unfold dependentReturn at h
  obtain ⟨_, -, h⟩ := except_bind_eq_ok.mp h
  split at h
  · cases h
  · obtain ⟨_, hresults, h⟩ := except_bind_eq_ok.mp h
    cases h
    exact hresults

/-- So has any child of a result that is a return. -/
theorem propertyResults_of_returnOf? {scope : Scope} {position : Nat}
    (h : returnOf? scope node position = .ok (some entry)) :
    propertyResults entry.aliasName node = .ok entry.propertyResults := by
  have hread : ∀ {x : Except MappingError EntityReturn}, some <$> x = .ok (some entry) →
      x = .ok entry := by
    intro x hx
    rw [map_eq_pure_bind] at hx
    obtain ⟨_, hx, hsame⟩ := except_bind_eq_ok.mp hx
    cases hsame
    exact hx
  unfold returnOf? at h
  split at h
  · exact propertyResults_of_entityReturn (hread h)
  · split at h
    · exact propertyResults_of_dependentReturn (hread h)
    · split at h
      · exact propertyResults_of_dependentReturn (hread h)
      · cases h

end

/-- The columns of a return can be read just if the names of its properties, empty where they are
missing, are pairwise different and none is that of the discriminator, and each property lists a
column.  What is read has the discriminator first, if there is one, and then each property in the
order of the document, with the columns it lists: that of its attribute, then those of its return
columns, all without their quotes.  Otherwise the first property at fault is refused.  Whatever kind
of return an element is, these are its columns. -/
theorem propertyResults_collected (aliasName : String) (node : Element) :
    ((∃ results, propertyResults aliasName node = .ok results) ↔
      Collectable node.returnProperties) ∧
    (∀ results, propertyResults aliasName node = .ok results →
      List.Forall₂ ListedAs node.resultSources results.entries) ∧
    (∀ e, propertyResults aliasName node = .error e →
      ∃ earlier p later, node.returnProperties = earlier ++ p :: later ∧ Collectable earlier ∧
        ReturnFault aliasName (earlier.map Element.resultName) p e) ∧
    ∀ scope position entry, returnOf? scope node position = .ok (some entry) →
      propertyResults entry.aliasName node = .ok entry.propertyResults := by
  obtain ⟨earlier, p, later, e, hsplit, hearlier, hfault, hrun⟩ |
    ⟨results, hrun, hentries, hcollectable⟩ := propertyResults_cases aliasName node
  · rw [hrun]
    refine ⟨iff_of_false (fun ⟨_, h⟩ => nomatch h) fun h => ?_, fun _ h => (nomatch h),
      fun e' h => ?_, fun _ _ _ h => propertyResults_of_returnOf? h⟩
    · rw [hsplit] at h
      exact h.not_returnFault hfault
    · cases h
      exact ⟨earlier, p, later, hsplit, hearlier, hfault⟩
  · rw [hrun]
    refine ⟨iff_of_true ⟨results, rfl⟩ hcollectable, fun results' h => ?_, fun _ h => (nomatch h),
      fun _ _ _ h => propertyResults_of_returnOf? h⟩
    cases h
    rw [hentries, List.forall₂_map_right_iff, List.forall₂_same]
    exact fun source _ => ⟨rfl, unquoted_resultColumns source.2⟩

/-- A return of cats, by their names and something more that comes before the discriminator. -/
def catReturn (others : List Element) : Element where
  name := "return"
  attributes := .ofList [("alias", "c"), ("class", "Cat")]
  children :=
    { name := "return-property"
      attributes := .ofList [("name", "name"), ("column", "nick")]
      children := [
        { name := "return-column", attributes := .ofList [("name", "`first`")] },
        { name := "return-column" },
        { name := "return-column", attributes := .ofList [("name", "`last")] }] } ::
    others ++
    [{ name := "return-discriminator", attributes := .ofList [("column", "`kind`")] }]

/-- A property of a return that is read from one column. -/
def agedProperty (name : List (String × String)) : Element where
  name := "return-property"
  attributes := .ofList (name ++ [("column", "`age``")])

/-- Cats are returned with their kind first, and with the age under the empty name where a property
has none, but not where it has the name of another. -/
theorem propertyResults_collected_cat :
    (∃ results, propertyResults "c" (catReturn [agedProperty []]) = .ok results ∧
      results.entries = [("class", ["kind"]), ("name", ["nick", "first", "last"]), ("", ["age`"])] ∧
      List.Forall₂ ListedAs (catReturn [agedProperty []]).resultSources results.entries ∧
      ∃ entry, returnOf? default (catReturn [agedProperty []]) 1 = .ok (some entry) ∧
        propertyResults entry.aliasName (catReturn [agedProperty []])
          = .ok entry.propertyResults) ∧
    propertyResults "c" (catReturn [agedProperty [("name", "name")]])
      = .error (.duplicateReturnProperty "name" "c") ∧
    ∃ earlier p later,
      (catReturn [agedProperty [("name", "name")]]).returnProperties = earlier ++ p :: later ∧
      Collectable earlier ∧
      ReturnFault "c" (earlier.map Element.resultName) p (.duplicateReturnProperty "name" "c") := by
  obtain ⟨-, hlisted, -, hreturn⟩ := propertyResults_collected "c" (catReturn [agedProperty []])
  have hrefused : propertyResults "c" (catReturn [agedProperty [("name", "name")]])
      = .error (.duplicateReturnProperty "name" "c") := by decide +kernel
  refine ⟨⟨_, by rfl, by decide +kernel, hlisted _ rfl, _, by rfl, hreturn _ _ _ rfl⟩, hrefused,
    (propertyResults_collected "c" _).2.2.1 _ hrefused⟩

end ObjectMapping
