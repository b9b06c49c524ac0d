import Mathlib.Data.List.TakeWhile
import ObjectMapping.Proofs.ArrivalOrder
import ObjectMapping.Proofs.Declaration
import ObjectMapping.Proofs.Enlistment

/-!
# Imported names

A class is imported under its own name when it is bound and, unless its document says otherwise,
under its unqualified name.  Imports are written before the class is registered, and stay if it is
refused; an explicit import may name any alias.  Where conflicting imports are refused, all of this
can only ever add to the imports.  So a name that means a class goes on meaning it, whichever
documents are bound later and whether or not that goes well.
-/

namespace ObjectMapping

open Binding Registry

/-- A text is dotted if it has a dot. -/
theorem isDotted_eq_false_iff {name : String} : isDotted name = false ↔ '.' ∉ name.toList := by
  unfold isDotted
  rw [List.any_eq_false]
  exact ⟨fun h hdot => h '.' hdot rfl, fun h c hc heq => h (eq_of_beq heq ▸ hc)⟩

/-- The text after the last dot has no dot. -/
theorem isDotted_unqualify (name : String) : isDotted (unqualify name) = false := by
  rw [isDotted_eq_false_iff]
  unfold unqualify splitLastDot
  dsimp only
  split
  · next htail =>
    split at htail
    · cases htail
      rw [String.toList_ofList, List.mem_reverse]
      exact fun hdot => by simpa using List.mem_takeWhile_imp hdot
    · cases htail
  · next hnone =>
    split at hnone
    · cases hnone
    · next hplain => exact fun hdot => hplain (List.mem_reverse.mpr hdot)

namespace Registry

/-! ## Imports of a class -/

/-- A class is imported under its own name and, if it is dotted and imports are automatic, under its
unqualified name. -/
structure Imported (r : Registry) (auto : Bool) (name : String) : Prop where
  self : r.import? name = some name
  unqualified : auto = true → isDotted name = true → r.import? (unqualify name) = some name

/-- A registry that keeps the imports and the classes of another, and has imported each further
class. -/
structure Introduces (auto : Bool) (r r' : Registry) : Prop where
  options : r'.options = r.options
  imports : ∀ {shortName target : String}, r.import? shortName = some target →
    r'.import? shortName = some target
  entities : ∀ {name : String}, r.hasEntity name = true → r'.hasEntity name = true
  fresh : ∀ {name : String}, r'.hasEntity name = true →
    r.hasEntity name = true ∨ r'.Imported auto name

variable {auto : Bool} {r r' r'' : Registry}

/-- Imports that are kept go on being those of a class. -/
theorem Imported.mono {name : String} (h : r.Imported auto name) (h' : Introduces auto r r') :
    r'.Imported auto name :=
  ⟨h'.imports h.self, fun hauto hdotted => h'.imports (h.unqualified hauto hdotted)⟩

namespace Introduces

/-- Nothing that matters here is written. -/
theorem of_eq (hoptions : r'.options = r.options) (himports : r'.imports = r.imports)
    (hentities : r'.entities.keys = r.entities.keys) : Introduces auto r r' := by
  have hsame : ∀ {name : String}, r'.hasEntity name = true ↔ r.hasEntity name = true := by
    simp only [hasEntity, KeyedList.contains_iff, hentities, implies_true]
  refine ⟨hoptions, fun h => ?_, hsame.mpr, fun h => .inl (hsame.mp h)⟩
  rwa [import?, himports]

/-- Nothing is introduced where nothing is written. -/
theorem refl (r : Registry) : Introduces auto r r := of_eq rfl rfl rfl

/-- A denormalized table introduces no class. -/
theorem of_addDenormalizedTable {q : TableRequest} {parent id : TableId}
    (h : r.addDenormalizedTable q parent = .ok (r', id)) : Introduces auto r r' := by
  cases eq_of_addDenormalizedTable h
  exact of_eq rfl rfl rfl

/-- One introduction may follow another. -/
theorem trans (h : Introduces auto r r') (h' : Introduces auto r' r'') :
    Introduces auto r r'' := by
  refine ⟨h'.options.trans h.options, h'.imports ∘ h.imports, h'.entities ∘ h.entities,
    fun hname => ?_⟩
  rcases h'.fresh hname with hold | hnew
  · exact (h.fresh hold).imp_right (·.mono h')
  · exact .inr hnew

end Introduces

/-- Conflicting imports are refused, and classes are introduced. -/
def introducing (auto : Bool) : Upkeep where
  invariant r := r.options.rejectConflictingImports = true
  keeps := Introduces auto
  refl := .refl
  trans := .trans

/-- What introduces classes goes on refusing conflicting imports. -/
theorem Introduces.advances (h : Introduces auto r r')
    (hr : r.options.rejectConflictingImports = true) : (introducing auto).Advances r r' :=
  ⟨h, show r'.options.rejectConflictingImports = true from h.options ▸ hr⟩

/-! ## Writes -/

/-- An accepted import is added to the others. -/
theorem introduces_of_addImportUnless {target shortName : String}
    (h : r.addImportUnless true target shortName = .ok r') :
    Introduces auto r r' ∧ r'.import? shortName = some target := by
  obtain ⟨hthere, rfl⟩ | ⟨hfresh, rfl⟩ := addImportUnless_eq_ok.mp h
  · exact ⟨.refl _, hthere⟩
  · refine ⟨⟨rfl, fun {name existing} hexisting => ?_, id, .inl⟩, ?_⟩
    · rw [import?, KeyedList.get?_insert, if_neg]
      · exact hexisting
      · rintro rfl
        exact Bool.noConfusion (hfresh existing hexisting).2
    · rw [import?, KeyedList.get?_insert, if_pos rfl]

/-- A quiet write introduces no class, and replaces no import. -/
theorem QuietWrite.introduces (h : QuietWrite r r')
    (hr : r.options.rejectConflictingImports = true) : Introduces auto r r' := by
  cases h with
  | addImport h hrefuse =>
    rw [hrefuse hr] at h
    exact (introduces_of_addImportUnless h).1
  | addTable q =>
    rcases r.addTable_cases q with h | ⟨id, h⟩ | h <;> rw [h] <;> exact .of_eq rfl rfl rfl
  | addDenormalizedTable h => exact .of_addDenormalizedTable h
  | addQuery h =>
    obtain ⟨-, rfl⟩ := addQuery_eq_ok.mp h
    exact .of_eq rfl rfl rfl
  | addSqlQuery h =>
    obtain ⟨-, rfl⟩ := addSqlQuery_eq_ok.mp h
    exact .of_eq rfl rfl rfl
  | addResultSet h =>
    obtain ⟨-, rfl⟩ := addResultSet_eq_ok.mp h
    exact .of_eq rfl rfl rfl
  | table | tableBinding | auxiliaryObject | propertyReference | defaults =>
    exact .of_eq rfl rfl rfl

/-- Nothing but imports and registered classes matters, and elaboration registers none. -/
theorem introduces_of_elaboration (h : Elaboration r r')
    (hr : r.options.rejectConflictingImports = true) : Introduces auto r r' := by
  cases h with
  | change => exact .of_eq rfl rfl (KeyedList.keys_modify _ _ _)
  | prepare h =>
    cases h with
    | quiet h => exact h.introduces hr
    | collection h =>
      obtain ⟨-, rfl⟩ := addCollection_eq_ok.mp h
      exact .of_eq rfl rfl rfl
    | propertyRef => exact .of_eq rfl rfl rfl
    | mark => exact .of_eq rfl rfl (KeyedList.keys_modify _ _ _)

/-- A class that was imported may be registered. -/
theorem introduces_of_addEntity {e : Entity} (he : r.Imported auto e.name)
    (h : r.addEntity e = .ok r') : Introduces auto r r' := by
  obtain ⟨-, rfl⟩ := addEntity_eq_ok.mp h
  have hkeys : ∀ {name : String}, ({ r with entities := r.entities.insert e.name e } :
      Registry).hasEntity name = true ↔ name = e.name ∨ r.hasEntity name = true := by
    simp only [hasEntity, KeyedList.contains_iff, KeyedList.mem_keys_insert, implies_true]
  refine ⟨rfl, id, fun h => hkeys.mpr (.inr h), fun hname => ?_⟩
  rcases hkeys.mp hname with rfl | hold
  · exact .inr ⟨he.self, he.unqualified⟩
  · exact .inl hold

end Registry

section

variable {auto : Bool} {r : Registry} {scope : Scope}

/-! ## Opening a class -/

/-- What is elaborated introduces no class unimported, and yields what it yields anyway. -/
theorem introducing_elaborating {α : Type} {m : Binding α} (hm : m.Elaborating) {P : α → Prop}
    (hyields : Yields m P) : Upholds (introducing auto) m r fun a _ => P a :=
  .of_makes hm hyields fun _ _ hstep hr => (introduces_of_elaboration hstep hr).advances hr

/-- What is elaborated does not matter. -/
theorem introducing_elaboration {α : Type} {m : Binding α} (hm : m.Elaborating) :
    Upholds (introducing auto) m r fun _ _ => True :=
  introducing_elaborating hm (P := fun _ => True) fun _ _ _ _ => trivial

/-- In particular, what is prepared does not. -/
theorem introducing_prepares {α : Type} {m : Binding α} (hm : m.Prepares) :
    Upholds (introducing auto) m r fun _ _ => True :=
  introducing_elaboration hm.elaborating

/-- The name of a class is imported before anything else is bound of it. -/
theorem introducing_importEntity (hscope : scope.defaults.autoImport = auto) (name : String) :
    Upholds (introducing auto) (importEntity scope name) r fun _ r' => r'.Imported auto name := by
  unfold importEntity
  refine .bind (P := fun _ r' => r'.import? name = some name) (.register fun r' hr h => ?_)
    fun _ r₁ _ hself => ?_
  · obtain ⟨hintroduces, hself⟩ := introduces_of_addImportUnless h
    exact ⟨hintroduces.advances hr, hself⟩
  · refine .ite (fun hauto => .register fun r' hr h => ?_) fun hauto => .pure ⟨hself, ?_⟩
    · rw [addAutoImport, show r₁.options.rejectConflictingImports = true from hr] at h
      obtain ⟨hintroduces, hunqualified⟩ := introduces_of_addImportUnless h
      exact ⟨hintroduces.advances hr, hintroduces.imports hself, fun _ _ => hunqualified⟩
    · intro hset hdotted
      rw [hscope, hset, hdotted] at hauto
      exact absurd rfl hauto

/-- The name of a class is imported with its header. -/
theorem introducing_bindHeader (hscope : scope.defaults.autoImport = auto) (node : Element)
    (name : String) (kind : EntityKind) (table : TableId) :
    Upholds (introducing auto) (bindHeader scope node name kind table) r
      fun e r' => r'.Imported auto e.name := by
  unfold bindHeader
  exact .bind (introducing_importEntity hscope name) fun _ _ _ himported =>
    .ofExcept_bind fun _ _ => .ofExcept_bind fun _ _ => .pure himported

/-- A subclass was imported by the time that it is bound. -/
theorem introducing_prepareSubclass (hscope : scope.defaults.autoImport = auto)
    (kind : SubclassKind) (superclass : String) (node : Element) :
    Upholds (introducing auto) (prepareSubclass kind scope superclass node) r
      fun e r' => r'.Imported auto e.name := by
  cases kind with
  | plain =>
    refine .bind (introducing_prepares (steady_superclassTable _).prepares) fun _ _ _ _ => ?_
    exact .ofExcept_bind fun name _ => introducing_bindHeader hscope _ _ _ _
  | joined =>
    refine .ofExcept_bind fun name _ => ?_
    refine .bind (introducing_prepares (steady_requestTable _ _ _ _).prepares) fun _ _ _ _ => ?_
    refine .bind (introducing_prepares (steady_openTable _).prepares) fun table _ _ _ => ?_
    refine .bind (introducing_prepares (steady_commentTable _ _).prepares) fun _ _ _ _ => ?_
    refine .require_bind fun keyNode _ => ?_
    refine .bind (introducing_prepares (quiet_bindDependantKey _ _ _ _).prepares) fun _ _ _ _ => ?_
    refine .bind (introducing_prepares (steady_checkTable _ _).prepares) fun _ _ _ _ => ?_
    exact introducing_bindHeader hscope _ _ _ _
  | union =>
    refine .bind (introducing_prepares (steady_superclassTable _).prepares) fun parent _ _ _ => ?_
    refine .ofExcept_bind fun name _ => ?_
    refine .bind (introducing_prepares (steady_requestTable _ _ _ _).prepares)
      fun _ _ _ _ => ?_
    refine .get_bind (.ofExcept_bind fun made hmade => ?_)
    refine .bind (P := fun _ _ => True) (fun hr => ?_) fun _ _ _ _ =>
      introducing_bindHeader hscope _ _ _ _
    have hadded : Introduces auto _ made.1 := .of_addDenormalizedTable hmade
    exact ⟨hadded.advances hr, fun _ _ _ => trivial⟩

/-- So was a root class, the header of which is bound before its rows. -/
theorem introducing_prepareRootClass (hscope : scope.defaults.autoImport = auto) (node : Element) :
    Upholds (introducing auto) (prepareRootClass scope node) r
      fun e r' => r'.Imported auto e.name := by
  unfold prepareRootClass
  refine .ofExcept_bind fun name _ => ?_
  refine .bind (introducing_prepares (steady_requestTable _ _ _ _).prepares) fun _ _ _ _ => ?_
  refine .bind (introducing_prepares (steady_openTable _).prepares) fun table _ _ _ => ?_
  refine .bind (introducing_prepares (steady_commentTable _ _).prepares) fun _ _ _ _ => ?_
  refine .bind (introducing_bindHeader hscope _ _ _ _) fun e _ _ he => ?_
  refine .bind (introducing_prepares (steady_checkTable _ _).prepares) fun _ r₅ hkeeps _ => ?_
  extract_lets rows
  have hrows : ∀ u r', Introduces auto r₅ r' →
      Upholds (introducing auto) (rows u) r' fun e' r' => r'.Imported auto e'.name := by
    intro u r₆ hkeeps'
    refine .bind (introducing_elaborating (prepares_bindRow _ _ _).elaborating
      (yields_bindRow _ _ _)) fun e' r₇ hkeeps'' hskeleton => ?_
    have hname : e'.name = e.name := congrArg EntitySkeleton.name hskeleton
    have he' : r₇.Imported auto e'.name := hname ▸ ((he.mono hkeeps).mono hkeeps').mono hkeeps''
    refine .ite (fun _ => .pure he') fun _ => ?_
    exact .bind (introducing_prepares (quiet_changeTable _ fun t => .setPrimaryKey t _).prepares)
      fun _ _ hkeeps₃ _ => .pure (he'.mono hkeeps₃)
  clear_value rows
  split
  · exact .bind (introducing_prepares (quiet_changeTable _ fun t => .setRowId t _).prepares)
      fun _ r₆ hkeeps' _ => hrows _ r₆ hkeeps'
  · exact hrows _ r₅ (.refl r₅)

/-- A class that was imported is registered. -/
theorem introducing_addEntity {e : Entity} (he : r.Imported auto e.name) :
    Upholds (introducing auto) (Binding.register (·.addEntity e)) r fun _ _ => True :=
  .register fun _ hr h => ⟨(introduces_of_addEntity he h).advances hr, trivial⟩

/-! ## Documents -/

/-- Wherever the walk over a document stops, classes are introduced. -/
theorem walked_introducing :
    Walked (introducing auto) fun scope _ => scope.defaults.autoImport = auto where
  child h _ := h
  descend h _ := h
  steady h hr := (h.quietWrite.introduces hr).advances hr
  openRootClass hscope := by
    unfold openRootClass
    exact .bind (introducing_prepareRootClass hscope _) fun e _ _ he =>
      .bind (introducing_addEntity he) fun _ _ _ _ => .pure trivial
  openSubclass kind _ superclass node hscope := by
    unfold openSubclass registerSubclass
    exact .bind (introducing_prepareSubclass hscope _ _ _) fun e _ _ he =>
      .bind (.bind (introducing_addEntity he) fun _ _ _ _ =>
        introducing_elaboration (supplementing_adoption e.name _ _).elaborating)
      fun _ _ _ _ => .pure trivial
  bindBodyProperty _ _ _ _ := introducing_elaboration (elaborating_bindBodyProperty _ _ _ _)
  bindBodyExtra _ _ _ _ :=
    introducing_elaboration (supplementing_bindBodyExtra _ _ _ _).elaborating

/-- Binding a document introduces its classes, with the imports that the document asks for. -/
theorem introduces_bindDocument (document : Document) (metas : MetaMap)
    (hr : r.options.rejectConflictingImports = true) :
    Introduces (DocumentDefaults.ofRoot document.root).autoImport r
      ((bindDocument document metas).after r) := by
  have hbinds : Upholds (introducing (DocumentDefaults.ofRoot document.root).autoImport)
      (bindDocument document metas) r fun _ _ => True := by
    unfold bindDocument
    refine .get_bind (.ite (fun _ => ?_) fun _ => ?_)
    · refine .bind (walked_introducing.upholds_bindRoot metas (fun _ _ => rfl)
        (.of_writes _ fun h hr => ?_)) fun _ _ _ _ => .pure trivial
      cases h <;> exact Introduces.advances (.of_eq rfl rfl rfl) hr
    · exact .bind (.write fun hr => Introduces.advances (.of_eq rfl rfl rfl) hr) fun _ _ _ _ =>
        .pure trivial
  exact (hbinds.advances hr).keeps

end

/-! ## Sequences of documents -/

namespace Registry

variable {auto : Bool} {r r' : Registry}

/-- Automatic imports may be left out of account. -/
theorem Introduces.weaken (h : Introduces auto r r') : Introduces false r r' :=
  ⟨h.options, h.imports, h.entities, fun hname => (h.fresh hname).imp_right fun himported =>
    ⟨himported.self, nofun⟩⟩

/-- Every class means itself, and each one of a set of classes is meant by its unqualified name. -/
structure Unambiguous (r : Registry) (auto : String → Prop) : Prop where
  self : ∀ name, r.hasEntity name = true →
    r.import? name = some name ∧ r.resolveEntityName? name = some name
  unqualified : ∀ name, auto name → r.resolveEntityName? (unqualify name) = some name
  /-- No two of these classes have the same unqualified name. -/
  injective : ∀ name other, auto name → auto other → unqualify name = unqualify other →
    name = other
  /-- No class is registered under the unqualified name of one of these classes. -/
  unregistered : ∀ name, auto name → r.hasEntity (unqualify name) = false

/-- Classes are unambiguous if all are imported under their own names and some dotted ones are
under their unqualified names, too. -/
theorem unambiguous_of_imported {auto : String → Prop}
    (hself : ∀ name, r.hasEntity name = true → r.import? name = some name)
    (hauto : ∀ name, auto name → isDotted name = true ∧ r.hasEntity name = true ∧
      r.import? (unqualify name) = some name) : r.Unambiguous auto := by
  have hunregistered : ∀ name, auto name → r.hasEntity (unqualify name) = false := by
    intro name hname
    obtain ⟨hdotted, -, himport⟩ := hauto name hname
    rw [Bool.eq_false_iff]
    intro hregistered
    -- The bare name would be imported as itself, and has no dot.
    rw [hself _ hregistered, Option.some.injEq] at himport
    rw [← himport, isDotted_unqualify] at hdotted
    cases hdotted
  refine ⟨fun name hname => ⟨hself name hname, ?_⟩, fun name hname => ?_,
    fun name other hname hother hsame => ?_, hunregistered⟩
  · rw [resolveEntityName?, if_pos hname]
  · obtain ⟨-, hregistered, himport⟩ := hauto name hname
    rw [resolveEntityName?, if_neg (by simp [hunregistered name hname]), himport]
    exact Option.filter_eq_some_iff.mpr ⟨rfl, hregistered⟩
  · have himport := (hauto name hname).2.2
    rw [hsame, (hauto other hother).2.2] at himport
    exact (Option.some.inj himport).symm

end Registry

namespace Session

variable {options : RegistryOptions}

/-- The registry after documents were bound one after another, whether each went well or not. -/
def boundInOrder (options : RegistryOptions) (arrivals : List Arrival) : Registry :=
  arrivals.foldl (fun r arrival => (bindDocument arrival.document arrival.metas).after r)
    { options }

/-- A dotted class was bound by a document with automatic imports. -/
def AutoImported (options : RegistryOptions) (arrivals : List Arrival) (name : String) : Prop :=
  isDotted name = true ∧ ∃ before arrival later, arrivals = before ++ arrival :: later ∧
    (DocumentDefaults.ofRoot arrival.document.root).autoImport = true ∧
    (boundInOrder options before).hasEntity name = false ∧
    (boundInOrder options (before ++ [arrival])).hasEntity name = true

/-- Binding further documents introduces their classes, by induction on the documents. -/
theorem introduces_boundInOrder (h : options.rejectConflictingImports = true)
    (arrivals more : List Arrival) :
    Introduces false (boundInOrder options arrivals) (boundInOrder options (arrivals ++ more)) ∧
      (boundInOrder options (arrivals ++ more)).options = options := by
  have hfold : ∀ (l : List Arrival) (r : Registry), r.options = options →
      Introduces false r (l.foldl
        (fun r arrival => (bindDocument arrival.document arrival.metas).after r) r) := by
    intro l
    induction l with
    | nil => exact fun r _ => .refl r
    | cons arrival l ih =>
      intro r hr
      have hfirst := (introduces_bindDocument arrival.document arrival.metas (hr ▸ h)).weaken
      exact hfirst.trans (ih _ (hfirst.options.trans hr))
  have hwhole := hfold (arrivals ++ more) { options } rfl
  have hbefore := (hfold arrivals { options } rfl).options
  refine ⟨?_, hwhole.options⟩
  rw [boundInOrder, boundInOrder, List.foldl_append]
  exact hfold more _ hbefore

/-- Where conflicting imports are refused, imports stay as they are while documents are bound, and
names are unambiguous throughout. -/
theorem names_unambiguous (h : options.rejectConflictingImports = true)
    (arrivals more : List Arrival) :
    (∀ shortName target, (boundInOrder options arrivals).import? shortName = some target →
      (boundInOrder options (arrivals ++ more)).import? shortName = some target) ∧
    (boundInOrder options arrivals).Unambiguous (AutoImported options arrivals) := by
  refine ⟨fun _ _ => (introduces_boundInOrder h arrivals more).1.imports,
    unambiguous_of_imported (fun name hname => ?_) fun name hname => ?_⟩
  · have hall := (introduces_boundInOrder h [] arrivals).1
    exact (hall.fresh hname).elim (fun hnone => by cases hnone) Imported.self
  · obtain ⟨hdotted, before, arrival, later, rfl, hset, hnew, hregistered⟩ := hname
    have hoptions := (introduces_boundInOrder h [] before).2
    have hstep := introduces_bindDocument arrival.document arrival.metas (hoptions ▸ h)
    have hlater := (introduces_boundInOrder h (before ++ [arrival]) later).1
    rw [List.append_assoc, List.singleton_append] at hlater
    rw [boundInOrder, List.foldl_append, List.foldl_cons, List.foldl_nil] at hregistered hlater
    have himported := (hstep.fresh hregistered).resolve_left (by simpa using hnew)
    exact ⟨hdotted, hlater.entities hregistered,
      hlater.imports (himported.unqualified hset hdotted)⟩

/-- A document with the orders of some package. -/
def packagedOrders (package autoImport : String) : Arrival where
  document :=
    { root :=
        { name := "hibernate-mapping"
          attributes := .ofList [("package", package), ("auto-import", autoImport)]
          children := [identifiedClass "Order" []] } }
  metas := .empty

/-- The orders of the store would take the name of those of the shop, and are refused.  They can be
bound without an automatic import. -/
theorem names_unambiguous_orders :
    let arrivals := [packagedOrders "shop" "true", packagedOrders "store" "true"]
    let later := packagedOrders "store" "false"
    ({} : RegistryOptions).rejectConflictingImports = true ∧
      ((∀ shortName target, (boundInOrder {} arrivals).import? shortName = some target →
        (boundInOrder {} (arrivals ++ [later])).import? shortName = some target) ∧
      (boundInOrder {} arrivals).Unambiguous (AutoImported {} arrivals)) ∧
      AutoImported {} arrivals "shop.Order" ∧
      (boundInOrder {} arrivals).entities.keys = ["shop.Order"] ∧
      (boundInOrder {} (arrivals ++ [later])).entities.keys = ["shop.Order", "store.Order"] ∧
      (boundInOrder {} (arrivals ++ [later])).import? "Order" = some "shop.Order" := by
  intro arrivals later
  refine ⟨rfl, names_unambiguous rfl arrivals [later],
    ⟨rfl, [], _, _, rfl, by decide +kernel, rfl, by decide +kernel⟩, ?_, ?_, ?_⟩
  all_goals decide +kernel

end Session

end ObjectMapping
