import ObjectMapping.Binding.Collection
import ObjectMapping.Proofs.SharedTables

/-!
# The identity of tables

Entities, joins and collections address their tables by position.  A table is asked for in two
ways: an ordinary call answers with the table of a key and makes it only if there is none, and a
call for a table that repeats another one is refused if the key is taken.  A *ledger* is a registry
with the requests that were granted so far and the position that each was answered with.

What a call can do is said once (`TableCall.perform_cases`); a ledger that is `Faithful` stays so
under each call, hence under any sequence of calls to an empty registry.
-/

namespace ObjectMapping.Registry

open Binding

/-! ## Calls -/

/-- A call that asks for a table: for that of a request, or for a new one that repeats the columns
of another. -/
inductive TableCall where
  | table (q : TableRequest)
  | denormalized (q : TableRequest) (parent : TableId)

namespace TableCall

/-- The request that a call makes. -/
def request : TableCall → TableRequest
  | table q => q
  | denormalized q _ => q

/-- What a call does. -/
def perform : TableCall → Binding TableId
  | table q => openTable q
  | denormalized q parent => do
    let (r, id) ← Binding.ofExcept ((← get).addDenormalizedTable q parent)
    set r
    return id

/-- The registry after a table that is there was asked for again. -/
def again (r : Registry) (id : TableId) (q : TableRequest) : Registry :=
  if q.isAbstract then r else r.modifyTable id ({ · with isAbstract := false })

/-- A call answers with the table of its key, or makes one under a fresh key, or is refused as the
key of the table to be made is taken. -/
theorem perform_cases (c : TableCall) (r : Registry) :
    (∃ id, r.findTable? c.request.key = some id ∧ c = table c.request ∧
      c.perform.run r = .ok id (again r id c.request)) ∨
    (r.findTable? c.request.key = none ∧ ∃ parent, c.perform.run r = .ok ⟨r.tables.size⟩
      { r with tables := r.tables.insertIfNew c.request.key (c.request.newTable parent) }) ∨
    (∃ parent, r.findTable? c.request.key ≠ none ∧ c = denormalized c.request parent ∧
      c.perform.run r = .error (.duplicateTable c.request.name) r) := by
  cases c with
  | table q =>
    have hrun : (table q).perform.run r = .ok (r.addTable q).2 (r.addTable q).1 := rfl
    cases hfind : r.findTable? q.key with
    | some id =>
      refine .inl ⟨id, hfind, rfl, ?_⟩
      rw [hrun, addTable, hfind]
      rfl
    | none =>
      refine .inr (.inl ⟨hfind, none, ?_⟩)
      rw [hrun, addTable, hfind]
      rfl
  | denormalized q parent =>
    have hgranted : ∀ r' id, r.addDenormalizedTable q parent = .ok (r', id) →
        (denormalized q parent).perform.run r = .ok id r' := by
      intro r' id hadd
      rw [perform, run_get_bind, hadd]
      rfl
    have hrefused : ∀ e, r.addDenormalizedTable q parent = .error e →
        (denormalized q parent).perform.run r = .error e r := by
      intro e hadd
      rw [perform, run_get_bind, hadd]
      rfl
    cases hfind : r.findTable? q.key with
    | some id =>
      refine .inr (.inr ⟨parent, ?_, rfl, hrefused _ ?_⟩)
      · rw [request, hfind]
        exact Option.some_ne_none id
      · rw [addDenormalizedTable, hfind]
        rfl
    | none =>
      refine .inr (.inl ⟨hfind, some parent, hgranted _ _ ?_⟩)
      rw [addDenormalizedTable, hfind]
      rfl

/-- A table that is asked for again stays what it is, and abstract only if the request says so. -/
theorem table?_again (r : Registry) (id j : TableId) (q : TableRequest) :
    (again r id q).table? j = (r.table? j).map fun t =>
      if j = id then { t with isAbstract := t.isAbstract && q.isAbstract } else t := by
  unfold again
  split
  · next habstract => cases r.table? j <;> simp [habstract]
  · next hconcrete =>
    rw [table?_modifyTable]
    simp only [hconcrete, Bool.and_false]

/-- Tables stay under their keys when one is asked for again. -/
theorem keyed_again {r : Registry} (hr : r.TablesKeyed) (id : TableId) (q : TableRequest) :
    (again r id q).TablesKeyed := by
  unfold again
  split
  · exact hr
  · exact hr.modifyTable fun _ _ => rfl

end TableCall

/-! ## Ledgers -/

/-- A registry, and the requests that were granted with the tables they were answered with, oldest
first. -/
structure Ledger where
  registry : Registry
  grants : List (TableRequest × TableId) := []

namespace Ledger

/-- The ledger after a call.  A call that is refused is not entered. -/
def call (l : Ledger) (c : TableCall) : Ledger :=
  match c.perform.run l.registry with
  | .ok id r => ⟨r, l.grants ++ [(c.request, id)]⟩
  | .error _ r => { l with registry := r }

/-- The ledger after a sequence of calls. -/
def calls (l : Ledger) (cs : List TableCall) : Ledger := cs.foldl call l

/-- Whether a request for a key was granted. -/
def Grants (l : Ledger) (key : TableKey) : Prop := ∃ g ∈ l.grants, g.1.key = key

/-- Whether all requests that were granted for a key asked for an abstract table. -/
def OnlyAbstract (l : Ledger) (key : TableKey) : Prop :=
  ∀ g ∈ l.grants, g.1.key = key → g.1.isAbstract = true

/-- Each granted request still leads to its table, and each table is there for requests that were
granted, and abstract if these all asked for that. -/
structure Faithful (l : Ledger) : Prop where
  keyed : l.registry.TablesKeyed
  found : ∀ g ∈ l.grants, l.registry.findTable? g.1.key = some g.2
  granted : ∀ id t, l.registry.table? id = some t → l.Grants t.key
  isAbstract : ∀ id t, l.registry.table? id = some t →
    (t.isAbstract = true ↔ l.OnlyAbstract t.key)

/-- Nothing was granted in an empty registry. -/
theorem faithful_empty (options : RegistryOptions) : Faithful ⟨{ options }, []⟩ where
  keyed := fun _ _ _ h => by cases h
  found := fun _ h => absurd h List.not_mem_nil
  granted := fun _ _ h => by cases h
  isAbstract := fun _ _ h => by cases h

variable {l : Ledger}

/-- The ledger after one more request was granted asks more for the key of that request only. -/
theorem onlyAbstract_append {r : Registry} {q : TableRequest} {id : TableId} {key : TableKey} :
    OnlyAbstract ⟨r, l.grants ++ [(q, id)]⟩ key ↔
      l.OnlyAbstract key ∧ (q.key = key → q.isAbstract = true) := by
  simp only [OnlyAbstract, List.mem_append, List.mem_singleton, or_imp, forall_and, forall_eq]

/-- What was granted for a key stays granted. -/
theorem Grants.append {r : Registry} {g : TableRequest × TableId} {key : TableKey}
    (h : l.Grants key) : Grants ⟨r, l.grants ++ [g]⟩ key :=
  let ⟨g', hg', hkey⟩ := h
  ⟨g', List.mem_append_left _ hg', hkey⟩

/-- A ledger stays faithful when a table that is there is asked for again. -/
theorem Faithful.again (hl : l.Faithful) {q : TableRequest} {id : TableId}
    (hfind : l.registry.findTable? q.key = some id) :
    Faithful ⟨TableCall.again l.registry id q, l.grants ++ [(q, id)]⟩ := by
  have hkeyed := TableCall.keyed_again hl.keyed id q
  have hkept : ∀ {key j}, l.registry.findTable? key = some j →
      (TableCall.again l.registry id q).findTable? key = some j := by
    intro key j h
    obtain ⟨t, ht, rfl⟩ := hl.keyed.findTable?_eq_some_iff.mp h
    refine hkeyed.findTable?_eq_some_iff.mpr ⟨_, by rw [TableCall.table?_again, ht]; rfl, ?_⟩
    split <;> rfl
  refine ⟨hkeyed, fun g hg => ?_, fun j t' ht' => ?_, fun j t' ht' => ?_⟩
  · rcases List.mem_append.mp hg with hold | hnew
    · exact hkept (hl.found g hold)
    · cases List.mem_singleton.mp hnew
      exact hkept hfind
  · rw [TableCall.table?_again] at ht'
    obtain ⟨t, ht, rfl⟩ := Option.map_eq_some_iff.mp ht'
    have hgranted :=
      (hl.granted j t ht).append (r := TableCall.again l.registry id q) (g := (q, id))
    split <;> exact hgranted
  · rw [TableCall.table?_again] at ht'
    obtain ⟨t, ht, rfl⟩ := Option.map_eq_some_iff.mp ht'
    have hfound := hl.keyed.findTable?_eq_some_iff.mpr ⟨t, ht, rfl⟩
    rw [onlyAbstract_append]
    split
    · next hsame =>
      -- The table of the request: it is abstract if it was, and the request asks for that.
      obtain ⟨t₀, ht₀, hkey⟩ := hl.keyed.findTable?_eq_some_iff.mp hfind
      have htable : t₀ = t := Option.some.inj (ht₀.symm.trans (hsame ▸ ht))
      rw [Bool.and_eq_true, hl.isAbstract j t ht]
      exact and_congr_right fun _ => ⟨fun h _ => h, fun h => h (htable ▸ hkey.symm)⟩
    · next hother =>
      have hkey : q.key ≠ t.key := fun hkey =>
        hother (Option.some.inj (hfound.symm.trans (hkey ▸ hfind)))
      rw [hl.isAbstract j t ht]
      exact ⟨fun h => ⟨h, fun hsame => absurd hsame hkey⟩, And.left⟩

/-- A ledger stays faithful when a table is made under a fresh key. -/
theorem Faithful.append (hl : l.Faithful) {q : TableRequest} {t : Table} (htkey : t.key = q.key)
    (htabstract : t.isAbstract = q.isAbstract) (hfind : l.registry.findTable? q.key = none) :
    Faithful ⟨{ l.registry with tables := l.registry.tables.insertIfNew q.key t },
      l.grants ++ [(q, ⟨l.registry.tables.size⟩)]⟩ := by
  rw [← htkey] at hfind ⊢
  set r' : Registry := { l.registry with tables := l.registry.tables.insertIfNew t.key t }
  have hkeyed : r'.TablesKeyed := hl.keyed.append t
  have htables : ∀ j : TableId, r'.table? j =
      if j.index = l.registry.tables.size then some t else l.registry.table? j := fun j =>
    KeyedList.getIdx?_insertIfNew l.registry.tables (not_contains_of_findTable? hfind) t j.index
  have hfresh : ∀ {j t'}, l.registry.table? j = some t' → t'.key ≠ t.key := by
    intro j t' ht' hsame
    rw [hl.keyed.findTable?_eq_some_iff.mpr ⟨t', ht', hsame⟩] at hfind
    cases hfind
  refine ⟨hkeyed, fun g hg => ?_, fun j t' ht' => ?_, fun j t' ht' => ?_⟩
  · rcases List.mem_append.mp hg with hold | hnew
    · obtain ⟨t', ht', hkey⟩ := hl.keyed.findTable?_eq_some_iff.mp (hl.found g hold)
      refine hkeyed.findTable?_eq_some_iff.mpr ⟨t', ?_, hkey⟩
      rw [htables, if_neg (Nat.ne_of_lt (index_lt_size ht')), ht']
    · cases List.mem_singleton.mp hnew
      exact hkeyed.findTable?_eq_some_iff.mpr ⟨t, by rw [htables, if_pos rfl], htkey⟩
  · rw [htables] at ht'
    split at ht'
    · cases ht'
      exact ⟨_, List.mem_append_right _ (List.mem_singleton.mpr rfl), htkey.symm⟩
    · exact (hl.granted j t' ht').append
  · rw [htables] at ht'
    rw [onlyAbstract_append]
    split at ht'
    · cases ht'
      -- Nothing was granted for the key of the new table.
      have hnone : l.OnlyAbstract t.key := by
        intro g hg hkey
        rw [← hkey, hl.found g hg] at hfind
        cases hfind
      rw [htabstract]
      exact ⟨fun h => ⟨hnone, fun _ => h⟩, fun h => h.2 htkey.symm⟩
    · rw [hl.isAbstract j t' ht']
      exact ⟨fun h => ⟨h, fun hsame => absurd (htkey.trans hsame).symm (hfresh ht')⟩, And.left⟩

/-- A ledger stays faithful under a call. -/
theorem Faithful.call (hl : l.Faithful) (c : TableCall) : (l.call c).Faithful := by
  unfold Ledger.call
  obtain ⟨id, hfind, -, hrun⟩ | ⟨hfind, parent, hrun⟩ | ⟨parent, -, -, hrun⟩ :=
    c.perform_cases l.registry
  · rw [hrun]
    exact hl.again hfind
  · rw [hrun]
    exact hl.append rfl rfl hfind
  · rw [hrun]
    exact hl

/-- A ledger stays faithful under any sequence of calls. -/
theorem Faithful.calls (hl : l.Faithful) (cs : List TableCall) : (l.calls cs).Faithful := by
  induction cs generalizing l with
  | nil => exact hl
  | cons c cs ih => exact ih (hl.call c)

/-- What was granted stays in the ledger. -/
theorem mem_grants_calls {g : TableRequest × TableId} (hg : g ∈ l.grants) (cs : List TableCall) :
    g ∈ (l.calls cs).grants := by
  induction cs generalizing l with
  | nil => exact hg
  | cons c cs ih =>
    refine ih ?_
    unfold Ledger.call
    split
    · exact List.mem_append_left _ hg
    · exact hg

/-- Two requests were answered with one table if and only if they have one key. -/
theorem Faithful.id_eq_iff (hl : l.Faithful) {g h : TableRequest × TableId} (hg : g ∈ l.grants)
    (hh : h ∈ l.grants) : g.2 = h.2 ↔ g.1.key = h.1.key := by
  constructor
  · intro hid
    obtain ⟨t, ht, hkey⟩ := hl.keyed.findTable?_eq_some_iff.mp (hl.found g hg)
    obtain ⟨t', ht', hkey'⟩ := hl.keyed.findTable?_eq_some_iff.mp (hl.found h hh)
    rw [hid, ht'] at ht
    cases ht
    exact hkey.symm.trans hkey'
  · intro hkey
    have hfound := hl.found g hg
    rw [hkey, hl.found h hh] at hfound
    exact (Option.some.inj hfound).symm

/-- No table is found under a key if and only if no request for it was granted. -/
theorem Faithful.findTable?_eq_none_iff (hl : l.Faithful) {key : TableKey} :
    l.registry.findTable? key = none ↔ ∀ g ∈ l.grants, g.1.key ≠ key := by
  constructor
  · intro hnone g hg hkey
    rw [← hkey, hl.found g hg] at hnone
    cases hnone
  · intro hfresh
    cases hfind : l.registry.findTable? key with
    | none => rfl
    | some id =>
      obtain ⟨t, ht, hkey⟩ := hl.keyed.findTable?_eq_some_iff.mp hfind
      obtain ⟨g, hg, hgranted⟩ := hl.granted id t ht
      exact absurd (hgranted.trans hkey) (hfresh g hg)

end Ledger

/-- A table that repeats another one is made if and only if no table is found under its key. -/
theorem TableCall.denormalized_ok_iff (r : Registry) (q : TableRequest) (parent : TableId) :
    (∃ id r', (denormalized q parent).perform.run r = .ok id r') ↔ r.findTable? q.key = none := by
  obtain ⟨_, -, hordinary, -⟩ | ⟨hnone, _, hrun⟩ | ⟨_, htaken, -, hrun⟩ :=
    (denormalized q parent).perform_cases r
  · cases hordinary
  · exact iff_of_true ⟨_, _, hrun⟩ hnone
  · refine iff_of_false ?_ htaken
    rintro ⟨id, r', hok⟩
    rw [hrun] at hok
    cases hok

/-- A call that is refused names the table and leaves the registry as it was. -/
theorem TableCall.eq_of_perform_error {c : TableCall} {r r' : Registry} {e : MappingError}
    (h : c.perform.run r = .error e r') : e = .duplicateTable c.request.name ∧ r' = r := by
  obtain ⟨_, -, -, hrun⟩ | ⟨-, _, hrun⟩ | ⟨_, -, -, hrun⟩ := c.perform_cases r <;>
    rw [hrun] at h <;> cases h
  exact ⟨rfl, rfl⟩

/-- After any calls to an empty registry, requests were answered with one table just if they have
one key, and stay so: the table of a granted request has its key, and is found under it, whatever is
asked for later.  A table is abstract just if all requests granted for its key asked for that.
Ordinary requests are granted.  A table that repeats another one is granted just if nothing was
granted for its key, and a call that is refused changes nothing. -/
theorem tables_identified_by_key (options : RegistryOptions) (cs : List TableCall) :
    let l := Ledger.calls ⟨{ options }, []⟩ cs
    (∀ g ∈ l.grants, ∀ h ∈ l.grants, g.2 = h.2 ↔ g.1.key = h.1.key) ∧
    (∀ later : List TableCall, ∀ g ∈ l.grants, g ∈ (l.calls later).grants ∧
      (l.calls later).registry.findTable? g.1.key = some g.2 ∧
      ∃ t, (l.calls later).registry.table? g.2 = some t ∧ t.key = g.1.key) ∧
    (∀ id t, l.registry.table? id = some t → (∃ g ∈ l.grants, g.2 = id ∧ g.1.key = t.key) ∧
      (t.isAbstract = true ↔ ∀ g ∈ l.grants, g.1.key = t.key → g.1.isAbstract = true)) ∧
    (∀ q, ∃ id r, (TableCall.table q).perform.run l.registry = .ok id r) ∧
    (∀ q parent, (∃ id r, (TableCall.denormalized q parent).perform.run l.registry = .ok id r) ↔
      ∀ g ∈ l.grants, g.1.key ≠ q.key) ∧
    ∀ (c : TableCall) e r, c.perform.run l.registry = .error e r →
      e = .duplicateTable c.request.name ∧ r = l.registry := by
  intro l
  have hl : l.Faithful := (Ledger.faithful_empty options).calls cs
  refine ⟨fun g hg h hh => hl.id_eq_iff hg hh, fun later g hg => ?_, fun id t ht => ?_,
    fun q => ⟨_, _, rfl⟩, fun q parent => ?_, fun c e r h => TableCall.eq_of_perform_error h⟩
  · have hlater := hl.calls later
    have hgranted := Ledger.mem_grants_calls hg later
    have hfound := hlater.found g hgranted
    exact ⟨hgranted, hfound, hlater.keyed.findTable?_eq_some_iff.mp hfound⟩
  · obtain ⟨g, hg, hkey⟩ := hl.granted id t ht
    have hid : some g.2 = some id :=
      (hl.found g hg).symm.trans (hl.keyed.findTable?_eq_some_iff.mpr ⟨t, ht, hkey.symm⟩)
    exact ⟨⟨g, hg, Option.some.inj hid, hkey⟩, hl.isAbstract id t ht⟩
  · rw [TableCall.denormalized_ok_iff, hl.findTable?_eq_none_iff]

/-- A query is known by its text, so its table is that of the plain name with the same text; it
becomes concrete as the plain name asks for that.  The table of a taken key is not made again. -/
theorem tables_identified_by_key_query :
    let cats : TableRequest := { name := "CATS", isAbstract := true }
    let query : TableRequest := { name := "view", schema := some "zoo", subselect := some "CATS" }
    let l := Ledger.calls ⟨{ options := {} }, []⟩
      [.table cats, .denormalized { cats with schema := some "zoo" } ⟨0⟩, .table query,
        .denormalized query ⟨1⟩]
    l.grants = [(cats, ⟨0⟩), ({ cats with schema := some "zoo" }, ⟨1⟩), (query, ⟨0⟩)] ∧
      (∀ g ∈ l.grants, ∀ h ∈ l.grants, g.2 = h.2 ↔ g.1.key = h.1.key) ∧
      (l.registry.table? ⟨0⟩).map Table.isAbstract = some false ∧
      (l.registry.table? ⟨1⟩).map Table.isAbstract = some true :=
  ⟨by decide +kernel, (tables_identified_by_key {} _).1, by decide +kernel, by decide +kernel⟩

end ObjectMapping.Registry
