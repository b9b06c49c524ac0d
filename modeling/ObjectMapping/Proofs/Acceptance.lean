import ObjectMapping.Registry.Basic

/-!
# What the registry accepts

A registration is refused if its name is taken, and is otherwise all that is written: what is
registered comes after what was there.  So what is found afterwards is what was registered, or was
found before.  Tables and imports may be asked for more than once.
-/

namespace ObjectMapping.Registry

variable {r r' : Registry}

/-- An accepted entity was not registered before, and is appended. -/
theorem addEntity_eq_ok {e : Entity} : r.addEntity e = .ok r' ↔
    r.hasEntity e.name = false ∧ r' = { r with entities := r.entities.insert e.name e } := by
  by_cases h : r.hasEntity e.name = true
  · simp [addEntity, h]
  · simp [addEntity, h, eq_comm]

/-- An accepted entity is found under its name, and other names lead where they did. -/
theorem entity?_of_addEntity {e : Entity} (h : r.addEntity e = .ok r') (name : String) :
    r'.entity? name = if name = e.name then some e else r.entity? name := by
  obtain ⟨-, rfl⟩ := addEntity_eq_ok.mp h
  exact KeyedList.get?_insert r.entities e.name name e

/-- In particular, an accepted entity is found. -/
theorem entity?_self_of_addEntity {e : Entity} (h : r.addEntity e = .ok r') :
    r'.entity? e.name = some e := by
  rw [entity?_of_addEntity h, if_pos rfl]

/-- What is found after an entity was accepted is that entity, or was found before. -/
theorem eq_or_of_entity?_addEntity {e e' : Entity} (h : r.addEntity e = .ok r') {name : String}
    (he' : r'.entity? name = some e') : name = e.name ∧ e' = e ∨ r.entity? name = some e' := by
  rw [entity?_of_addEntity h] at he'
  split at he'
  · next hname => exact .inl ⟨hname, (Option.some.inj he').symm⟩
  · exact .inr he'

/-- What was found before an entity was accepted is still found. -/
theorem entity?_of_addEntity_of_some {e e₀ : Entity} (h : r.addEntity e = .ok r') {name : String}
    (he₀ : r.entity? name = some e₀) : r'.entity? name = some e₀ := by
  have hother : name ≠ e.name := by
    rintro rfl
    have hnew : (r.entities.get? e.name).isSome = false :=
      (KeyedList.isSome_get? _ _).trans (addEntity_eq_ok.mp h).1
    rw [show r.entities.get? e.name = some e₀ from he₀] at hnew
    cases hnew
  rw [entity?_of_addEntity h, if_neg hother, he₀]

/-- An accepted collection was not registered before, and is appended. -/
theorem addCollection_eq_ok {c : Collection} : r.addCollection c = .ok r' ↔
    r.collections.contains c.role = false ∧
      r' = { r with collections := r.collections.insert c.role c } := by
  by_cases h : r.collections.contains c.role = true
  · simp [addCollection, h]
  · simp [addCollection, h, eq_comm]

/-- An accepted collection is found under its role, and other roles lead where they did. -/
theorem collection?_of_addCollection {c : Collection} (h : r.addCollection c = .ok r')
    (role : String) :
    r'.collection? role = if role = c.role then some c else r.collection? role := by
  obtain ⟨-, rfl⟩ := addCollection_eq_ok.mp h
  exact KeyedList.get?_insert r.collections c.role role c

/-- In particular, an accepted collection is found. -/
theorem collection?_self_of_addCollection {c : Collection} (h : r.addCollection c = .ok r') :
    r'.collection? c.role = some c := by
  rw [collection?_of_addCollection h, if_pos rfl]

/-- What is found after a collection was accepted is that collection, or was found before. -/
theorem eq_or_of_collection?_addCollection {c c' : Collection} (h : r.addCollection c = .ok r')
    {role : String} (hc' : r'.collection? role = some c') :
    role = c.role ∧ c' = c ∨ r.collection? role = some c' := by
  rw [collection?_of_addCollection h] at hc'
  split at hc'
  · next hrole => exact .inl ⟨hrole, (Option.some.inj hc').symm⟩
  · exact .inr hc'

/-- What was found before a collection was accepted is still found. -/
theorem collection?_of_addCollection_of_some {c c₀ : Collection} (h : r.addCollection c = .ok r')
    {role : String} (hc₀ : r.collection? role = some c₀) : r'.collection? role = some c₀ := by
  have hother : role ≠ c.role := by
    rintro rfl
    have hfresh := KeyedList.not_contains_iff.mp (addCollection_eq_ok.mp h).1
    rw [collection?, KeyedList.get?_eq_none_iff.mpr hfresh] at hc₀
    cases hc₀
  rw [collection?_of_addCollection h, if_neg hother, hc₀]

/-- A rewritten collection is read under its role and nowhere else. -/
theorem collection?_modifyCollection (r : Registry) (role other : String)
    (f : Collection → Collection) : (r.modifyCollection role f).collection? other
      = (r.collection? other).map fun c => if other = role then f c else c :=
  KeyedList.get?_modify r.collections role other f

/-- What is found after a collection was replaced is the new one, or was found before. -/
theorem eq_or_of_collection?_replaced {c c' : Collection} {role other : String}
    (hc' : (r.modifyCollection role fun _ => c).collection? other = some c') :
    other = role ∧ c' = c ∨ r.collection? other = some c' := by
  rw [collection?_modifyCollection] at hc'
  obtain ⟨c₀, hc₀, hsame⟩ := Option.map_eq_some_iff.mp hc'
  split at hsame
  · next hrole => exact .inl ⟨hrole, hsame.symm⟩
  · exact .inr (hsame ▸ hc₀)

/-- The name of an accepted query is that of no query of either kind. -/
theorem addQuery_eq_ok {q : NamedQuery} : r.addQuery q = .ok r' ↔
    r.hasQuery q.name = false ∧ r' = { r with queries := r.queries.insert q.name q } := by
  by_cases h : r.hasQuery q.name = true
  · simp [addQuery, h]
  · simp [addQuery, h, eq_comm]

/-- So is the name of an accepted native query. -/
theorem addSqlQuery_eq_ok {q : NamedSqlQuery} : r.addSqlQuery q = .ok r' ↔
    r.hasQuery q.name = false ∧ r' = { r with sqlQueries := r.sqlQueries.insert q.name q } := by
  by_cases h : r.hasQuery q.name = true
  · simp [addSqlQuery, h]
  · simp [addSqlQuery, h, eq_comm]

theorem addResultSet_eq_ok {s : ResultSet} : r.addResultSet s = .ok r' ↔
    r.resultSets.contains s.name = false ∧
      r' = { r with resultSets := r.resultSets.insert s.name s } := by
  by_cases h : r.resultSets.contains s.name = true
  · simp [addResultSet, h]
  · simp [addResultSet, h, eq_comm]

/-- An accepted import is there already, or is written; it replaces an import of another class only
where that is not refused. -/
theorem addImportUnless_eq_ok {refuse : Bool} {target shortName : String} :
    r.addImportUnless refuse target shortName = .ok r' ↔
      r.import? shortName = some target ∧ r' = r ∨
      (∀ existing, r.import? shortName = some existing → existing ≠ target ∧ refuse = false) ∧
        r' = { r with imports := r.imports.insert shortName target } := by
  unfold addImportUnless
  cases himport : r.import? shortName with
  | none => simp [eq_comm]
  | some existing =>
    by_cases hsame : existing = target
    · simp [hsame, eq_comm]
    · cases refuse <;> simp [hsame, Ne.symm hsame, eq_comm]

/-- The new table of a request, which may repeat the columns of another. -/
def TableRequest.newTable (q : TableRequest) (denormalizedParent : Option TableId) : Table where
  key := q.key
  subselect := q.subselect
  isAbstract := q.isAbstract
  denormalizedParent

/-- A table that is asked for is there already, and may become concrete, or is appended. -/
theorem addTable_cases (r : Registry) (q : TableRequest) :
    (r.addTable q).1 = r ∨
      (∃ id, (r.addTable q).1 = r.modifyTable id ({ · with isAbstract := false })) ∨
      (r.addTable q).1 = { r with tables := r.tables.insertIfNew q.key (q.newTable none) } := by
  cases hfind : r.findTable? q.key with
  | none =>
    refine .inr (.inr ?_)
    simp only [addTable, hfind]
    rfl
  | some id =>
    simp only [addTable, hfind]
    split
    · exact .inl rfl
    · exact .inr (.inl ⟨id, rfl⟩)

/-- An accepted table that repeats the columns of another is appended. -/
theorem eq_of_addDenormalizedTable {q : TableRequest} {parent id : TableId}
    (h : r.addDenormalizedTable q parent = .ok (r', id)) :
    r' = { r with tables := r.tables.insertIfNew q.key (q.newTable (some parent)) } := by
  unfold addDenormalizedTable at h
  split at h
  · cases h
  · cases h
    rfl

end ObjectMapping.Registry
