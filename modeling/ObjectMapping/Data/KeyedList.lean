/-!
# Keyed lists

A `KeyedList κ α` is a finite map that remembers the order in which its keys first
arrived.  Writing to a key that is present replaces the value and keeps the position;
writing to a fresh key appends.  The stored list never repeats a key, which is part of
the type, so positions and keys determine one another.

The laws beside the definitions say what a reader sees after a write: `get?_insert`,
`get?_modify`, and that the keys only ever grow at the end (`keys_insert_of_mem`,
`keys_insert_of_not_mem`, `keys_modify`).
-/

namespace ObjectMapping

/-- A finite map in the order in which its keys first arrived. -/
structure KeyedList (κ : Type u) (α : Type v) where
  /-- The entries, oldest key first. -/
  entries : List (κ × α)
  /-- No key is stored twice. -/
  nodup_keys : (entries.map Prod.fst).Nodup
deriving DecidableEq

namespace KeyedList

variable {κ : Type u} {α : Type v}

@[ext] theorem ext {m n : KeyedList κ α} (h : m.entries = n.entries) : m = n := by
  cases m; cases n; cases h; rfl

/-- The map without entries. -/
def empty : KeyedList κ α := ⟨[], by simp⟩

instance : EmptyCollection (KeyedList κ α) := ⟨empty⟩

instance : Inhabited (KeyedList κ α) := ⟨empty⟩

/-- The keys, oldest first. -/
def keys (m : KeyedList κ α) : List κ := m.entries.map Prod.fst

/-- The values, in the order of their keys. -/
def values (m : KeyedList κ α) : List α := m.entries.map Prod.snd

/-- The number of entries. -/
def size (m : KeyedList κ α) : Nat := m.entries.length

/-- Whether there is no entry. -/
def isEmpty (m : KeyedList κ α) : Bool := m.entries.isEmpty

/-- The value at a position. -/
def getIdx? (m : KeyedList κ α) (i : Nat) : Option α := m.entries[i]?.map Prod.snd

variable [DecidableEq κ]

/-- The value stored under a key. -/
def get? (m : KeyedList κ α) (k : κ) : Option α :=
  (m.entries.find? fun e => e.1 = k).map Prod.snd

/-- Whether a key is present. -/
def contains (m : KeyedList κ α) (k : κ) : Bool := m.entries.any fun e => e.1 = k

/-- The position of a key. -/
def indexOf? (m : KeyedList κ α) (k : κ) : Option Nat :=
  m.entries.findIdx? fun e => e.1 = k

/-- Presence is membership among the keys. -/
theorem contains_iff {m : KeyedList κ α} {k : κ} : m.contains k = true ↔ k ∈ m.keys := by
  simp [contains, keys]

/-- So is absence. -/
theorem not_contains_iff {m : KeyedList κ α} {k : κ} : m.contains k = false ↔ k ∉ m.keys := by
  rw [← contains_iff]; simp

/-- Rewrites the value stored under a key, if there is one. -/
def modify (m : KeyedList κ α) (k : κ) (f : α → α) : KeyedList κ α where
  entries := m.entries.map fun e => if e.1 = k then (e.1, f e.2) else e
  nodup_keys := by
    have h : (m.entries.map fun e => if e.1 = k then (e.1, f e.2) else e).map Prod.fst
        = m.entries.map Prod.fst := by
      rw [List.map_map]
      apply List.map_congr_left
      intro e _
      by_cases h : e.1 = k <;> simp [h]
    rw [h]
    exact m.nodup_keys

/-- Appends an entry under a key that is not present. -/
def push (m : KeyedList κ α) (k : κ) (v : α) (h : m.contains k = false) : KeyedList κ α where
  entries := m.entries ++ [(k, v)]
  nodup_keys := by
    have hk : k ∉ m.entries.map Prod.fst := not_contains_iff.1 h
    rw [List.map_append, List.nodup_append]
    refine ⟨m.nodup_keys, by simp, ?_⟩
    intro a ha b hb
    simp at hb
    subst hb
    exact fun hab => hk (hab ▸ ha)

/-- Stores a value under a key: in place when the key is present, at the end otherwise. -/
def insert (m : KeyedList κ α) (k : κ) (v : α) : KeyedList κ α :=
  if h : m.contains k = false then m.push k v h else m.modify k fun _ => v

/-- Stores a value under a key unless the key is present. -/
def insertIfNew (m : KeyedList κ α) (k : κ) (v : α) : KeyedList κ α :=
  if h : m.contains k = false then m.push k v h else m

/-- Rewrites the value at a position, if there is one. -/
def modifyIdx (m : KeyedList κ α) (i : Nat) (f : α → α) : KeyedList κ α where
  entries := m.entries.modify i fun e => (e.1, f e.2)
  nodup_keys := by
    have h : (m.entries.modify i fun e => (e.1, f e.2)).map Prod.fst = m.entries.map Prod.fst := by
      apply List.ext_getElem?
      intro j
      simp only [List.getElem?_map, List.getElem?_modify]
      by_cases hij : i = j <;> cases m.entries[j]? <;> simp [hij]
    rw [h]
    exact m.nodup_keys

/-- Stores every pair of a list, first to last. -/
def insertMany (m : KeyedList κ α) (es : List (κ × α)) : KeyedList κ α :=
  es.foldl (fun m e => m.insert e.1 e.2) m

/-- The map of a list of pairs, in which a later pair overrides an earlier one. -/
def ofList (es : List (κ × α)) : KeyedList κ α := insertMany empty es

/-! ## Laws -/

/-- Nothing is found under the keys that are not present, and only there. -/
theorem get?_eq_none_iff {m : KeyedList κ α} {k : κ} : m.get? k = none ↔ k ∉ m.keys := by
  simp only [get?, keys, Option.map_eq_none_iff, List.find?_eq_none, decide_eq_true_eq,
    List.mem_map, not_exists, not_and]

/-- Something is found under a key if the key is present. -/
theorem isSome_get? (m : KeyedList κ α) (k : κ) : (m.get? k).isSome = m.contains k := by
  rw [Bool.eq_iff_iff, contains_iff, Option.isSome_iff_ne_none, ne_eq, get?_eq_none_iff]
  exact Decidable.not_not

/-- Among distinct keys, an entry is the first one of its key. -/
private theorem find?_key_of_mem {es : List (κ × α)} (hnodup : (es.map Prod.fst).Nodup)
    {e : κ × α} (he : e ∈ es) : (es.find? fun e' => e'.1 = e.1) = some e := by
  induction es with
  | nil => cases he
  | cons e' es ih =>
    rw [List.map_cons, List.nodup_cons] at hnodup
    rw [List.find?_cons]
    rcases List.mem_cons.mp he with rfl | hrest
    · simp
    · have hother : e'.1 ≠ e.1 := fun hsame =>
        hnodup.1 (List.mem_map.mpr ⟨e, hrest, hsame.symm⟩)
      simp only [hother, decide_false]
      exact ih hnodup.2 hrest

/-- What is stored under a key is what the entry of that key says. -/
theorem get?_eq_some_iff {m : KeyedList κ α} {k : κ} {v : α} :
    m.get? k = some v ↔ (k, v) ∈ m.entries := by
  constructor
  · intro h
    obtain ⟨e, he, rfl⟩ := Option.map_eq_some_iff.mp h
    have hkey : e.1 = k := by simpa using List.find?_some he
    exact hkey ▸ List.mem_of_find?_eq_some he
  · intro h
    rw [get?, find?_key_of_mem m.nodup_keys h]
    rfl

/-- The values are those stored under the keys, in order. -/
theorem values_eq_filterMap (m : KeyedList κ α) : m.values = m.keys.filterMap m.get? := by
  have hentries : ∀ es : List (κ × α), (∀ e ∈ es, m.get? e.1 = some e.2) →
      es.map Prod.snd = (es.map Prod.fst).filterMap m.get? := by
    intro es hes
    induction es with
    | nil => rfl
    | cons e es ih =>
      rw [List.forall_mem_cons] at hes
      simp [hes.1, ih hes.2]
  exact hentries m.entries fun e he => get?_eq_some_iff.mpr he

/-- Rewriting a value keeps the keys. -/
@[simp] theorem keys_modify (m : KeyedList κ α) (k : κ) (f : α → α) :
    (m.modify k f).keys = m.keys := by
  simp only [keys, modify, List.map_map]
  apply List.map_congr_left
  intro e _
  by_cases h : e.1 = k <;> simp [h]

/-- A fresh key comes last. -/
@[simp] theorem keys_push (m : KeyedList κ α) (k : κ) (v : α) (h) :
    (m.push k v h).keys = m.keys ++ [k] := by
  simp [keys, push]

/-- A present key keeps its position when its value is replaced. -/
theorem keys_insert_of_mem {m : KeyedList κ α} {k : κ} (h : k ∈ m.keys) (v : α) :
    (m.insert k v).keys = m.keys := by
  rw [insert, dif_neg (by simp [contains_iff.2 h]), keys_modify]

/-- A key that is not present is appended. -/
theorem keys_insert_of_not_mem {m : KeyedList κ α} {k : κ} (h : k ∉ m.keys) (v : α) :
    (m.insert k v).keys = m.keys ++ [k] := by
  rw [insert, dif_pos (not_contains_iff.2 h), keys_push]

/-- What is found in a list of entries after one key is rewritten, entry by entry. -/
private theorem find?_modified (es : List (κ × α)) (k j : κ) (f : α → α) :
    ((es.map fun e => if e.1 = k then (e.1, f e.2) else e).find? fun e => e.1 = j).map Prod.snd
      = ((es.find? fun e => e.1 = j).map Prod.snd).map fun v => if j = k then f v else v := by
  induction es with
  | nil => rfl
  | cons e es ih =>
    simp only [List.map_cons, List.find?_cons]
    by_cases hk : e.1 = k
    · by_cases hj : e.1 = j
      · have hjk : j = k := hj ▸ hk
        simp [hk, hjk]
      · have hkj : ¬ k = j := fun h => hj (hk.trans h)
        simp only [hk, if_true, hkj, decide_false]
        simpa [hk, hkj] using ih
    · by_cases hj : e.1 = j
      · have hjk : ¬ j = k := fun h => hk (hj.trans h)
        simp [hj, hjk]
      · simp only [hk, if_false, hj, decide_false]
        exact ih

/-- After the value of a key is rewritten, that key leads to the new value and others lead where
they did. -/
theorem get?_modify (m : KeyedList κ α) (k j : κ) (f : α → α) :
    (m.modify k f).get? j = (m.get? j).map fun v => if j = k then f v else v :=
  find?_modified m.entries k j f

/-- After a fresh key is appended, it leads to its value. -/
theorem get?_push (m : KeyedList κ α) (k j : κ) (v : α) (h) :
    (m.push k v h).get? j = if j = k then some v else m.get? j := by
  simp only [get?, push, List.find?_append]
  by_cases hj : j = k
  · subst hj
    have hn : m.get? j = none := get?_eq_none_iff.2 (not_contains_iff.1 h)
    simp only [get?, Option.map_eq_none_iff] at hn
    simp [hn]
  · have hkj : ¬ k = j := fun h => hj h.symm
    cases m.entries.find? (fun e => decide (e.1 = j)) <;> simp [hj, hkj]

/-- After a value is stored under a key, the key leads to it and others lead where they did. -/
theorem get?_insert (m : KeyedList κ α) (k j : κ) (v : α) :
    (m.insert k v).get? j = if j = k then some v else m.get? j := by
  unfold insert
  split
  · exact get?_push m k j v _
  · next h =>
    rw [get?_modify]
    by_cases hj : j = k
    · subst hj
      have hs : (m.get? j).isSome = true := by rw [isSome_get?]; simpa using h
      obtain ⟨w, hw⟩ := Option.isSome_iff_exists.1 hs
      simp [hw]
    · simp [hj]

/-- What is found after a value is stored under a key, unless the key is present, is that value, or
was found before. -/
theorem get?_insertIfNew {m : KeyedList κ α} {k j : κ} {v w : α}
    (h : (m.insertIfNew k v).get? j = some w) : j = k ∧ w = v ∨ m.get? j = some w := by
  unfold insertIfNew at h
  split at h
  · rw [get?_push] at h
    split at h
    · exact .inl ⟨‹_›, (Option.some.inj h).symm⟩
    · exact .inr h
  · exact .inr h

/-- The values are what the keys lead to. -/
theorem mem_values_iff {m : KeyedList κ α} {v : α} : v ∈ m.values ↔ ∃ k, m.get? k = some v := by
  simp only [values, List.mem_map, get?_eq_some_iff, Prod.exists, exists_eq_right]

/-- A key is present if something is stored under it. -/
theorem mem_keys_iff {m : KeyedList κ α} {k : κ} : k ∈ m.keys ↔ ∃ v, m.get? k = some v := by
  rw [← contains_iff, ← isSome_get?, Option.isSome_iff_exists]

/-- The keys after a value is stored are its key and those from before. -/
theorem mem_keys_insert {m : KeyedList κ α} {k j : κ} {v : α} :
    j ∈ (m.insert k v).keys ↔ j = k ∨ j ∈ m.keys := by
  by_cases h : k ∈ m.keys
  · rw [keys_insert_of_mem h]
    exact ⟨Or.inr, fun hj => hj.elim (fun heq => heq ▸ h) id⟩
  · rw [keys_insert_of_not_mem h, List.mem_append, List.mem_singleton, or_comm]

/-- They are the same ones if an earlier value is kept. -/
theorem mem_keys_insertIfNew {m : KeyedList κ α} {k j : κ} {v : α} :
    j ∈ (m.insertIfNew k v).keys ↔ j = k ∨ j ∈ m.keys := by
  unfold insertIfNew
  split
  · rw [keys_push, List.mem_append, List.mem_singleton, or_comm]
  · next h =>
    have hk : k ∈ m.keys := contains_iff.mp (by simpa using h)
    exact ⟨Or.inr, fun hj => hj.elim (fun heq => heq ▸ hk) id⟩

/-- What is stored after a value is stored under a key is that value, or was stored before. -/
theorem eq_or_mem_of_mem_values_insert {m : KeyedList κ α} {k : κ} {v w : α}
    (h : w ∈ (m.insert k v).values) : w = v ∨ w ∈ m.values := by
  obtain ⟨j, hj⟩ := mem_values_iff.mp h
  rw [get?_insert] at hj
  split at hj
  · exact .inl (Option.some.inj hj).symm
  · exact .inr (mem_values_iff.mpr ⟨j, hj⟩)

/-- What is stored after a value is stored under a key, unless the key is present, is that value,
or was stored before. -/
theorem eq_or_mem_of_mem_values_insertIfNew {m : KeyedList κ α} {k : κ} {v w : α}
    (h : w ∈ (m.insertIfNew k v).values) : w = v ∨ w ∈ m.values := by
  unfold insertIfNew at h
  split at h
  · simp only [values, push, List.map_append, List.mem_append, List.map_cons, List.map_nil,
      List.mem_singleton] at h
    exact h.symm
  · exact .inr h

/-- What holds of every value still does after the value of one key is made if need be and then
changed. -/
theorem forall_values_change {P : α → Prop} {m : KeyedList κ α} (hm : ∀ v ∈ m.values, P v)
    {fresh : α} (hfresh : P fresh) {f : α → α} (hf : ∀ v, P v → P (f v)) (k : κ) :
    ∀ v ∈ ((m.insertIfNew k fresh).modify k f).values, P v := by
  intro v hv
  obtain ⟨j, hj⟩ := mem_values_iff.mp hv
  rw [get?_modify] at hj
  obtain ⟨w, hw, rfl⟩ := Option.map_eq_some_iff.mp hj
  have hold : P w := by
    rcases eq_or_mem_of_mem_values_insertIfNew (mem_values_iff.mpr ⟨j, hw⟩) with rfl | hin
    · exact hfresh
    · exact hm w hin
  split
  · exact hf w hold
  · exact hold

omit [DecidableEq κ] in
/-- Rewriting the value at a position leaves other positions alone. -/
theorem getIdx?_modifyIdx (m : KeyedList κ α) (i j : Nat) (f : α → α) :
    (m.modifyIdx i f).getIdx? j = (m.getIdx? j).map fun v => if j = i then f v else v := by
  simp only [getIdx?, modifyIdx, List.getElem?_modify]
  cases m.entries[j]? with
  | none => rfl
  | some e =>
    by_cases h : i = j
    · simp [h]
    · have hji : ¬ j = i := fun heq => h heq.symm
      simp [h, hji]

/-- A fresh key is stored at the end. -/
theorem getIdx?_insertIfNew (m : KeyedList κ α) {k : κ} (h : m.contains k = false) (v : α)
    (j : Nat) : (m.insertIfNew k v).getIdx? j = if j = m.size then some v else m.getIdx? j := by
  rw [insertIfNew, dif_pos h]
  have hsize : m.size = m.entries.length := rfl
  simp only [getIdx?, push]
  rcases Nat.lt_trichotomy j m.size with hlt | heq | hgt
  · rw [List.getElem?_append_left hlt, if_neg (Nat.ne_of_lt hlt)]
  · simp [heq, hsize]
  · rw [if_neg (Nat.ne_of_gt hgt), List.getElem?_eq_none (Nat.le_of_lt hgt),
      List.getElem?_eq_none (by simp only [List.length_append, List.length_singleton]; omega)]

omit [DecidableEq κ] in
/-- A value is stored if it is found at some position. -/
theorem mem_values_iff_getIdx? {m : KeyedList κ α} {v : α} :
    v ∈ m.values ↔ ∃ i, m.getIdx? i = some v := by
  simp only [values, getIdx?, List.mem_iff_getElem?, List.getElem?_map]

/-- The position of a key is that of the entry that has it. -/
theorem indexOf?_eq_some_iff {m : KeyedList κ α} {k : κ} {i : Nat} :
    m.indexOf? k = some i ↔ ∃ v, m.entries[i]? = some (k, v) := by
  rw [indexOf?, List.findIdx?_eq_some_iff_getElem]
  constructor
  · rintro ⟨hlt, hkey, -⟩
    have hkey : m.entries[i].1 = k := of_decide_eq_true hkey
    exact ⟨m.entries[i].2, by rw [List.getElem?_eq_getElem hlt, ← hkey]⟩
  · rintro ⟨v, hentry⟩
    obtain ⟨hlt, hentry⟩ := List.getElem?_eq_some_iff.mp hentry
    refine ⟨hlt, by simp [hentry], fun j hj => ?_⟩
    -- Another entry of the key would repeat it.
    have hother := List.pairwise_iff_getElem.mp m.nodup_keys j i (by simp; omega) (by simpa) hj
    simpa [hentry] using hother

/-- At the position of a key there is a value. -/
theorem exists_getIdx?_of_indexOf? {m : KeyedList κ α} {k : κ} {i : Nat}
    (h : m.indexOf? k = some i) : ∃ v, m.getIdx? i = some v := by
  obtain ⟨hlt, -, -⟩ := List.findIdx?_eq_some_iff_getElem.mp h
  exact ⟨m.entries[i].2, by simp [getIdx?, hlt]⟩

end KeyedList

end ObjectMapping
