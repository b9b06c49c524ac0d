/-!
# Sorted maps

A `SortedMap α` is a finite map from strings whose entries stand in the order of their
keys, by code point.  The order is part of the type, so it never depends on the
order of the writes; `get?_insert` says what a reader sees after one.
-/

namespace ObjectMapping

/-- A finite map from strings, sorted by key. -/
structure SortedMap (α : Type u) where
  /-- The entries, least key first. -/
  entries : List (String × α)
  /-- The keys strictly increase. -/
  sorted_keys : (entries.map Prod.fst).Pairwise (· < ·)
deriving DecidableEq

namespace SortedMap

variable {α : Type u}

@[ext] theorem ext {m n : SortedMap α} (h : m.entries = n.entries) : m = n := by
  cases m; cases n; cases h; rfl

/-- The map without entries. -/
def empty : SortedMap α := ⟨[], by simp⟩

instance : EmptyCollection (SortedMap α) := ⟨empty⟩

instance : Inhabited (SortedMap α) := ⟨empty⟩

/-- The keys, least first. -/
def keys (m : SortedMap α) : List String := m.entries.map Prod.fst

/-- The values, in the order of their keys. -/
def values (m : SortedMap α) : List α := m.entries.map Prod.snd

/-- The number of entries. -/
def size (m : SortedMap α) : Nat := m.entries.length

/-- Whether there is no entry. -/
def isEmpty (m : SortedMap α) : Bool := m.entries.isEmpty

/-- The value stored under a key. -/
def get? (m : SortedMap α) (k : String) : Option α :=
  (m.entries.find? fun e => e.1 = k).map Prod.snd

/-- Whether a key is present. -/
def contains (m : SortedMap α) (k : String) : Bool := m.entries.any fun e => e.1 = k

/-- Puts an entry at its place in a sorted list, over an entry of the same key. -/
def place (k : String) (v : α) : List (String × α) → List (String × α)
  | [] => [(k, v)]
  | e :: es =>
    if k < e.1 then (k, v) :: e :: es
    else if k = e.1 then (k, v) :: es
    else e :: place k v es

/-- Keys are ordered linearly. -/
private theorem lt_of_not_lt_of_ne {a b : String} (h : ¬ a < b) (hne : a ≠ b) : b < a := by
  rcases Decidable.em (b < a) with hba | hba
  · exact hba
  · exact absurd (String.le_antisymm (String.not_lt.1 hba) (String.not_lt.1 h)) hne

/-- The keys after an entry is placed are its key and those from before. -/
theorem mem_keys_place {k j : String} {v : α} {es : List (String × α)} :
    j ∈ (place k v es).map Prod.fst ↔ j = k ∨ j ∈ es.map Prod.fst := by
  induction es with
  | nil => simp [place]
  | cons e es ih =>
    simp only [place]
    split
    · simp
    · split
      · next h => simp [h]
      · simp only [List.map_cons, List.mem_cons, ih]
        constructor
        · rintro (h | h | h) <;> simp [h]
        · rintro (h | h | h) <;> simp [h]

/-- An entry is placed so that keys stay sorted. -/
theorem sorted_place {k : String} {v : α} {es : List (String × α)}
    (h : (es.map Prod.fst).Pairwise (· < ·)) :
    ((place k v es).map Prod.fst).Pairwise (· < ·) := by
  induction es with
  | nil => simp [place]
  | cons e es ih =>
    rw [List.map_cons, List.pairwise_cons] at h
    simp only [place]
    split
    · next hlt =>
      simp only [List.map_cons, List.pairwise_cons, List.mem_cons]
      refine ⟨?_, h⟩
      rintro a (rfl | ha)
      · exact hlt
      · exact String.lt_trans hlt (h.1 a ha)
    · split
      · next heq =>
        simp only [List.map_cons, List.pairwise_cons]
        exact ⟨heq ▸ h.1, h.2⟩
      · next hlt hne =>
        simp only [List.map_cons, List.pairwise_cons]
        refine ⟨?_, ih h.2⟩
        intro a ha
        rcases mem_keys_place.1 ha with rfl | ha
        · exact lt_of_not_lt_of_ne hlt hne
        · exact h.1 a ha

/-- Stores a value under a key, over any value stored there. -/
def insert (m : SortedMap α) (k : String) (v : α) : SortedMap α :=
  ⟨place k v m.entries, sorted_place m.sorted_keys⟩

/-- Stores a value under a key unless the key is present. -/
def insertIfNew (m : SortedMap α) (k : String) (v : α) : SortedMap α :=
  if m.contains k then m else m.insert k v

/-- The entries whose value passes a test. -/
def filter (m : SortedMap α) (p : α → Bool) : SortedMap α where
  entries := m.entries.filter fun e => p e.2
  sorted_keys := m.sorted_keys.sublist (List.filter_sublist.map Prod.fst)

/-- The map of a list of pairs, in which a later pair overrides an earlier one. -/
def ofList (es : List (String × α)) : SortedMap α :=
  es.foldl (fun m e => m.insert e.1 e.2) empty

/-! ## Laws -/

@[simp] theorem get?_empty (k : String) : (empty : SortedMap α).get? k = none := rfl

/-- After an entry is placed among sorted ones, its key leads to it and others lead where they did.
-/
private theorem find?_place (k j : String) (v : α) (es : List (String × α))
    (h : (es.map Prod.fst).Pairwise (· < ·)) :
    ((place k v es).find? fun e => e.1 = j).map Prod.snd
      = if j = k then some v else (es.find? fun e => e.1 = j).map Prod.snd := by
  induction es with
  | nil => by_cases hj : j = k <;> simp [place, hj, eq_comm]
  | cons e es ih =>
    rw [List.map_cons, List.pairwise_cons] at h
    simp only [place]
    split
    · by_cases hj : j = k <;> simp [List.find?_cons, hj, eq_comm]
    · split
      · next heq =>
        by_cases hj : j = k
        · simp [hj]
        · have hkj : ¬ k = j := fun h => hj h.symm
          have hej : ¬ e.1 = j := heq ▸ hkj
          simp [hj, hkj, hej]
      · next hne =>
        by_cases hej : e.1 = j
        · have hj : ¬ j = k := fun h => hne (h ▸ hej.symm)
          simp [hej, hj]
        · simp only [List.find?_cons, hej, decide_false]
          exact ih h.2

/-- After a value is stored under a key, the key leads to it and others lead where they did. -/
theorem get?_insert (m : SortedMap α) (k j : String) (v : α) :
    (m.insert k v).get? j = if j = k then some v else m.get? j :=
  find?_place k j v m.entries m.sorted_keys

/-- Of sorted entries that are kept by their values, those are found that were found before and are
kept. -/
private theorem find?_filter (p : α → Bool) (k : String) (es : List (String × α))
    (h : (es.map Prod.fst).Pairwise (· < ·)) :
    ((es.filter fun e => p e.2).find? fun e => e.1 = k).map Prod.snd
      = ((es.find? fun e => e.1 = k).map Prod.snd).filter p := by
  induction es with
  | nil => rfl
  | cons e es ih =>
    rw [List.map_cons, List.pairwise_cons] at h
    by_cases hek : e.1 = k
    · have hrest : (es.filter fun e => p e.2).find? (fun e => e.1 = k) = none := by
        rw [List.find?_eq_none]
        intro e' he' hk
        have hlt := h.1 e'.1 (List.mem_map_of_mem (List.mem_filter.1 he').1)
        rw [hek, of_decide_eq_true hk] at hlt
        exact String.lt_irrefl k hlt
      cases hp : p e.2 <;> simp [hek, hp, hrest, Option.filter]
    · rw [List.find?_cons_of_neg (by simpa using hek), ← ih h.2, List.filter_cons]
      split
      · rw [List.find?_cons_of_neg (by simpa using hek)]
      · rfl

/-- Of the entries of a map, those that pass a test are left. -/
theorem get?_filter (m : SortedMap α) (p : α → Bool) (k : String) :
    (m.filter p).get? k = (m.get? k).filter p :=
  find?_filter p k m.entries m.sorted_keys

end SortedMap

end ObjectMapping
