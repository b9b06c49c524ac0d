import ObjectMapping.Proofs.Coverage
import ObjectMapping.Proofs.ValueBinding

/-!
# Repeated walks

`Replays view m m'` says what becomes of a computation that is run again, in a variant, after it
has ended well: the second run finds every table as the first one left it or with more, adds
nothing to it but foreign keys, registers no collection, and ends in a value that looks the same
under a view.  A collection is never registered twice, so a walk that registers one cannot be
repeated; this is how the second run tells that the first one opened no table.
-/

namespace ObjectMapping

open Binding Registry

/-- A run from `r` to `r'` repeats one from `r₀` to `r₁`: the latter registered no collection, and
the former opened no table and left those that were there at the start as they were, except for
their foreign keys. -/
structure Registry.Repeats (r₀ r₁ r r' : Registry) : Prop where
  covered : r.CoveredBy r'
  size : r'.tables.size = r.tables.size
  roles : ∀ role, r₁.collections.contains role = true → r₀.collections.contains role = true
  tables : ∀ id, (r₀.table? id).isSome = true →
    (r'.table? id).map Table.withoutForeignKeys = (r.table? id).map Table.withoutForeignKeys

/-- A run of `m` that ends well only adds to tables, and a run of `m'` that ends well after it
repeats it, with a value that looks the same. -/
def Binding.Replays {α γ : Type} (view : α → γ) (m m' : Binding α) : Prop :=
  ∀ r₀ a r₁, m.run r₀ = .ok a r₁ → r₀.CoveredBy r₁ ∧
    ∀ r b r', r₁.CoveredBy r → m'.run r = .ok b r' → r₀.Repeats r₁ r r' ∧ view b = view a

namespace Registry.Repeats

variable {r₀ r₁ r₂ r r' r'' : Registry}

/-- Layouts that stay on both sides. -/
theorem of_sameLayout (h₀ : SameLayout r₀ r₁) (h : SameLayout r r') : r₀.Repeats r₁ r r' where
  covered := h.coveredBy
  size := h.size
  roles role hrole := by rwa [← h₀.collections]
  tables id _ := h.table? id

theorem trans (hcovered : r₀.CoveredBy r₁) (h : r₀.Repeats r₁ r r') (h' : r₁.Repeats r₂ r' r'') :
    r₀.Repeats r₂ r r'' where
  covered := h.covered.trans h'.covered
  size := h'.size.trans h.size
  roles role hrole := h.roles role (h'.roles role hrole)
  tables id hid := by
    obtain ⟨t, ht⟩ := Option.isSome_iff_exists.mp hid
    obtain ⟨t₁, ht₁, -⟩ := hcovered.table? ht
    exact (h'.tables id (by rw [ht₁]; rfl)).trans (h.tables id hid)

/-- Tables that were not there at the start were not opened since, so all tables are as they
were. -/
theorem table? (hcovered : r₀.CoveredBy r₁) (h : r₀.Repeats r₁ r₁ r') (id : TableId) :
    (r'.table? id).map Table.withoutForeignKeys = (r₁.table? id).map Table.withoutForeignKeys := by
  have hsize : r₁.tables.size = r₀.tables.size := by
    rcases hcovered.opened with hsize | ⟨role, hin, hnew⟩
    · exact hsize
    · exact absurd (h.roles role hin) (by simp [hnew])
  have hbeyond : ∀ s : Registry, s.table? id = none ↔ s.tables.size ≤ id.index := by
    intro s
    simp [Registry.table?, KeyedList.getIdx?, KeyedList.size]
  cases hid : r₀.table? id with
  | some t => exact h.tables id (by rw [hid]; rfl)
  | none =>
    rw [hbeyond, ← hsize] at hid
    have hafter : r'.table? id = none := by rwa [hbeyond, h.size]
    rw [hafter, (hbeyond r₁).mpr hid]

end Registry.Repeats

namespace Binding.Replays

variable {α β γ δ : Type} {view : α → γ} {view' : β → δ}

theorem pure {a b : α} (h : view b = view a) : Replays view (Pure.pure a) (Pure.pure b) := by
  intro r₀ _ r₁ hrun
  cases hrun
  refine ⟨.refl r₀, fun _ _ _ _ hrun' => ?_⟩
  cases hrun'
  exact ⟨.of_sameLayout (.refl _) (.refl _), h⟩

/-- What fails is not repeated. -/
theorem throw (e : MappingError) (m' : Binding α) :
    Replays view (MonadExcept.throw e : Binding α) m' := by
  intro r₀ a r₁ hrun
  cases hrun

theorem throw_bind (e : MappingError) (f : α → Binding β) (m' : Binding β) :
    Replays view' (MonadExcept.throw e >>= f) m' := by
  intro r₀ a r₁ hrun
  cases hrun

/-- The second half of the first run keeps what its first half added, so each half of the second
run repeats one of the first. -/
theorem bind {m m' : Binding α} {f f' : α → Binding β} (hm : Replays view m m')
    (hf : ∀ a b, view b = view a → Replays view' (f a) (f' b)) :
    Replays view' (m >>= f) (m' >>= f') := by
  intro r₀ c r₂ hrun
  obtain ⟨a, r₁, hfirst, hrest⟩ := run_bind_eq_ok.mp hrun
  obtain ⟨hcovered, hagain⟩ := hm _ _ _ hfirst
  have hcovered' : r₁.CoveredBy r₂ := (hf a a rfl _ _ _ hrest).1
  refine ⟨hcovered.trans hcovered', fun r d r'' hr hrun' => ?_⟩
  obtain ⟨b, r', hfirst', hrest'⟩ := run_bind_eq_ok.mp hrun'
  obtain ⟨hrepeats, hsame⟩ := hagain _ _ _ (hcovered'.trans hr) hfirst'
  obtain ⟨hrepeats', hsame'⟩ := (hf a b hsame _ _ _ hrest).2 _ _ _
    (hr.trans hrepeats.covered) hrest'
  exact ⟨hrepeats.trans hcovered hrepeats', hsame'⟩

/-- The first halves may end in the same value. -/
theorem bind_same {m m' : Binding α} {f f' : α → Binding β} (hm : Replays id m m')
    (hf : ∀ a, Replays view' (f a) (f' a)) : Replays view' (m >>= f) (m' >>= f') := by
  refine hm.bind fun a b hsame => ?_
  cases (show b = a from hsame)
  exact hf a

/-- What the values look like may be known of each run by itself. -/
theorem of_yields {m m' : Binding α} {P P' : α → Prop} (hm : Replays (fun _ => ()) m m')
    (hyields : Yields m P) (hyields' : Yields m' P')
    (h : ∀ a b, P a → P' b → view b = view a) : Replays view m m' := by
  intro r₀ a r₁ hrun
  obtain ⟨hcovered, hagain⟩ := hm _ _ _ hrun
  refine ⟨hcovered, fun r b r' hr hrun' => ⟨(hagain _ _ _ hr hrun').1, ?_⟩⟩
  exact h a b (hyields _ _ _ hrun) (hyields' _ _ _ hrun')

/-- What is done with the value afterwards. -/
theorem map {m m' : Binding α} {f f' : α → β} (hm : Replays view m m')
    (hf : ∀ a b, view b = view a → view' (f' b) = view' (f a)) :
    Replays view' (m >>= fun a => Pure.pure (f a)) (m' >>= fun b => Pure.pure (f' b)) := by
  intro r₀ c r₁ hrun
  obtain ⟨a, r, hfirst, hpure⟩ := run_bind_eq_ok.mp hrun
  cases hpure
  obtain ⟨hcovered, hagain⟩ := hm _ _ _ hfirst
  refine ⟨hcovered, fun r' b r'' hr hrun' => ?_⟩
  obtain ⟨b, s, hfirst', hpure'⟩ := run_bind_eq_ok.mp hrun'
  cases hpure'
  obtain ⟨hrepeats, hsame⟩ := hagain _ _ _ hr hfirst'
  exact ⟨hrepeats, hf a b hsame⟩

/-- Both runs read the same options. -/
theorem get_bind {f f' : Registry → Binding α}
    (h : ∀ r₀ r, r.options = r₀.options → Replays view (f r₀) (f' r)) :
    Replays view (get >>= f) (get >>= f') := by
  intro r₀ a r₁ hrun
  rw [run_get_bind] at hrun
  have hcovered : r₀.CoveredBy r₁ := (h r₀ r₀ rfl _ _ _ hrun).1
  refine ⟨hcovered, fun r b r' hr hrun' => ?_⟩
  rw [run_get_bind] at hrun'
  exact (h r₀ r (hr.options.trans hcovered.options) _ _ _ hrun).2 _ _ _ hr hrun'

theorem ite {c : Prop} [Decidable c] {m m' n n' : Binding α} (hm : Replays view m m')
    (hn : Replays view n n') : Replays view (if c then m else n) (if c then m' else n') := by
  split
  · exact hm
  · exact hn

/-- Checked values look the same if those that pass do. -/
theorem ofExcept {x x' : Except MappingError α}
    (h : ∀ a b, x = .ok a → x' = .ok b → view b = view a) :
    Replays view (Binding.ofExcept x) (Binding.ofExcept x') := by
  intro r₀ a r₁ hrun
  obtain ⟨hx, rfl⟩ := run_ofExcept_eq_ok.mp hrun
  refine ⟨.refl r₁, fun r b r' _ hrun' => ?_⟩
  obtain ⟨hx', rfl⟩ := run_ofExcept_eq_ok.mp hrun'
  exact ⟨.of_sameLayout (.refl r₁) (.refl r'), h a b hx hx'⟩

/-- A value that is required twice is the same, whatever the errors. -/
theorem require (e e' : MappingError) (o : Option α) :
    Replays view (Binding.require e o) (Binding.require e' o) := by
  intro r₀ a r₁ hrun
  obtain ⟨ho, rfl⟩ := run_require_eq_ok.mp hrun
  refine ⟨.refl r₁, fun r b r' _ hrun' => ?_⟩
  obtain ⟨ho', rfl⟩ := run_require_eq_ok.mp hrun'
  cases ho.symm.trans ho'
  exact ⟨.of_sameLayout (.refl r₁) (.refl r'), rfl⟩

/-- Writes that leave layouts alone may differ. -/
theorem modify {f f' : Registry → Registry} (h : ∀ r, SameLayout r (f r))
    (h' : ∀ r, SameLayout r (f' r)) :
    Replays (Function.const PUnit ()) (modify f) (modify f') := by
  intro r₀ _ r₁ hrun
  cases hrun
  refine ⟨(h r₀).coveredBy, fun r _ r' _ hrun' => ?_⟩
  cases hrun'
  exact ⟨.of_sameLayout (h r₀) (h' r), rfl⟩

/-- A write to a table that settles has nothing to add when it is repeated. -/
theorem changeTable {f : Table → Table} (hf : Table.Settles f) (id : Option TableId) :
    Replays (Function.const Unit ()) (changeTable id f) (changeTable id f) := by
  cases id with
  | none => exact pure rfl
  | some id =>
    intro r₀ _ r₁ hrun
    cases hrun
    have hcovered : ∀ r : Registry, r.CoveredBy (r.modifyTable id f) := fun r =>
      { CoveredBy.refl r with
        tables := .modifyIdx Table.CoveredBy.refl _ _ hf.covered
        opened := .inl (by simp [modifyTable, KeyedList.modifyIdx, KeyedList.size]) }
    refine ⟨hcovered r₀, fun r _ r' hr hrun' => ?_⟩
    cases hrun'
    refine ⟨⟨hcovered r, by simp [modifyTable, KeyedList.modifyIdx, KeyedList.size],
      fun _ hrole => hrole, fun j hj => ?_⟩, rfl⟩
    obtain ⟨t₀, ht₀⟩ := Option.isSome_iff_exists.mp hj
    by_cases hsame : j = id
    · have hwritten : (r₀.modifyTable id f).table? j = some (f t₀) := by
        rw [table?_modifyTable, ht₀, Option.map_some, if_pos hsame]
      obtain ⟨t, ht, hcover⟩ := hr.table? hwritten
      rw [table?_modifyTable, ht, Option.map_some, if_pos hsame, hf.settled hcover]
    · simp only [table?_modifyTable, if_neg hsame, Option.map_map, Function.comp_def]

end Binding.Replays

end ObjectMapping
