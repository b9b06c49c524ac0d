import ObjectMapping.Proofs.Parts

/-!
# Conditions on what is stored

An entity stores values, and a collection does.  If a condition on values and one on properties are
met by all that an entity stores, they are met after a change, provided that what the change adds
meets them.  That is the case for every change that is made while an entity is bound and afterwards:
properties and joins are added, an identifier is set, the data of a root are changed, and a single
property is replaced.

The condition on declared properties is a separate one, and what it says of their values is its own
affair: backrefs are declared, and show values that belong to a collection of another entity.
-/

namespace ObjectMapping

/-! ## Changed members of lists -/

/-- What holds of all members of a list still does after one of them is changed. -/
theorem forall_mem_modify {α : Type} {P : α → Prop} {f : α → α} (hf : ∀ a, P a → P (f a))
    {l : List α} (hl : ∀ a ∈ l, P a) (i : Nat) : ∀ a ∈ l.modify i f, P a := by
  intro a ha
  obtain ⟨j, hj⟩ := List.mem_iff_getElem?.mp ha
  rw [List.getElem?_modify] at hj
  obtain ⟨b, hb, rfl⟩ := Option.map_eq_some_iff.mp hj
  have hold := hl b (List.mem_of_getElem? hb)
  split
  · exact hf b hold
  · exact hold

/-! ## Roots -/

/-- The value of an identifier meets a condition, and so does its property if it is named. -/
def IdentifierBinding.Stores (V : Value → Prop) (P : Property → Prop) : IdentifierBinding → Prop
  | named p => V p.value ∧ P p
  | unnamed v => V v

/-- The values of a root meet a condition, and so does the property of its identifier. -/
structure RootData.Stores (V : Value → Prop) (P : Property → Prop) (data : RootData) : Prop where
  values : ∀ v ∈ data.values, V v
  identifier : ∀ p, data.identifierProperty? = some p → P p

variable {V : Value → Prop} {D P : Property → Prop}

namespace RootData

variable {data data' : RootData}

/-- The values of a root are those of its identifier, of its mapper and of its discriminator. -/
theorem mem_values {v : Value} : v ∈ data.values ↔
    (∃ binding, data.identifier = some binding ∧ binding.value = v) ∨
      (∃ mapper, data.identifierMapper = some mapper ∧ .component mapper = v) ∨
        ∃ d, data.discriminator = some d ∧ .simple d.value = v := by
  simp only [values, identifierValue?, List.mem_append, Option.mem_toList, Option.map_eq_some_iff,
    or_assoc]

/-- The identifier of a root may be replaced. -/
theorem Stores.setIdentifier (h : data.Stores V P) {binding : IdentifierBinding}
    (hbinding : binding.Stores V P) (hidentifier : data'.identifier = some binding)
    (hmapper : data'.identifierMapper = data.identifierMapper)
    (hdiscriminator : data'.discriminator = data.discriminator) : data'.Stores V P := by
  refine ⟨fun v hv => ?_, fun p hp => ?_⟩
  · rw [mem_values, hidentifier, hmapper, hdiscriminator] at hv
    rcases hv with ⟨_, ⟨⟩, rfl⟩ | hrest
    · cases binding with
      | named p => exact hbinding.1
      | unnamed v => exact hbinding
    · exact h.values v (mem_values.mpr (.inr hrest))
  · rw [identifierProperty?, hidentifier] at hp
    cases binding with
    | named q => exact Option.some.inj hp ▸ hbinding.2
    | unnamed => cases hp

/-- So may its mapper. -/
theorem Stores.setMapper (h : data.Stores V P) {mapper : Component}
    (hmapper : V (.component mapper)) :
    ({ data with identifierMapper := some mapper } : RootData).Stores V P := by
  refine ⟨fun v hv => ?_, h.identifier⟩
  rcases mem_values.mp hv with hidentifier | ⟨_, ⟨⟩, rfl⟩ | hdiscriminator
  · exact h.values v (mem_values.mpr (.inl hidentifier))
  · exact hmapper
  · exact h.values v (mem_values.mpr (.inr (.inr hdiscriminator)))

/-- So may its discriminator. -/
theorem Stores.setDiscriminator (h : data.Stores V P) {d : Discriminator}
    (hd : V (.simple d.value)) (polymorphic : Bool) :
    ({ data with polymorphic, discriminator := some d } : RootData).Stores V P := by
  refine ⟨fun v hv => ?_, h.identifier⟩
  rcases mem_values.mp hv with hidentifier | hmapper | ⟨_, ⟨⟩, rfl⟩
  · exact h.values v (mem_values.mpr (.inl hidentifier))
  · exact h.values v (mem_values.mpr (.inr (.inl hmapper)))
  · exact hd

/-- Other data of a root may be changed. -/
theorem Stores.of_same (h : data.Stores V P) (hidentifier : data'.identifier = data.identifier)
    (hvalues : data'.values = data.values) : data'.Stores V P := by
  refine ⟨hvalues ▸ h.values, ?_⟩
  rw [identifierProperty?, hidentifier]
  exact h.identifier

end RootData

/-! ## Entities -/

/-- The declared properties of an entity meet a condition, its other values meet one on values, and
the property of its identifier one on properties. -/
structure Entity.Stores (V : Value → Prop) (D P : Property → Prop) (e : Entity) : Prop where
  properties : ∀ p ∈ e.allProperties, D p
  keys : ∀ j ∈ e.joins, ∀ v, j.key = some v → V v
  kind : ∀ v ∈ e.kind.values, V v
  identifier : ∀ p, e.identifierProperty? = some p → P p

/-- The value of the identifier property is one of those of the entity's kind. -/
theorem Entity.value_mem_kind_values {e : Entity} {p : Property}
    (h : e.identifierProperty? = some p) : p.value ∈ e.kind.values := by
  obtain ⟨data, hdata, hproperty⟩ := Option.bind_eq_some_iff.mp h
  obtain ⟨binding, hbinding, hnamed⟩ := Option.bind_eq_some_iff.mp hproperty
  rw [values_of_root? hdata]
  refine RootData.mem_values.mpr (.inl ⟨binding, hbinding, ?_⟩)
  cases binding with
  | named q => exact congrArg Property.value (Option.some.inj hnamed)
  | unnamed => cases hnamed

namespace Entity.Stores

variable {e e' : Entity}

/-- If the condition on declared properties is met by their values as well, all values that the
entity stores meet it. -/
theorem value (h : e.Stores V (fun p => V p.value ∧ D p) P) {v : Value} (hv : v ∈ e.values) :
    V v := by
  rcases Entity.mem_values.mp hv with ⟨p, hp, rfl⟩ | ⟨j, hj, hkey⟩ | hkind
  · exact (h.properties p hp).1
  · exact h.keys j hj v hkey
  · exact h.kind v hkind

/-- Weaker conditions are met as well.  That of the identifier property may make use of its
value. -/
theorem imp {V' : Value → Prop} {D' P' : Property → Prop} (h : e.Stores V D P)
    (hV : ∀ v, V v → V' v) (hD : ∀ p, D p → D' p) (hP : ∀ p, V p.value → P p → P' p) :
    e.Stores V' D' P' where
  properties p hp := hD p (h.properties p hp)
  keys j hj v hv := hV v (h.keys j hj v hv)
  kind v hv := hV v (h.kind v hv)
  identifier p hp := hP p (h.kind p.value (value_mem_kind_values hp)) (h.identifier p hp)

variable (h : e.Stores V D P)
include h

/-- A property that meets the condition may be added. -/
theorem addProperty {p : Property} (hp : D p) : (e.addProperty p).Stores V D P := by
  refine ⟨fun q hq => ?_, h.keys, h.kind, h.identifier⟩
  simp only [allProperties, Entity.addProperty, List.mem_append, List.mem_singleton] at hq
  rcases hq with (hown | rfl) | hjoined
  · exact h.properties q (List.mem_append_left _ hown)
  · exact hp
  · exact h.properties q (List.mem_append_right _ hjoined)

/-- So may a join whose key and whose properties meet it. -/
theorem addJoin {j : Join} (hkey : ∀ v, j.key = some v → V v)
    (hproperties : ∀ p ∈ j.properties, D p) :
    ({ e with joins := e.joins ++ [j] } : Entity).Stores V D P := by
  refine ⟨fun q hq => ?_, fun j' hj' => ?_, h.kind, h.identifier⟩
  · simp only [allProperties, List.flatMap_append, List.mem_append, List.flatMap_singleton] at hq
    rcases hq with hown | hjoined | hnew
    · exact h.properties q (List.mem_append_left _ hown)
    · exact h.properties q (List.mem_append_right _ hjoined)
    · exact hproperties q hnew
  · rcases List.mem_append.mp hj' with hold | hnew
    · exact h.keys j' hold
    · cases List.mem_singleton.mp hnew
      exact hkey

/-- The data of a root may be changed. -/
theorem modifyRoot {f : RootData → RootData}
    (hf : ∀ data : RootData, data.Stores V P → (f data).Stores V P) :
    (e.modifyRoot f).Stores V D P := by
  have hkind := h.kind
  have hidentifier := h.identifier
  obtain ⟨_, _, _, _, kind, _⟩ := e
  cases kind with
  | root data =>
    obtain ⟨hvalues, hproperty⟩ := hf data ⟨hkind, hidentifier⟩
    exact ⟨h.properties, h.keys, hvalues, hproperty⟩
  | subclass | joinedSubclass | unionSubclass => exact ⟨h.properties, h.keys, hkind, hidentifier⟩

/-- A single property may be changed. -/
theorem modifySlot (slot : PropertySlot) {f : Property → Property} (hD : ∀ p, D p → D (f p))
    (hP : ∀ p : Property, V p.value ∧ P p → V (f p).value ∧ P (f p)) :
    (e.modifySlot f slot).Stores V D P := by
  have hown := fun p hp => h.properties p (List.mem_append_left _ hp)
  have hjoined := fun j hj p hp =>
    h.properties p (List.mem_append_right _ (List.mem_flatMap.mpr ⟨j, hj, hp⟩))
  cases slot with
  | own index =>
    refine ⟨fun p hp => ?_, h.keys, h.kind, h.identifier⟩
    rcases List.mem_append.mp hp with hp | hp
    · exact forall_mem_modify hD hown index p hp
    · obtain ⟨j, hj, hin⟩ := List.mem_flatMap.mp hp
      exact hjoined j hj p hin
  | joined join index =>
    have hjoins : ∀ j ∈ e.joins.modify join fun j : Join =>
        { j with properties := j.properties.modify index f },
        (∀ v, j.key = some v → V v) ∧ ∀ p ∈ j.properties, D p :=
      forall_mem_modify (fun j hj => ⟨hj.1, forall_mem_modify hD hj.2 index⟩)
        (fun j hj => ⟨h.keys j hj, hjoined j hj⟩) join
    refine ⟨fun p hp => ?_, fun j hj => (hjoins j hj).1, h.kind, h.identifier⟩
    rcases List.mem_append.mp hp with hp | hp
    · exact hown p hp
    · obtain ⟨j, hj, hin⟩ := List.mem_flatMap.mp hp
      exact (hjoins j hj).2 p hin
  | identifier =>
    refine h.modifyRoot fun data hdata => ?_
    obtain ⟨identifier, _⟩ := data
    cases identifier with
    | none => exact hdata
    | some binding =>
      have hvalue := hdata.values binding.value (RootData.mem_values.mpr (.inl ⟨_, rfl, rfl⟩))
      have hbinding : (binding.modifyProperty f).Stores V P := by
        cases binding with
        | named p => exact hP p ⟨hvalue, hdata.identifier p rfl⟩
        | unnamed v => exact hvalue
      exact hdata.setIdentifier hbinding rfl rfl rfl

end Entity.Stores

/-! ## Collections -/

namespace Collection

variable {c : Collection} {v w : Value}

/-- With a new key a collection holds no other new value. -/
theorem mem_values_setKey (h : w ∈ ({ c with key := some v } : Collection).values) :
    w = v ∨ w ∈ c.values := by
  rw [mem_values] at h ⊢
  exact h.imp (fun hkey => (Option.some.inj hkey).symm) .inr

/-- Nor does it with a new element. -/
theorem mem_values_setElement (h : w ∈ ({ c with element := some v } : Collection).values) :
    w = v ∨ w ∈ c.values := by
  rw [mem_values] at h ⊢
  rcases h with hkey | helement | hrest
  · exact .inr (.inl hkey)
  · exact .inl (Option.some.inj helement).symm
  · exact .inr (.inr (.inr hrest))

/-- Nor does it with a new index. -/
theorem mem_values_setIndex (h : w ∈ ({ c with index := some v } : Collection).values) :
    w = v ∨ w ∈ c.values := by
  rw [mem_values] at h ⊢
  rcases h with hkey | helement | hindex | hidentifier
  · exact .inr (.inl hkey)
  · exact .inr (.inr (.inl helement))
  · exact .inl (Option.some.inj hindex).symm
  · exact .inr (.inr (.inr (.inr hidentifier)))

/-- Nor does it with a new identifier. -/
theorem mem_values_setIdentifier (h : w ∈ ({ c with identifier := some v } : Collection).values) :
    w = v ∨ w ∈ c.values := by
  rw [mem_values] at h ⊢
  rcases h with hkey | helement | hindex | hidentifier
  · exact .inr (.inl hkey)
  · exact .inr (.inr (.inl helement))
  · exact .inr (.inr (.inr (.inl hindex)))
  · exact .inl (Option.some.inj hidentifier).symm

end Collection

end ObjectMapping
