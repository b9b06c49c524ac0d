import ObjectMapping.Proofs.RegistryWrites
import ObjectMapping.Proofs.Tracing
import ObjectMapping.Proofs.Upkeep

/-!
# Writes to traced registries

Each write keeps a registry traced, on the condition that what it adds is traced by then, and the
registry that is left behind retains what was there.  Steady writes add nothing that is traced.
-/

namespace ObjectMapping

open Binding Registry

/-- Binding the documents of a source keeps registries traced, and what is there retained. -/
def Source.tracing (S : Source) : Upkeep where
  invariant r := r.Traced S
  keeps := Retains
  refl := .refl
  trans := .trans

namespace Registry

variable {S : Source} {r r' : Registry}

/-! ## Growth -/

/-- Of a registry that retains another, only what is new in it has to be looked at. -/
theorem Traced.grow (hr : r.Traced S) (h : r.Retains r')
    (hentities : ∀ name e, r'.entity? name = some e →
      r.entity? name = some e ∨ e.name = name ∧ e.Traced S r')
    (hforeignKeys : ∀ k, r'.Constrains k → r.Constrains k ∨ k.Traced S r')
    (hcollections : ∀ role c, r'.collection? role = some c →
      r.collection? role = some c ∨ c.role = role ∧ c.Traced S r')
    (hpasses : ∀ kind pass, .contents kind pass ∈ r'.passes →
      .contents kind pass ∈ r.passes ∨ S.Reads pass.scope pass.node)
    (hwaiting : ∀ pending ∈ r'.waiting, pending ∈ r.waiting ∨ S.documents pending.document) :
    S.tracing.Advances r r' where
  keeps := h
  invariant :=
    { entities := fun name e he => (hentities name e he).elim
        (fun hold => (hr.entities name e hold).imp_right (·.mono h)) id
      foreignKeys := fun k hk => (hforeignKeys k hk).elim
        (fun hold => (hr.foreignKeys k hold).mono h) id
      collections := fun role c hc => (hcollections role c hc).elim
        (fun hold => (hr.collections role c hold).imp_right (·.mono h)) id
      passes := fun kind pass hpass => (hpasses kind pass hpass).elim (hr.passes kind pass) id
      waiting := fun pending hpending => (hwaiting pending hpending).elim (hr.waiting pending) id }

/-- Registries with the same entities and collections, the options and references of the first
and its foreign keys at most, and queues that gain passes and documents of the source only. -/
theorem Traced.of_same (hr : r.Traced S) (hoptions : r'.options = r.options)
    (hentities : r'.entities = r.entities) (hcollections : r'.collections = r.collections)
    (hreferences : r.propertyReferences ⊆ r'.propertyReferences)
    (hforeignKeys : ∀ k, r'.Constrains k → r.Constrains k ∨ k.Traced S r')
    (hpasses : ∀ kind pass, .contents kind pass ∈ r'.passes →
      .contents kind pass ∈ r.passes ∨ S.Reads pass.scope pass.node)
    (hwaiting : ∀ pending ∈ r'.waiting, pending ∈ r.waiting ∨ S.documents pending.document) :
    S.tracing.Advances r r' := by
  refine hr.grow ⟨hoptions, fun hname => ?_, hreferences, fun {role c} hc => ⟨c, ?_, rfl⟩⟩
    (fun name e he => .inl ?_) hforeignKeys (fun role c hc => .inl ?_) hpasses hwaiting
  · rwa [hasEntity, hentities]
  · rwa [collection?, hcollections]
  · rwa [entity?, hentities] at he
  · rwa [collection?, hcollections] at hc

/-! ## Steady writes -/

/-- The tables after one is changed are those before, but for the changed one. -/
theorem mem_tables_modifyTable {id : TableId} {f : Table → Table} {t : Table}
    (h : t ∈ (r.modifyTable id f).tables.values) :
    t ∈ r.tables.values ∨ ∃ t₀ ∈ r.tables.values, t = f t₀ := by
  obtain ⟨i, hi⟩ := KeyedList.mem_values_iff_getIdx?.mp h
  rw [modifyTable, KeyedList.getIdx?_modifyIdx] at hi
  obtain ⟨t₀, ht₀, rfl⟩ := Option.map_eq_some_iff.mp hi
  have hold : t₀ ∈ r.tables.values := KeyedList.mem_values_iff_getIdx?.mpr ⟨i, ht₀⟩
  split
  · exact .inr ⟨t₀, hold, rfl⟩
  · exact .inl hold

/-- Changing a table in anything but its foreign keys makes none. -/
theorem constrains_of_modifyTable {id : TableId} {f : Table → Table} {k : ForeignKey}
    (hf : ∀ t, (f t).foreignKeys = t.foreignKeys) (h : (r.modifyTable id f).Constrains k) :
    r.Constrains k := by
  obtain ⟨t, ht, hk⟩ := h
  rcases mem_tables_modifyTable ht with hold | ⟨t₀, hold, rfl⟩
  · exact ⟨t, hold, hk⟩
  · exact ⟨t₀, hold, hf t₀ ▸ hk⟩

/-- A new table has no foreign keys. -/
theorem constrains_of_insertIfNew {key : TableKey} {t : Table} {k : ForeignKey}
    (ht : t.foreignKeys = .empty)
    (h : ({ r with tables := r.tables.insertIfNew key t } : Registry).Constrains k) :
    r.Constrains k := by
  obtain ⟨t', ht', hk⟩ := h
  rcases KeyedList.eq_or_mem_of_mem_values_insertIfNew ht' with rfl | hold
  · rw [ht] at hk
    exact absurd hk List.not_mem_nil
  · exact ⟨t', hold, hk⟩

/-- A steady write makes no foreign key. -/
theorem SteadyWrite.constrains (h : SteadyWrite r r') {k : ForeignKey} (hk : r'.Constrains k) :
    r.Constrains k := by
  cases h with
  | table id hf _ => exact constrains_of_modifyTable hf hk
  | addTable q =>
    rcases r.addTable_cases q with h | ⟨id, h⟩ | h <;> rw [h] at hk
    · exact hk
    · exact constrains_of_modifyTable (f := ({ · with isAbstract := false })) (fun _ => rfl) hk
    · exact constrains_of_insertIfNew rfl hk
  | addImport h =>
    obtain ⟨-, rfl⟩ | ⟨-, rfl⟩ := addImportUnless_eq_ok.mp h <;> exact hk
  | addQuery h =>
    obtain ⟨-, rfl⟩ := addQuery_eq_ok.mp h
    exact hk
  | addSqlQuery h =>
    obtain ⟨-, rfl⟩ := addSqlQuery_eq_ok.mp h
    exact hk
  | addResultSet h =>
    obtain ⟨-, rfl⟩ := addResultSet_eq_ok.mp h
    exact hk
  | tableBinding | auxiliaryObject | defaults => exact hk

/-- A steady write keeps a registry traced. -/
theorem SteadyWrite.tracing (h : SteadyWrite r r') (hr : r.Traced S) :
    S.tracing.Advances r r' := by
  have halike := h.quietWrite.alike
  obtain ⟨hoptions, hreferences⟩ := h.frame
  refine hr.of_same hoptions halike.entities halike.collections ?_
    (fun k hk => .inl (h.constrains hk)) ?_ ?_
  · rw [hreferences]
    exact List.Subset.refl _
  · exact halike.passes ▸ fun _ _ => .inl
  · exact halike.waiting ▸ fun _ => .inl

/-- A table that repeats the columns of another has no foreign keys yet. -/
theorem Traced.addDenormalizedTable (hr : r.Traced S) {q : TableRequest} {parent id : TableId}
    (h : r.addDenormalizedTable q parent = .ok (r', id)) : S.tracing.Advances r r' := by
  cases eq_of_addDenormalizedTable h
  exact hr.of_same rfl rfl rfl (List.Subset.refl _)
    (fun _ hk => .inl (constrains_of_insertIfNew rfl hk)) (fun _ _ => .inl) fun _ => .inl

/-- Definitions keep a registry traced. -/
theorem DefinitionWrite.tracing (h : DefinitionWrite r r') (hr : r.Traced S) :
    S.tracing.Advances r r' := by
  cases h <;>
    exact hr.of_same rfl rfl rfl (List.Subset.refl _) (fun _ => .inl) (fun _ _ => .inl)
      fun _ => .inl

/-! ## Foreign keys and references -/

namespace Traced

theorem advances (hr : r.Traced S) : S.tracing.Advances r r := .refl hr

/-- A foreign key that is traced may be made. -/
theorem addForeignKey (hr : r.Traced S) (id : TableId) {key : Table → ForeignKey}
    (hkey : ∀ t, (key t).Traced S r) :
    S.tracing.Advances r (r.modifyTable id fun t => t.addForeignKey (key t)) := by
  refine hr.of_same rfl rfl rfl (List.Subset.refl _) (fun k hk => ?_) (fun _ _ => .inl)
    fun _ => .inl
  obtain ⟨t, ht, hk⟩ := hk
  rcases mem_tables_modifyTable ht with hold | ⟨t₀, hold, rfl⟩
  · exact .inl ⟨t, hold, hk⟩
  · rcases KeyedList.eq_or_mem_of_mem_values_insert hk with rfl | hbefore
    · exact .inr (hkey t₀)
    · exact .inl ⟨t₀, hold, hbefore⟩

/-- The foreign key of a value may be made to a registered entity, or to the target of an
association without `property-ref`. -/
theorem constrainTo (hr : r.Traced S) (v : SimpleValue) {entity : String}
    (hentity : r.hasEntity entity = true ∨ S.Refers r.options.reflection entity) :
    S.tracing.Advances r (r.constrainTo v entity) := by
  unfold Registry.constrainTo
  dsimp only
  split
  · exact hr.advances
  · split
    · exact hr.advances
    · exact hr.addForeignKey _ fun t => hentity.imp_right fun hrefers => ⟨rfl, hrefers⟩

/-- Making the foreign keys of a traced value keeps the registry traced: each of them is made to the
target of an association that is sourced. -/
theorem constrainValue (hr : r.Traced S) (v : Value) (hv : v.Traced S r) :
    S.tracing.Advances r (r.constrainValue v) := by
  refine of_constrainValue (P := S.tracing.Advances r) v ?_ hr.advances
  intro w hw base toOne _ htoOne entity hentity hproperty r₁ hr₁
  have hsourced : toOne.Sourced S r := by
    have hpart := hv w hw
    cases w with
    | manyToOne w | oneToOne w =>
      cases htoOne
      exact hpart
    | any | collection | component | dependant | oneToMany | simple => cases htoOne
  have hrefers := (hsourced.mono hr₁.keeps).named entity hentity hproperty
  exact hr₁.trans (Registry.Traced.constrainTo hr₁.invariant base (.inr hrefers))

/-- A reference to a property may be recorded. -/
theorem addPropertyReference (hr : r.Traced S) (ref : PropertyReference) :
    S.tracing.Advances r (r.addPropertyReference ref) :=
  hr.of_same rfl rfl rfl (List.subset_append_left _ _) (fun _ => .inl) (fun _ _ => .inl)
    fun _ => .inl

/-- What an association refers to may be recorded, and is then. -/
theorem referTo (hr : r.Traced S) (v : ToOne) : S.tracing.Advances r (r.referTo v) ∧
    ∀ entity property, v.referencedEntity = some entity → v.referencedProperty = some property →
      { entity, property, unique := true } ∈ (r.referTo v).propertyReferences := by
  unfold Registry.referTo
  split
  · next entity property hentity hproperty =>
    refine ⟨hr.addPropertyReference _, fun entity' property' hentity' hproperty' => ?_⟩
    cases hentity.symm.trans hentity'
    cases hproperty.symm.trans hproperty'
    exact List.mem_append_right _ List.mem_cons_self
  · next hother =>
    exact ⟨hr.advances, fun entity property hentity hproperty =>
      absurd hproperty (hother entity property hentity)⟩

/-- A foreign key may be put off. -/
theorem queuePropertyRef (hr : r.Traced S) (v : ManyToOne) :
    S.tracing.Advances r (r.queuePropertyRef v) := by
  unfold Registry.queuePropertyRef
  split
  · split
    · exact hr.advances
    · refine hr.of_same rfl rfl rfl (List.Subset.refl _) (fun _ => .inl) (fun kind pass hpass => ?_)
        fun _ => .inl
      rcases List.mem_append.mp hpass with hold | hnew
      · exact .inl hold
      · cases List.mem_singleton.mp hnew
  · exact hr.advances

/-! ## Entities -/

/-- An entity may be changed into one that is traced under its name. -/
theorem modifyEntity (hr : r.Traced S) {name : String} {f : Entity → Entity}
    (h : ∀ e : Entity, e.name = name → e.Traced S r → (f e).name = name ∧ (f e).Traced S r) :
    S.tracing.Advances r (r.modifyEntity name f) := by
  have hretains : r.Retains (r.modifyEntity name f) := by
    refine ⟨rfl, fun {name'} hhas => ?_, List.Subset.refl _, fun {_ c} hc => ⟨c, hc, rfl⟩⟩
    obtain ⟨e, he⟩ := hasEntity_iff_exists.mp hhas
    exact hasEntity_iff_exists.mpr ⟨_, by rw [entity?_modifyEntity, he]; rfl⟩
  refine hr.grow hretains (fun name' e' he' => ?_) (fun _ => .inl) (fun _ _ => .inl)
    (fun _ _ => .inl) fun _ => .inl
  rw [entity?_modifyEntity] at he'
  obtain ⟨e, he, rfl⟩ := Option.map_eq_some_iff.mp he'
  split
  · next hsame =>
    subst hsame
    obtain ⟨hown, htraced⟩ := hr.entities name' e he
    exact .inr ((h e hown htraced).imp_right (·.mono hretains))
  · exact .inl he

/-- A traced entity may be registered. -/
theorem addEntity (hr : r.Traced S) {e : Entity} (he : e.Traced S r)
    (h : r.addEntity e = .ok r') : S.tracing.Advances r r' := by
  have hkept : ∀ {name}, r.hasEntity name = true → r'.hasEntity name = true := by
    intro name hhas
    obtain ⟨e₀, he₀⟩ := hasEntity_iff_exists.mp hhas
    exact hasEntity_iff_exists.mpr ⟨e₀, entity?_of_addEntity_of_some h he₀⟩
  obtain ⟨-, rfl⟩ := addEntity_eq_ok.mp h
  have hretains : r.Retains { r with entities := r.entities.insert e.name e } :=
    ⟨rfl, hkept, List.Subset.refl _, fun {_ c} hc => ⟨c, hc, rfl⟩⟩
  refine hr.grow hretains (fun name e' he' => ?_) (fun _ => .inl) (fun _ _ => .inl)
    (fun _ _ => .inl) fun _ => .inl
  rcases eq_or_of_entity?_addEntity h he' with ⟨rfl, rfl⟩ | hold
  · exact .inr ⟨rfl, he.mono hretains⟩
  · exact .inl hold

/-! ## Collections and queues -/

/-- A traced collection may be registered, and is then found. -/
theorem addCollection (hr : r.Traced S) {c : Collection} (hc : c.Traced S r)
    (h : r.addCollection c = .ok r') :
    S.tracing.Advances r r' ∧ r'.collection? c.role = some c := by
  refine ⟨?_, collection?_self_of_addCollection h⟩
  have hkept : ∀ {role c₀}, r.collection? role = some c₀ → ∃ c', r'.collection? role = some c' ∧
      c'.orphanDelete = c₀.orphanDelete :=
    fun {_ c₀} hc₀ => ⟨c₀, collection?_of_addCollection_of_some h hc₀, rfl⟩
  obtain ⟨-, rfl⟩ := addCollection_eq_ok.mp h
  have hretains : r.Retains { r with collections := r.collections.insert c.role c } :=
    ⟨rfl, id, List.Subset.refl _, hkept⟩
  refine hr.grow hretains (fun _ _ => .inl) (fun _ => .inl) (fun role c' hc' => ?_)
    (fun _ _ => .inl) fun _ => .inl
  rcases eq_or_of_collection?_addCollection h hc' with ⟨rfl, rfl⟩ | hold
  · exact .inr ⟨rfl, hc.mono hretains⟩
  · exact .inl hold

/-- A collection may be replaced by a traced one that does the same with orphans. -/
theorem replaceCollection (hr : r.Traced S) {c : Collection} (hc : c.Traced S r)
    (horphans : ∀ c₀, r.collection? c.role = some c₀ → c.orphanDelete = c₀.orphanDelete) :
    S.tracing.Advances r (r.modifyCollection c.role fun _ => c) := by
  have hretains : r.Retains (r.modifyCollection c.role fun _ => c) := by
    refine ⟨rfl, id, List.Subset.refl _, fun {role c₀} hc₀ => ?_⟩
    refine ⟨_, by rw [collection?_modifyCollection, hc₀, Option.map_some], ?_⟩
    split
    · next hrole => exact horphans c₀ (hrole ▸ hc₀)
    · rfl
  refine hr.grow hretains (fun _ _ => .inl) (fun _ => .inl) (fun role c' hc' => ?_)
    (fun _ _ => .inl) fun _ => .inl
  rcases eq_or_of_collection?_replaced hc' with ⟨rfl, rfl⟩ | hold
  · exact .inr ⟨rfl, hc.mono hretains⟩
  · exact .inl hold

/-- A pass may be queued whose element is read in its scope. -/
theorem addContents (hr : r.Traced S) (kind : PassKind) {pass : CollectionPass}
    (hpass : S.Reads pass.scope pass.node) :
    S.tracing.Advances r (r.addPass (.contents kind pass)) := by
  refine hr.of_same rfl rfl rfl (List.Subset.refl _) (fun _ => .inl) (fun kind' pass' hpass' => ?_)
    fun _ => .inl
  rcases List.mem_append.mp hpass' with hold | hnew
  · exact .inl hold
  · cases List.mem_singleton.mp hnew
    exact .inr hpass

/-- The element of a pass that is taken off the queue is read in the scope of the pass. -/
theorem nextPass (hr : r.Traced S) {pass : DeferredPass} (h : r.nextPass? = some (pass, r')) :
    S.tracing.Advances r r' ∧
      ∀ kind contents, pass = .contents kind contents → S.Reads contents.scope contents.node := by
  obtain ⟨passes, hpasses, rfl⟩ := nextPass?_eq_some_iff.mp h
  refine ⟨hr.of_same rfl rfl rfl (List.Subset.refl _) (fun _ => .inl) (fun kind other hother => ?_)
    fun _ => .inl, ?_⟩
  · exact .inl (hpasses ▸ List.mem_cons_of_mem pass hother)
  · rintro kind contents rfl
    exact hr.passes kind contents (hpasses ▸ List.mem_cons_self)

/-- The queue of waiting documents may be changed for another queue of documents. -/
theorem setWaiting (hr : r.Traced S) {waiting : List PendingDocument}
    (h : ∀ pending ∈ waiting, S.documents pending.document) :
    S.tracing.Advances r { r with waiting } :=
  hr.of_same rfl rfl rfl (List.Subset.refl _) (fun _ => .inl) (fun _ _ => .inl)
    fun pending hpending => .inr (h pending hpending)

end Traced

end Registry

end ObjectMapping
