import ObjectMapping.Proofs.ContentsBinding
import ObjectMapping.Proofs.EntityTracing
import ObjectMapping.Proofs.StockingContents

/-!
# Tracing contents

What a deferred pass adds to its collection is traced: associations among the contents have their
references recorded, and the components are bound as they are anywhere else.  The copy that the pass
works on does with orphans what the registered collection does.  Backrefs are synthetic, and the
foreign keys that had to wait are made to registered entities.
-/

namespace ObjectMapping

open Binding Registry

variable {S : Source} {r : Registry} {scope : Scope} {node : Element} {c c' : Collection}

/-! ## Collections in progress -/

/-- A collection is traced, and does with orphans what the one registered under its role does. -/
structure Collection.InProgress (S : Source) (r : Registry) (c : Collection) : Prop where
  traced : c.Traced S r
  registered : ∃ c₀, r.collection? c.role = some c₀ ∧ c₀.orphanDelete = c.orphanDelete

namespace Collection.InProgress

theorem mono {r' : Registry} (h : r.Retains r') (hc : c.InProgress S r) : c.InProgress S r' := by
  refine ⟨hc.traced.mono h, ?_⟩
  obtain ⟨c₀, hc₀, horphans⟩ := hc.registered
  obtain ⟨c₁, hc₁, hkept⟩ := h.collections hc₀
  exact ⟨c₁, hc₁, hkept.trans horphans⟩

/-- A collection may get further contents that are traced and no collections.  An index that is a
simple value has a type. -/
theorem update (h : c.InProgress S r) (hrole : c'.role = c.role)
    (horphans : c'.orphanDelete = c.orphanDelete)
    (hvalues : ∀ w ∈ c'.values, (w.Traced S r ∧ w.isCollection = false) ∨ w ∈ c.values)
    (htyped : ∀ s, c'.index = some (.simple s) →
      s.typeName.isSome ∨ c.index = some (.simple s)) : c'.InProgress S r := by
  refine ⟨⟨fun w hw => (hvalues w hw).elim id (h.traced.values w), fun s hs => ?_⟩, ?_⟩
  · exact (htyped s hs).elim id (h.traced.typed s)
  · rw [hrole, horphans]
    exact h.registered

end Collection.InProgress

/-! ## Keys and elements -/

/-- What the key of a collection refers to is traced. -/
theorem Registry.Traced.keyTarget (hr : r.Traced S) {owner : Owner} {v : Value}
    (h : r.keyTarget c owner = .ok v) : v.Traced S r := by
  unfold Registry.keyTarget at h
  split at h
  · split at h
    · next hidentifier =>
      cases h
      exact hr.identifierValue hidentifier
    · cases h
  · split at h
    · next hproperty =>
      cases h
      exact hr.referencedProperty hproperty
    · cases h

theorem upholds_bindCollectionKey (c : Collection) (owner : Owner) (node : Element) :
    Upholds S.tracing (bindCollectionKey c owner node) r fun v r' =>
      v.Traced S r' ∧ v.isCollection = false := by
  unfold bindCollectionKey
  refine .of_invariant fun hr => .get_bind (.ofExcept_bind fun wrapped hwrapped => ?_)
  have htarget := Registry.Traced.keyTarget hr hwrapped
  refine .bind (steady_bindSimpleValue _ _).traces fun base r₁ hkeeps _ => ?_
  dsimp only
  refine .ite (fun _ => .pure ?_) fun _ => ?_
  · exact ⟨Value.traced_dependant _ (htarget.mono hkeeps) _ _, rfl⟩
  · refine .bind (steady_changeTable _ (f := (·.requireColumns _)) (fun _ => rfl)
      fun t => .requireColumns t _).traces fun _ r₂ hkeeps' _ => .pure ⟨?_, rfl⟩
    exact Value.traced_dependant _ ((htarget.mono hkeeps).mono hkeeps') _ _

/-- An association among the contents of a collection is traced once its reference is recorded. -/
theorem upholds_referTo (hnode : S.Reads scope node) {v : ManyToOne}
    (hv : (Value.manyToOne v).ReadFrom S r scope node) :
    Upholds S.tracing (modify (·.referTo v.toOne)) r fun _ r' =>
      (Value.manyToOne v).Traced S r' := by
  refine .modify fun hr => ?_
  obtain ⟨hadvances, hrecorded⟩ := Registry.Traced.referTo hr v.toOne
  have hdescribed := (hv.mono hadvances.keeps).described
  refine ⟨hadvances, Value.traced_of_sourced rfl ?_⟩
  exact hdescribed.2.sourced hnode hdescribed.1 hrecorded

/-- The foreign keys of a traced collection may be made once its owner is registered. -/
theorem Registry.Traced.constrainContents (hr : r.Traced S) (hc : c.Traced S r) {owner : Owner}
    (howner : r.hasEntity owner.name = true) :
    S.tracing.Advances r (r.constrainContents c owner) := by
  unfold Registry.constrainContents
  split
  · exact hr.advances
  · extract_lets keyed
    have hkeyed : S.tracing.Advances r keyed := by
      unfold keyed
      split
      · exact hr.constrainTo _ (.inl howner)
      · exact hr.advances
    clear_value keyed
    split
    · next v helement =>
      have htraced := (hc.values v (Collection.mem_values.mpr (.inr (.inl helement)))).1
      exact hkeyed.trans (hkeyed.invariant.constrainValue v (htraced.mono hkeyed.keeps))
    · exact hkeyed

/-! ## Backrefs -/

/-- A property that shows the key or the index of a traced collection may be added. -/
theorem upholds_addBackref (node : Element) (hc : c.Traced S r) (kind : BackrefKind) :
    Upholds S.tracing (addBackref node c kind) r fun _ _ => True := by
  unfold addBackref
  split
  · exact .pure trivial
  · next target p hshown =>
    obtain ⟨hvalue, hcollection⟩ := hc.values p.value <| Collection.mem_values.mpr <|
      (Collection.shows_of_backref? hshown).imp_right fun hindex => .inr (.inl hindex)
    have hsourced : p.Sourced S r :=
      .inl ⟨(Collection.synthetic_of_backref? hshown).1, hcollection⟩
    refine .get_bind (.ite (fun _ => ?_) fun _ => .throw _)
    exact .write fun hr => hr.modifyEntity fun e hname he =>
      ⟨hname, Entity.traced_iff.mpr ((Entity.traced_iff.mp he).addProperty ⟨hvalue, hsourced⟩)⟩

/-! ## Passes -/

/-- An owner that is found is registered. -/
theorem upholds_find (name : String) : Upholds S.tracing (Owner.find name) r
    fun owner r' => owner.name = name ∧ r'.hasEntity owner.name = true := by
  unfold Owner.find
  refine .of_invariant fun hr => .get_bind (.require _ fun owner hfound => ?_)
  obtain ⟨e, he, rfl⟩ := Option.map_eq_some_iff.mp hfound
  have hname : (Owner.ofEntity e).name = name := (hr.entities name e he).1
  exact ⟨hname, hasEntity_iff_exists.mpr ⟨e, hname.symm ▸ he⟩⟩

/-- The foreign key of an association to a property is made to a registered entity. -/
theorem upholds_bindPropertyRef (pass : PropertyRefPass) :
    Upholds S.tracing (bindPropertyRef pass) r fun _ _ => True := by
  unfold bindPropertyRef
  refine .get_bind (.require_bind fun entity hentity => .require_bind fun p _ => ?_)
  refine .ite (fun _ => .pure trivial) fun _ => ?_
  unfold changeTable
  split
  · have hregistered := hasEntity_of_resolveEntityName? hentity
    exact .write fun hr => hr.addForeignKey _ fun _ => .inl hregistered
  · exact .pure trivial

/-- What is traced, among collections and their contents. -/
def Source.contents (S : Source) : S.stock.Contents where
  collection r c := c.InProgress S r
  content r _ v := v.Traced S r ∧ v.isCollection = false
  owner r o := r.hasEntity o.name = true

/-- Whatever a pass binds for an element of the documents is traced. -/
theorem kept_contents (S : Source) : S.contents.Kept where
  toKept := kept_stock S
  collection_later hkeeps hc := hc.mono hkeeps
  content_later hkeeps hv := hv.imp_left (·.mono hkeeps)
  owner_later hkeeps ho := hkeeps.entities ho
  registered {_ role c} hr hfound := by
    obtain ⟨hrole, htraced⟩ := hr.collections role c hfound
    exact ⟨htraced, c, hrole ▸ hfound, rfl⟩
  update hc hrole _ _ _ horphans := hc.update hrole horphans
  content_simple v := ⟨Value.traced_simple v, rfl⟩
  content_any v := ⟨Value.traced_any v, rfl⟩
  content_oneToMany v := ⟨Value.traced_oneToMany v, rfl⟩
  content_component hc := ⟨hc, rfl⟩
  find := upholds_find
  bindCollectionKey _ := upholds_bindCollectionKey
  bindManyToOne _ htag hassociation _ site := upholds_bindManyToOne _ site <|
    Element.isAssociation_of_tag htag (by rcases hassociation with rfl | rfl <;> rfl)
  referTo hnode hv := (upholds_referTo hnode hv).mono fun _ _ _ htraced => ⟨htraced, rfl⟩
  queuePropertyRef v hr := Registry.Traced.queuePropertyRef hr v
  constrainValue hv hr := Registry.Traced.constrainValue hr _ hv.1
  constrainContents hc ho hr := Registry.Traced.constrainContents hr hc.traced ho
  addBackref hc node kind := upholds_addBackref node hc.traced kind
  store hc hr := hr.replaceCollection hc.traced fun c₀ hc₀ => by
    obtain ⟨c₁, hc₁, horphans⟩ := hc.registered
    cases hc₁.symm.trans hc₀
    exact horphans.symm
  bindPropertyRef := upholds_bindPropertyRef

/-- A deferred pass keeps the registry traced if its element is read in its scope. -/
theorem upholds_run {pass : DeferredPass}
    (hpass : ∀ kind contents, pass = .contents kind contents →
      S.Reads contents.scope contents.node) :
    Upholds S.tracing pass.run r fun _ _ => True :=
  (kept_contents S).run hpass

end ObjectMapping
