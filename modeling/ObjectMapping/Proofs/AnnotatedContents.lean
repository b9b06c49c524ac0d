import ObjectMapping.Proofs.AnnotatedBinding
import ObjectMapping.Proofs.ContentsBinding
import ObjectMapping.Proofs.StockingContents

/-!
# Annotated contents

A deferred pass keeps the meta attributes of its collection, and binds the contents in the scope
that the collection was registered in: that is the scope of its own element, which lets through what
is handed down to it.  Backrefs are synthetic.
-/

namespace ObjectMapping

open Binding Registry

variable {documents : Document → Prop} {r : Registry} {d : Document} {scope : Scope}
  {node : Element} {c c' : Collection}

/-! ## Collections in progress -/

namespace Collection.Annotated

/-- A collection may get further contents that are annotated, as long as its role, its kind and its
own meta attributes stay. -/
theorem update (h : c.Annotated documents) (hrole : c'.role = c.role) (hkind : c'.kind = c.kind)
    (hmetas : c'.metas = c.metas)
    (hvalues : ∀ w ∈ c'.values, w.Annotated documents ∨ w ∈ c.values) :
    c'.Annotated documents := by
  refine ⟨h.own.mono fun root node hc => ⟨?_, ?_, ?_⟩, fun w hw => ?_⟩
  · rw [hkind]
    exact hc.tag
  · rw [hrole]
    exact hc.role
  · rw [hmetas]
    exact hc.metas
  · exact (hvalues w hw).elim id (h.values w)

end Collection.Annotated

/-! ## Keys and elements -/

/-- What the key of a collection refers to is stored. -/
theorem Registry.Annotated.keyTarget (hr : r.Annotated documents) {owner : Owner} {v : Value}
    (h : r.keyTarget c owner = .ok v) : v.Annotated documents := by
  have hstored : ∀ {name : String} {e : Entity}, r.Ancestor name e → ∀ w ∈ e.values,
      w.Annotated documents := by
    intro name e hancestor w hw
    obtain ⟨name', hname⟩ := hancestor.registered
    exact (hr.entities name' e hname).stored.value hw
  unfold Registry.keyTarget at h
  split at h
  · split at h
    · next hidentifier =>
      cases h
      obtain ⟨e, hancestor, hw⟩ := stored_of_identifierValue? hidentifier
      exact hstored hancestor _ hw
    · cases h
  · split at h
    · next hproperty =>
      cases h
      obtain ⟨e, hancestor, ⟨w, hw, hparts⟩, -⟩ := stored_of_referencedProperty? hproperty
      exact fun c hc => hstored hancestor w hw c (hparts hc)
    · cases h

theorem annotates_bindCollectionKey (c : Collection) (owner : Owner) (node : Element) :
    Upholds (annotating documents) (bindCollectionKey c owner node) r
      fun v _ => v.Annotated documents := by
  unfold bindCollectionKey
  refine .of_invariant fun hr => .get_bind (.ofExcept_bind fun wrapped hwrapped => ?_)
  have htarget := Registry.Annotated.keyTarget hr hwrapped
  refine .bind (annotates_steady (steady_bindSimpleValue _ _)) fun base r₁ _ _ => ?_
  dsimp only
  refine .ite (fun _ => .pure (Value.annotated_dependant_iff.mpr htarget)) fun _ => ?_
  exact .bind (annotates_quiet (quiet_changeTable _ fun t => .requireColumns t _))
    fun _ _ _ _ => .pure (Value.annotated_dependant_iff.mpr htarget)

/-! ## Backrefs -/

/-- A backref is synthetic, and shows a value of its collection. -/
theorem annotates_addBackref (node : Element) (hc : c.Annotated documents) (kind : BackrefKind) :
    Upholds (annotating documents) (addBackref node c kind) r fun _ _ => True := by
  unfold addBackref
  split
  · exact .pure trivial
  · next target p hshown =>
    have hvalue := hc.values p.value <| Collection.mem_values.mpr <|
      (Collection.shows_of_backref? hshown).imp_right fun hindex => .inr (.inl hindex)
    obtain ⟨-, hbackref, hmetas⟩ := Collection.synthetic_of_backref? hshown
    have hp : p.Annotated documents := .inl ⟨by rw [Property.isSynthetic, hbackref]; rfl, hmetas⟩
    refine .get_bind (.ite (fun _ => ?_) fun _ => .throw _)
    exact .write fun hr => Registry.Annotated.modifyEntity hr target fun e hname he =>
      ⟨hname, he.congr rfl rfl (he.stored.addProperty ⟨hvalue, hp⟩)⟩

/-! ## Passes -/

/-- An owner that is found is the entity of that name. -/
theorem annotates_find (name : String) : Upholds (annotating documents) (Owner.find name) r
    fun owner _ => owner.name = name ∧ True := by
  unfold Owner.find
  refine .of_invariant fun hr => .get_bind (.require _ fun owner hfound => ?_)
  obtain ⟨e, he, rfl⟩ := Option.map_eq_some_iff.mp hfound
  exact ⟨hr.named name e he, trivial⟩

/-- What is annotated, among collections and their contents. -/
def annotatedContents (documents : Document → Prop) (d : Document) :
    (annotatedStock documents d).Contents where
  collection _ c := c.Annotated documents
  content _ _ v := v.Annotated documents
  owner _ _ := True

/-- Whatever a pass binds for an element of a document is annotated. -/
theorem kept_annotatedContents (hd : documents d) : (annotatedContents documents d).Kept where
  toKept := kept_annotatedStock hd
  collection_later _ hc := hc
  content_later _ hv := hv
  owner_later _ _ := trivial
  registered {_ role c} hr hfound := hr.collections role c hfound
  update hc hrole _ hkind hmetas _ hvalues _ := hc.update hrole hkind hmetas hvalues
  content_simple _ := Value.annotated_of_single rfl rfl
  content_any _ := Value.annotated_of_single rfl rfl
  content_oneToMany _ := Value.annotated_of_single rfl rfl
  content_component hc := hc
  find := annotates_find
  bindCollectionKey _ := annotates_bindCollectionKey
  bindManyToOne {_ scope node _} _ _ _ _ _ := annotates_yields (steady_bindManyToOne _ _ _).quiet
    (P := fun v => (Value.manyToOne v).Suits documents scope node)
    fun _ _ _ _ => Value.suits_of_single rfl rfl
  referTo _ _ := .modify fun hr =>
    ⟨Registry.Annotated.of_alike hr (quietWrites_referTo _ _).alike,
      Value.annotated_of_single rfl rfl⟩
  queuePropertyRef v hr := Registry.Annotated.queuePropertyRef hr v
  constrainValue _ hr := Registry.Annotated.of_alike hr (quietWrites_constrainValue _ _).alike
  constrainContents _ _ hr := Registry.Annotated.of_alike hr
    (quietWrites_constrainContents _ _ _).alike
  addBackref hc node kind := annotates_addBackref node hc kind
  store hc hr := Registry.Annotated.replaceCollection hr hc
  bindPropertyRef pass := annotates_quiet (quiet_bindPropertyRef pass)

/-- A deferred pass keeps the registry annotated if its element is reached in its scope. -/
theorem annotates_run {pass : DeferredPass} (hpass : ∀ kind contents,
    pass = .contents kind contents → ∃ d, documents d ∧ d.Reaches contents.scope contents.node) :
    Upholds (annotating documents) pass.run r fun _ _ => True := by
  cases pass with
  | contents kind pass =>
    obtain ⟨d, hd, hnode⟩ := hpass kind pass rfl
    refine (kept_annotatedContents hd).run ?_
    rintro _ _ ⟨⟩
    exact hnode
  | propertyRef pass => exact annotates_quiet (quiet_bindPropertyRef pass)

end ObjectMapping
