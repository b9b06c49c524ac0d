import ObjectMapping.Proofs.ValueBinding

/-!
# Binding components

A component is stored in the table of its site, and all of its members are.  Its unique key is
put on the table of its owner, though, which is another one for a component inside a join or a
collection; so what is known of unique keys is known as long as no component there is marked as
unique.  The collections among the members are registered with the table of their elements, or
without one if those are entities.
-/

namespace ObjectMapping

open Binding Registry

variable {S : Source} {r : Registry} {id : TableId}

/-! ## Collections -/

/-- A comment changes neither columns nor constraints. -/
theorem leads_commentTable (id : TableId) (node : Element) :
    Leads S (commentTable id node) r fun _ _ => True := by
  unfold commentTable
  split
  · refine .write fun hr => hr.modifyTable fun t ht => ?_
    exact (hr.tables id t ht).relabel rfl rfl rfl rfl rfl rfl rfl
  · exact .pure trivial

/-- A table that is opened is there afterwards. -/
theorem leads_openTable (q : TableRequest) :
    Leads S (openTable q) r fun id r' => r'.Holds id := by
  intro hr
  obtain ⟨hadvances, hid⟩ := hr.addTable q
  refine ⟨hadvances, fun id r' hrun => ?_⟩
  cases hrun
  exact hid

/-- So is the table of a collection. -/
theorem leads_openCollectionTable (scope : Scope) (node : Element) (role : String)
    (owner : Owner) :
    Leads S (openCollectionTable scope node role owner) r fun id r' => r'.Holds id := by
  unfold openCollectionTable
  refine .get_bind (.bind (leads_openTable _) fun id r₁ _ hid => ?_)
  exact .bind (leads_commentTable id node) fun _ r₂ hincluded _ => .pure (hid.mono hincluded)

/-- Either the elements of a collection are entities, or there is a table for them. -/
theorem leads_openElement (scope : Scope) (node : Element) (role : String) (owner : Owner) :
    Leads S (openElement scope node role owner) r fun p r' =>
      (∃ v : OneToMany, v.associatedTable = none ∧ p = (some (.oneToMany v), none)) ∨
        ∃ id, p = (none, some id) ∧ r'.Holds id := by
  unfold openElement
  split
  · exact .pure (.inl ⟨_, rfl, rfl⟩)
  · exact .bind (leads_openCollectionTable _ _ _ _) fun id r' _ hid => .pure (.inr ⟨id, rfl, hid⟩)

/-- A collection is registered without key and index, and its pass is queued. -/
theorem leads_bindCollection (scope : Scope) {node : Element} (hnode : S.Has node)
    {kind : CollectionKind} (htag : node.tag? = some (.collection kind)) (role : String)
    (owner : Owner) : Leads S (bindCollection scope node kind role owner) r fun v _ =>
      v = .collection role := by
  unfold bindCollection
  refine .ofExcept_bind fun batchSize _ => ?_
  refine .optional (fun _ => ?_) fun r₁ _ => ?_
  · refine .write fun hr => hr.modifyEntity fun e he => ?_
    have hgrounded := hr.entities _ e he
    exact ⟨⟨rfl, rfl, rfl, fun _ h => h, fun _ h => h⟩, hgrounded.table, hgrounded.properties,
      hgrounded.joins, hgrounded.kind⟩
  · refine .bind (leads_openElement scope node role owner) fun ⟨element, table⟩ r₂ _ hopened => ?_
    refine .bind (.of_same (.mapM same_bindFilterUse _))
      fun filters r₃ hincluded _ => ?_
    split
    refine .bind (.register fun r' hr hadd => hr.addCollection ?_ hadd) fun _ r₄ _ _ => ?_
    · rcases hopened with ⟨v, hv, heq⟩ | ⟨id, heq, hid⟩
      all_goals cases heq
      · refine ⟨nofun, fun _ => rfl, ?_, ?_⟩
        · intro w hw part hpart
          cases List.mem_singleton.mp hw
          cases List.mem_singleton.mp hpart
          exact fun id hid => by rw [hv] at hid; cases hid
        · rintro w (h | h) <;> cases h
      · refine ⟨fun _ h => Option.some.inj h ▸ hid.mono hincluded, nofun, ?_, ?_⟩
        · exact fun _ hw => absurd hw List.not_mem_nil
        · rintro w (h | h) <;> cases h
    · have hpass : S.Has node ∧ node.OpensTable := ⟨hnode, Element.opensTable_of_tag htag rfl⟩
      exact .bind (.write fun hr => hr.addPass hpass) fun _ _ _ _ => .pure rfl

/-! ## Components -/

/-- A collection has no columns among those of its owner. -/
theorem Value.groundedIn_collection (hid : r.Holds id) (role : String) :
    (Value.collection role).GroundedIn S r id :=
  Value.groundedIn_of_rooted rfl trivial hid.hasColumns_nil

/-- A component is grounded if its members are. -/
theorem Value.groundedIn_component {c : Component} (htable : c.table = some id) (hid : r.Holds id)
    (hmembers : ∀ p ∈ c.properties, p.GroundedIn S r id) :
    (Value.component c).GroundedIn S r id := by
  refine ⟨Value.grounded_component_iff.mpr ⟨⟨id, htable, hid⟩, fun p hp => (hmembers p hp).1⟩, ?_⟩
  rw [Value.columnNames_component]
  exact hasColumns_flatMap hid fun p hp => (hmembers p hp).2

/-- Whether a component is grounded depends on its table and its members only. -/
theorem Value.GroundedIn.component_congr {c c' : Component}
    (h : (Value.component c).GroundedIn S r id) (htable : c'.table = c.table)
    (hproperties : c'.properties = c.properties) : (Value.component c').GroundedIn S r id := by
  obtain ⟨hgrounded, hcolumns⟩ := h
  rw [Value.grounded_component_iff, ← htable, ← hproperties] at hgrounded
  refine ⟨Value.grounded_component_iff.mpr hgrounded, ?_⟩
  rwa [Value.columnNames_component, hproperties, ← Value.columnNames_component]

mutual

/-- A component and its members are in the table of its site.  That is the table of its owner,
or the component is below a join or a collection. -/
theorem leads_bindComponent {r : Registry} (scope : Scope) {site : ComponentSite}
    (hsite : site.table = some id) (hid : r.Holds id) : ∀ node, S.Has node →
      (site.owner.table = id ∨ S.Inner node ∧ node.IsComponent) →
      Leads S (bindComponent scope site node) r fun c r' => (Value.component c).GroundedIn S r' id
  | ⟨name, attributes, children, text⟩, hnode, hplace => by
    have hchildren : ∀ c ∈ children, S.Has c := fun c hc => hnode.child hc
    have hinner : site.owner.table = id ∨ ∀ c ∈ children, S.Inner c :=
      hplace.imp (fun h => h) fun h c hc => h.1.child hc
    rw [bindComponent]
    refine .get_bind ?_
    split
    refine .bind (leads_bindMembers _ hsite hid _ children hchildren hinner)
      fun properties r₁ hincluded hmembers => ?_
    have hid₁ := hid.mono hincluded
    refine .optional (fun hunique => ?_) fun r₂ hincluded' => .pure ?_
    · refine .writeTable fun t ht hgrounded => hgrounded.createUniqueKey ?_
      rcases hplace with hown | ⟨hin, htag⟩
      · have hcolumns := hasColumns_flatMap hid₁ fun p hp => (hmembers p hp).2
        exact .inr (hcolumns.subset (hown ▸ ht))
      · exact .inl ⟨_, hin, htag, hunique⟩
    · exact Value.groundedIn_component hsite (hid₁.mono hincluded') fun p hp =>
        (hmembers p hp).mono hincluded'

/-- The members of a component are in the table of its site. -/
theorem leads_bindMembers {r : Registry} (scope : Scope) {site : ComponentSite}
    (hsite : site.table = some id) (hid : r.Holds id) (className : Option String) :
    ∀ children, (∀ c ∈ children, S.Has c) →
      (site.owner.table = id ∨ ∀ c ∈ children, S.Inner c) →
      Leads S (bindMembers scope site className children) r fun ps r' =>
        ∀ p ∈ ps, p.GroundedIn S r' id
  | [], _, _ => by
    rw [bindMembers]
    exact .pure fun _ hp => absurd hp List.not_mem_nil
  | node :: rest, hchildren, hinner => by
    rw [List.forall_mem_cons] at hchildren
    have hplace : ∀ tag, node.tag? = some tag → tag.isComponent →
        site.owner.table = id ∨ S.Inner node ∧ node.IsComponent := by
      intro tag htag hcomponent
      exact hinner.imp (fun h => h) fun h =>
        ⟨h node List.mem_cons_self, Element.isComponent_of_tag htag hcomponent⟩
    unfold bindMembers
    extract_lets name others
    have hothers : ∀ value r', r.IncludedIn r' → (∀ v, value = some v → v.GroundedIn S r' id) →
        Leads S (others value) r' fun ps r' => ∀ p ∈ ps, p.GroundedIn S r' id := by
      intro value r₁ hincluded hvalue
      have hrest := fun r' (h : r.IncludedIn r') => leads_bindMembers scope hsite (hid.mono h)
        className rest hchildren.2 (hinner.imp (fun h => h) fun h => (List.forall_mem_cons.mp h).2)
      cases value with
      | none => exact hrest r₁ hincluded
      | some value =>
        refine .bind (leads_createProperty scope node (hvalue value rfl) className _)
          fun p r₂ hincluded₁ hp => ?_
        refine .bind (hrest r₂ (hincluded.trans hincluded₁)) fun ps r₃ hincluded₂ hps => .pure ?_
        refine List.forall_mem_cons.mpr ⟨?_, hps⟩
        have hp₃ := hp.mono hincluded₂
        split <;> exact hp₃
    clear_value others
    have hcolumns : (site.columnSite name).table = some id := hsite
    have hcomponent : ∀ tag, node.tag? = some tag → tag.isComponent →
        Leads S (do others (some (.component (← bindComponent scope
          (site.nested className name) node)))) r fun ps r' => ∀ p ∈ ps, p.GroundedIn S r' id := by
      intro tag htag hcomponent
      have hnested : (site.nested className name).table = some id := hsite
      refine .bind (leads_bindComponent scope hnested hid node hchildren.1
        (hplace tag htag hcomponent)) fun c r₁ hincluded hc => ?_
      exact hothers _ r₁ hincluded fun _ => hc.of_some
    split
    · next kind htag =>
      refine .bind (leads_bindCollection scope hchildren.1 htag _ _) fun v r₁ hincluded hv => ?_
      have hin := Value.groundedIn_collection (S := S) (hid.mono hincluded)
      exact hothers _ r₁ hincluded fun _ => (hv ▸ hin _).of_some
    · exact hcomponent _ ‹_› rfl
    · exact hcomponent _ ‹_› rfl
    · exact hcomponent _ ‹_› rfl
    · next htag =>
      have hkey : node.tag? ≠ some .key := by rw [htag]; nofun
      exact .bind (leads_bindOneToOne scope hcolumns hid _ hchildren.1 hkey)
        fun v r₁ hincluded hv => hothers _ r₁ hincluded fun _ => hv.of_some
    · next tag _ _ _ _ _ htag =>
      refine .bind (leads_bindSimpleMember scope hcolumns hid hchildren.1 fun hmember => ?_) hothers
      rw [htag]
      rintro ⟨⟩
      cases hmember
    · exact hothers none r (.refl r) fun _ h => by cases h

end

end ObjectMapping
