import ObjectMapping.Proofs.EntityBinding

/-!
# Binding bodies

The properties of a body are stored in the table of its entity, those of a join in a table of
its own.  A body is bound child by child, down through the bodies of nested subclasses, and
what each child adds keeps the registry grounded.  A document is a sequence of such bodies.
-/

namespace ObjectMapping

open Binding Registry

variable {S : Source} {r : Registry} {id : TableId}

/-! ## Joins -/

/-- The value of a child of a join is in the table of the join. -/
theorem leads_bindJoinedValue (scope : Scope) (owner : Owner) (hid : r.Holds id) {node : Element}
    (hnode : S.Has node) (hinner : S.Inner node) :
    Leads S (bindJoinedValue scope owner id node) r fun o r' =>
      ∀ v, o = some v → v.GroundedIn S r' id := by
  have hcomponent : ∀ tag, node.tag? = some tag → tag.isComponent → ∀ site : ComponentSite,
      site.table = some id → Leads S (do
        return some (Value.component (← bindComponent scope site node))) r fun o r' =>
          ∀ v, o = some v → v.GroundedIn S r' id := by
    intro tag htag hcomponent site hsite
    have hplace := Element.isComponent_of_tag htag hcomponent
    exact .bind (leads_bindComponent scope hsite hid node hnode (.inr ⟨hinner, hplace⟩))
      fun c r' _ hc => .pure fun _ => hc.of_some
  unfold bindJoinedValue
  dsimp only
  split
  · exact hcomponent _ ‹_› rfl _ rfl
  · exact hcomponent _ ‹_› rfl _ rfl
  · next tag _ _ htag =>
    refine leads_bindSimpleMember scope rfl hid hnode fun hmember => ?_
    rw [htag, hmember]
    decide
  · exact .pure fun _ h => by cases h

/-- The properties of a join are grounded. -/
theorem leads_bindJoinedProperties (scope : Scope) (owner : Owner) (hid : r.Holds id)
    (isOptional : Bool) {children : List Element}
    (hchildren : ∀ c ∈ children, S.Has c ∧ S.Inner c) :
    Leads S (bindJoinedProperties scope owner id isOptional children) r fun ps r' =>
      ∀ p ∈ ps, p.Grounded S r' := by
  induction children generalizing r with
  | nil => exact .pure fun _ hp => absurd hp List.not_mem_nil
  | cons node rest ih =>
    rw [List.forall_mem_cons] at hchildren
    rw [bindJoinedProperties]
    refine .bind (leads_bindJoinedValue scope owner hid hchildren.1.1 hchildren.1.2)
      fun value r₁ hincluded hvalue => ?_
    have hid₁ := hid.mono hincluded
    cases value with
    | none => exact ih hid₁ hchildren.2
    | some value =>
      refine .bind (leads_createProperty scope node (hvalue value rfl) owner.className owner.name)
        fun p r₂ hincluded₁ hp => ?_
      refine .bind (ih (hid₁.mono hincluded₁) hchildren.2) fun ps r₃ hincluded₂ hps => .pure ?_
      exact List.forall_mem_cons.mpr ⟨hp.1.mono hincluded₂, hps⟩

/-- A join is grounded: its table, its key and its properties are. -/
theorem leads_bindJoin (scope : Scope) (owner : Owner) {node : Element} (hnode : S.Has node)
    (htag : node.tag? = some .join) :
    Leads S (bindJoin scope owner node) r fun j r' => j.Grounded S r' := by
  unfold bindJoin
  refine .bind (leads_requestTable _ _ _ _) fun q r₁ _ _ => ?_
  refine .bind (leads_openTable q) fun table r₂ _ htable => ?_
  refine .bind (leads_commentTable table node) fun _ r₃ hincluded _ => ?_
  refine .require_bind fun keyNode hkeyNode => ?_
  have htable₃ := htable.mono hincluded
  have hkeyHas := hnode.child (Element.mem_children_of_child? hkeyNode)
  refine .bind (leads_bindDependantKey htable₃ _ _ hkeyHas (Element.tag?_of_child?_key hkeyNode))
    fun key r₄ hincluded₃ hkey => ?_
  have htable₄ := htable₃.mono hincluded₃
  refine .bind (leads_bindJoinedProperties scope owner htable₄ _ fun c hc =>
    ⟨hnode.child hc, .of_opensTable hnode (Element.opensTable_of_tag htag rfl) hc⟩)
    fun ps r₅ hincluded₄ hps => .pure ⟨htable₄.mono hincluded₄, fun v hv => ?_, hps⟩
  exact Option.some.inj hv ▸ hkey.mono hincluded₄

/-! ## Bodies -/

/-- The value of a child of a body is in the table of the entity. -/
theorem leads_bindBodyValue (scope : Scope) {owner : Owner} (howner : r.Holds owner.table)
    (walk : BodyWalk) {node : Element} (hnode : S.Has node) :
    Leads S (bindBodyValue scope owner walk node) r fun o r' =>
      ∀ v, o = some v → v.GroundedIn S r' owner.table := by
  have hcomponent : ∀ (name : String) (embedded : Bool), Leads S (do
      return some (Value.component
        (← bindComponent scope (bodySite owner owner.table name embedded) node))) r fun o r' =>
          ∀ v, o = some v → v.GroundedIn S r' owner.table := fun name embedded =>
    .bind (leads_bindComponent scope rfl howner node hnode (.inl rfl))
      fun c r' _ hc => .pure fun _ => hc.of_some
  unfold bindBodyValue
  dsimp only
  split
  · next kind htag =>
    refine .bind (leads_bindCollection scope hnode htag _ owner) fun v r₁ hincluded hv => ?_
    have hin := Value.groundedIn_collection (S := S) (howner.mono hincluded)
    exact .pure fun _ => (hv ▸ hin _).of_some
  · next htag =>
    have hkey : node.tag? ≠ some .key := by rw [htag]; decide
    exact .bind (leads_bindOneToOne scope rfl howner owner.name hnode hkey)
      fun v r₁ _ hv => .pure fun _ => hv.of_some
  · exact hcomponent _ _
  · exact hcomponent _ _
  · exact hcomponent _ _
  · next tag _ _ _ _ _ htag =>
    refine leads_bindSimpleMember scope rfl howner hnode fun hmember => ?_
    rw [htag, hmember]
    decide
  · exact .pure fun _ h => by cases h

/-- Columns that a walk over a body returns are those of the table of the entity, and are part of
its natural identifier if the walk is over a group. -/
structure BodyWalk.Finds (walk : BodyWalk) (r : Registry) (table : TableId)
    (columns : List String) : Prop where
  stored : r.HasColumns table columns
  natural : walk.naturalId = true → ∀ column ∈ columns, r.HasNaturalColumn table column

namespace BodyWalk.Finds

variable {walk : BodyWalk} {columns columns' : List String}

/-- Columns that were found stay where they were found. -/
theorem mono {r' : Registry} (h : r.IncludedIn r') (hcolumns : walk.Finds r id columns) :
    walk.Finds r' id columns :=
  ⟨hcolumns.stored.mono h, fun hgroup column hin => (hcolumns.natural hgroup column hin).mono h⟩

/-- A walk that binds no property finds no column. -/
theorem nil (hid : r.Holds id) : walk.Finds r id [] :=
  ⟨hid.hasColumns_nil, fun _ _ hin => absurd hin List.not_mem_nil⟩

/-- Columns of two parts of a body are found together. -/
theorem append (h : walk.Finds r id columns) (h' : walk.Finds r id columns') :
    walk.Finds r id (columns ++ columns') := by
  refine ⟨hasColumns_append h.stored h'.stored, fun hgroup column hin => ?_⟩
  rcases List.mem_append.mp hin with hfirst | hrest
  · exact h.natural hgroup column hfirst
  · exact h'.natural hgroup column hrest

end BodyWalk.Finds

/-- A property of a body is added to its entity, and its columns are in the table of that. -/
theorem leads_bindBodyProperty (scope : Scope) {owner : Owner} (howner : owner.RegisteredIn r)
    (walk : BodyWalk) {node : Element} (hnode : S.Has node) :
    Leads S (bindBodyProperty scope owner walk node) r fun columns r' =>
      walk.Finds r' owner.table columns := by
  unfold bindBodyProperty
  refine .bind (leads_bindBodyValue scope howner.table walk hnode)
    fun value r₁ hincluded hvalue => ?_
  have howner₁ := howner.mono hincluded
  cases value with
  | none => exact .pure (.nil howner₁.table)
  | some value =>
    refine .bind (leads_createProperty scope node (hvalue value rfl) owner.className owner.name)
      fun p r₂ hincluded₁ hp => ?_
    refine .bind (.changeEntity fun e he => he.addProperty hp.1) fun _ r₃ hincluded₂ hr₃ => .pure ?_
    refine ⟨hp.2.mono hincluded₂, fun hgroup column hin => ?_⟩
    obtain ⟨e, he, htable⟩ := (howner₁.mono hincluded₁).entity
    refine ⟨owner.name, e.addProperty _, ?_, htable,
      Entity.mem_naturalColumns_addProperty.mpr (.inr ⟨hgroup, hin⟩)⟩
    rw [hr₃, entity?_modifyEntity, he, Option.map_some, if_pos rfl]

/-- What is not a property of a body is bound beside it, and grounded as well. -/
theorem leads_bindBodyExtra (scope : Scope) (owner : Owner) {node : Element} (hnode : S.Has node)
    {tag : Tag} (htag : node.tag? = some tag) :
    Leads S (bindBodyExtra scope owner node tag) r fun _ _ => True := by
  unfold bindBodyExtra
  split
  · refine .bind (leads_bindJoin scope owner hnode htag) fun j r₁ _ hj => ?_
    exact .writeEntity fun e he => he.addJoin hj
  · refine .bind (.of_same (same_bindFilterUse node))
      fun filter r₁ _ _ => .writeEntity fun e he => ?_
    exact ⟨⟨rfl, rfl, rfl, fun _ h => h, fun _ h => h⟩, he.table, he.properties, he.joins, he.kind⟩
  · exact .of_same (same_bindNamedQuery _ _)
  · exact .of_same (same_bindNamedSqlQuery _ _ _)
  · exact .of_same (same_bindResultSet _ _ _)
  · exact .pure trivial

mutual

/-- A subclass is bound with its body. -/
theorem leads_bindSubclass {r : Registry} (kind : SubclassKind) (scope : Scope)
    (superclass : String) : ∀ node, S.Has node →
      Leads S (bindSubclass kind scope superclass node) r fun _ _ => True
  | ⟨tag, attributes, children, text⟩, hnode => by
    have hchildren : ∀ c ∈ children, S.Has c := fun c hc => hnode.child hc
    rw [bindSubclass]
    refine .bind (leads_openSubclass kind scope superclass hnode) fun name r₁ _ _ => ?_
    refine .bind (leads_find name) fun owner r₂ _ howner => ?_
    exact (leads_bindBody _ howner _ children hchildren).discard

/-- The columns of a group are those of the entity's table and of its natural identifier. -/
theorem leads_bindNaturalId {r : Registry} (scope : Scope) {owner : Owner}
    (howner : owner.RegisteredIn r) : ∀ node, S.Has node →
      Leads S (bindNaturalId scope owner node) r fun _ _ => True
  | ⟨tag, attributes, children, text⟩, hnode => by
    have hchildren : ∀ c ∈ children, S.Has c := fun c hc => hnode.child hc
    rw [bindNaturalId]
    refine .bind (leads_bindBody _ howner _ children hchildren) fun columns r₁ _ hcolumns => ?_
    refine .writeTable fun t ht hgrounded => ?_
    exact hgrounded.addToUniqueKey (.inr (hcolumns.stored.subset ht)) fun _ column hin =>
      .inr ⟨owner.table, t, ht, rfl, hcolumns.natural rfl column hin⟩

/-- The columns of the properties of a body are those of the entity's table. -/
theorem leads_bindBody {r : Registry} (scope : Scope) {owner : Owner}
    (howner : owner.RegisteredIn r) (walk : BodyWalk) : ∀ children, (∀ c ∈ children, S.Has c) →
      Leads S (bindBody scope owner walk children) r fun columns r' =>
        walk.Finds r' owner.table columns
  | [], _ => by
    rw [bindBody]
    exact .pure (.nil howner.table)
  | node :: rest, hchildren => by
    rw [List.forall_mem_cons] at hchildren
    obtain ⟨hnode, hrest⟩ := hchildren
    unfold bindBody
    extract_lets others
    have hothers : ∀ columns r', r.IncludedIn r' → walk.Finds r' owner.table columns →
        Leads S (others columns) r' fun columns r' => walk.Finds r' owner.table columns := by
      intro columns r₁ hincluded hcolumns
      refine .bind (leads_bindBody scope (howner.mono hincluded) walk rest hrest)
        fun columns' r₂ hincluded₁ hcolumns' => .pure ?_
      exact (hcolumns.mono hincluded₁).append hcolumns'
    have hnone : ∀ r', r.IncludedIn r' →
        Leads S (others []) r' fun columns r' => walk.Finds r' owner.table columns :=
      fun r' h => hothers [] r' h (.nil (howner.mono h).table)
    clear_value others
    split
    · exact .bind (leads_bindSubclass .plain scope owner.name node hnode) fun _ r' h _ => hnone r' h
    · exact .bind (leads_bindSubclass .joined scope owner.name node hnode)
        fun _ r' h _ => hnone r' h
    · exact .bind (leads_bindSubclass .union scope owner.name node hnode) fun _ r' h _ => hnone r' h
    · exact .bind (leads_bindNaturalId scope howner node hnode) fun _ r' h _ => hnone r' h
    · next tag _ _ _ _ htag =>
      refine .bind (leads_bindBodyExtra scope owner hnode htag) fun _ r₁ hincluded _ => ?_
      exact .bind (leads_bindBodyProperty scope (howner.mono hincluded) walk hnode)
        fun columns r₂ hincluded₁ => hothers columns r₂ (hincluded.trans hincluded₁)
    · exact hnone r (.refl r)

end

/-! ## Documents -/

/-- A root class is bound with its body. -/
theorem leads_bindRootClass (scope : Scope) {node : Element} (hnode : S.Has node) :
    Leads S (bindRootClass scope node) r fun _ _ => True := by
  unfold bindRootClass
  refine .bind (leads_openRootClass scope hnode) fun name r₁ _ _ => ?_
  refine .bind (leads_find name) fun owner r₂ _ howner => ?_
  exact (leads_bindBody _ howner _ _ fun c hc => hnode.child hc).discard

/-- A subclass that stands alone in its document is grounded. -/
theorem leads_bindTopSubclass (kind : SubclassKind) (scope : Scope) {node : Element}
    (hnode : S.Has node) : Leads S (bindTopSubclass kind scope node) r fun _ _ => True := by
  unfold bindTopSubclass superclassOf
  refine .bind (P := fun _ _ => True) (.require_bind fun name _ => .get_bind ?_)
    fun superclass r₁ _ _ => leads_bindSubclass kind scope superclass node hnode
  exact .ite (fun _ => .pure trivial) fun _ => .throw _

/-- A document of the source is bound element by element. -/
theorem leads_bindRoot {root : Element} (hroot : S.Has root) (metas : MetaMap) :
    Leads S (bindRoot root metas) r fun _ _ => True := by
  have hnamed : ∀ name, ∀ node ∈ root.childrenNamed name, S.Has node :=
    fun name node hnode => hroot.child (Element.mem_children_of_childrenNamed hnode)
  unfold bindRoot
  refine .bind (.write fun hr => Same.advances ⟨rfl, rfl, rfl, rfl, rfl, rfl⟩ hr) fun _ _ _ _ => ?_
  refine .bind (.forM fun _ _ _ _ => .of_same (same_bindFilterDefinition _))
    fun _ _ _ _ => ?_
  refine .bind (.forM fun _ _ _ _ => .of_same (same_bindTypeDefinition _))
    fun _ _ _ _ => ?_
  refine .bind (.forM fun node hnode _ _ => leads_bindRootClass _ (hnamed _ node hnode))
    fun _ _ _ _ => ?_
  refine .bind (.forM fun kind _ _ _ => .forM fun node hnode _ _ =>
    leads_bindTopSubclass kind _ (hnamed _ node hnode)) fun _ _ _ _ => ?_
  refine .bind (.forM fun _ _ _ _ => .of_same (same_bindNamedQuery _ _))
    fun _ _ _ _ => ?_
  refine .bind (.forM fun _ _ _ _ => .of_same (same_bindNamedSqlQuery _ _ _))
    fun _ _ _ _ => ?_
  refine .bind (.forM fun _ _ _ _ => .of_same (same_bindResultSet _ _ _))
    fun _ _ _ _ => ?_
  refine .bind (.forM fun _ _ _ _ => .of_same (same_bindImport _ _))
    fun _ _ _ _ => ?_
  exact .forM fun _ _ _ _ =>
    .write fun hr => Same.advances ⟨rfl, rfl, rfl, rfl, rfl, rfl⟩ hr

end ObjectMapping
