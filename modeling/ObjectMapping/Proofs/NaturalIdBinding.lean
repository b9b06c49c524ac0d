import ObjectMapping.Proofs.NaturalIdAccounts

/-!
# Binding natural identifiers

Binding accounts for the natural identifiers of a document.  A walk over a body identifies its owner
child by child: properties join the natural identifier if they stand in a group, a group ends with
its unique key, and a subclass is opened and walked over in turn.  Everything else that is bound
flags no property.  So a document adds the bodies that it declares, each of them realized.
-/

namespace ObjectMapping

open Binding Registry

/-! ## Computations that flag no property -/

section

variable {r : Registry} {α : Type}

/-- Steps that leave natural identifiers alone and keep entities housed. -/
theorem same_of_steps {R : Registry → Registry → Prop} {m : Binding α} {P : α → Prop}
    (hm : Makes R m) (hyields : Yields m P)
    (hhoused : ∀ r r', R r r' → r.Housed → housing.Advances r r')
    (hsame : ∀ r r', R r r' → r.SameNaturalIds r') :
    Upholds housing m r fun a r' => P a ∧ r.SameNaturalIds r' := by
  refine fun hr => ⟨(Upholds.of_steps hm hhoused).advances hr, fun a r' hrun => ?_⟩
  have hsteps := hm r
  rw [after_eq_of_ok hrun] at hsteps
  exact ⟨hyields r a r' hrun, .of_steps hsame hsteps⟩

theorem same_of_prepares {m : Binding α} {P : α → Prop} (hm : m.Prepares) (hyields : Yields m P) :
    Upholds housing m r fun a r' => P a ∧ r.SameNaturalIds r' :=
  same_of_steps hm hyields (fun _ _ h => h.housing) fun _ _ h => h.sameNaturalIds

/-- Preparation, of the value of which nothing has to be known. -/
theorem same_of_prepares' {m : Binding α} (hm : m.Prepares) :
    Upholds housing m r fun _ r' => r.SameNaturalIds r' :=
  (same_of_prepares hm (P := fun _ => True) fun _ _ _ _ => trivial).mono fun _ _ _ h => h.2

theorem same_of_steady {m : Binding α} (hm : m.Steady) :
    Upholds housing m r fun _ r' => r.SameNaturalIds r' := same_of_prepares' hm.prepares

/-- What supplements entities flags no property. -/
theorem same_of_supplementing {m : Binding α} (hm : m.Supplementing) :
    Upholds housing m r fun _ r' => r.SameNaturalIds r' :=
  (same_of_steps hm (P := fun _ => True) (fun _ _ _ _ => trivial)
    (fun _ _ h => h.elaboration.housing) fun _ _ h => h.sameNaturalIds).mono fun _ _ _ h => h.2

end

/-! ## Opening entities -/

section

variable {r : Registry}

/-- An entity without flagged properties is registered. -/
theorem opens_addEntity {e : Entity} (he : r.Houses e.kind e.table) (hordinary : e.Ordinary) :
    Upholds housing (Binding.register (·.addEntity e)) r fun _ r' => Opens e.name r r' := by
  have hnone : e.naturalIdProperties = [] := List.filter_eq_nil_iff.mpr fun p hp => by
    rw [(hordinary p (List.mem_append_left _ hp)).2]
    exact Bool.false_ne_true
  have hbare : e.naturalId.parts = [] := by rw [Entity.naturalId, hnone, List.map_nil]
  refine .register fun r' hr hadd => ?_
  have hrun : (Binding.register (·.addEntity e)).run r = .ok () r' := run_register_eq_ok.mpr hadd
  refine ⟨((houses_addEntity he).of_ok hr hrun).1, ?_⟩
  refine ⟨?_, fun other hother => ?_, e, entity?_self_of_addEntity hadd, rfl, hbare⟩
  · have hfresh := (addEntity_eq_ok.mp hadd).1
    rw [naturalId?, Option.map_eq_none_iff]
    by_contra hold
    obtain ⟨e', he'⟩ := Option.ne_none_iff_exists'.mp hold
    rw [hasEntity_iff_exists.mpr ⟨e', he'⟩] at hfresh
    cases hfresh
  · rw [naturalId?, naturalId?, entity?_of_addEntity hadd, if_neg hother]

/-- A subclass is opened under the name of its element. -/
theorem opens_openSubclass (kind : SubclassKind) (scope : Scope) (superclass : String)
    (node : Element) : Upholds housing (openSubclass kind scope superclass node) r
      fun name r' => entityNameIn scope.defaults node = name ∧ Opens name r r' := by
  unfold openSubclass registerSubclass
  have hyields : Yields (prepareSubclass kind scope superclass node) fun e =>
      entityNameOf scope node = .ok e.name ∧ e.Ordinary := fun r e r' hrun =>
    ⟨(yields_prepareSubclass kind scope superclass node r e r' hrun).1,
      yields_ordinarySubclass kind scope superclass node r e r' hrun⟩
  refine .bind ((houses_prepareSubclass kind scope superclass node).also
    (same_of_prepares (quiet_prepareSubclass kind scope superclass node).prepares hyields))
    fun e r₁ _ he => ?_
  obtain ⟨hhouses, ⟨hname, hordinary⟩, hsame⟩ := he
  have hregistered : Upholds housing (do
      Binding.register (·.addEntity e)
      Binding.changeEntity superclass fun s => { s with subclasses := s.subclasses ++ [e.name] }
      modify fun r =>
        if r.hasPersister e.name then r
        else r.modifyRootOf e.name ({ · with defaultPersister := some kind.strategy })) r₁
      fun _ r' => Opens e.name r₁ r' :=
    .bind (opens_addEntity hhouses hordinary) fun _ _ _ hopens =>
      (same_of_supplementing (supplementing_adoption e.name superclass kind.strategy)).mono
        fun _ _ hlater hsame' => hopens.followed_by_same hsame' hlater
  exact .bind hregistered fun _ r₂ _ hopens =>
    .pure ⟨entityNameIn_of_entityNameOf hname, hopens.preceded_by_same hsame⟩

/-- So is a root class. -/
theorem opens_openRootClass (scope : Scope) (node : Element) :
    Upholds housing (openRootClass scope node) r
      fun name r' => entityNameIn scope.defaults node = name ∧ Opens name r r' := by
  unfold openRootClass
  have hyields : Yields (prepareRootClass scope node) fun e =>
      entityNameOf scope node = .ok e.name ∧ e.Ordinary := fun r e r' hrun =>
    ⟨(yields_prepareRootClass scope node r e r' hrun).1,
      yields_ordinaryRootClass scope node r e r' hrun⟩
  refine .bind ((houses_prepareRootClass scope node).also
    (same_of_prepares (prepares_prepareRootClass scope node) hyields)) fun e r₁ _ he => ?_
  obtain ⟨hhouses, ⟨hname, hordinary⟩, hsame⟩ := he
  exact .bind (opens_addEntity hhouses hordinary) fun _ r₂ _ hopens =>
    .pure ⟨entityNameIn_of_entityNameOf hname, hopens.preceded_by_same hsame⟩

/-! ## Bodies -/

/-- A property that is added to its owner joins the natural identifier if it is flagged, and its
columns are to be covered. -/
theorem identifies_addProperty (owner : Owner) (p : Property) :
    Upholds housing (changeEntity owner.name (·.addProperty p)) r fun _ r' =>
      Identifies owner p.naturalIdentifier (if p.naturalIdentifier then [p.naturalMark] else []) []
        p.value.columnNames r r' := by
  unfold changeEntity
  refine .get_bind (.ite (fun _ => .modify fun hr => ?_) fun _ => .throw _)
  have hadded := naturalId?_modifyEntity r owner.name
    (g := (·.append (if p.naturalIdentifier then [p.naturalPart] else [])))
    fun e => e.naturalId_addProperty p
  refine ⟨hr.modifyEntity owner.name fun _ => ⟨rfl, rfl, rfl, rfl⟩, .nil fun name k hk => ?_,
    fun name k hname hk => ?_, fun k hk => ?_⟩
  · rw [hadded] at hk
    obtain ⟨k', hk', -⟩ := Option.map_eq_some_iff.mp hk
    exact ⟨k', hk'⟩
  · rw [hadded, hk, Option.map_some, if_neg hname]
  · refine ⟨_, by rw [hadded, hk, Option.map_some, if_pos rfl], ?_, fun part hpart => ?_⟩
    · split <;> rfl
    · split at hpart
      · next hflag =>
        rw [List.mem_singleton.mp hpart]
        exact .inr ⟨hflag, List.Subset.refl _⟩
      · cases hpart

/-- What the database always generates is said to be so by its element. -/
theorem always_of_generationOf {node : Element} {generation : PropertyGeneration}
    (h : generationOf node = .ok generation) :
    generation = .always ↔ node.attribute? "generated" = some "always" := by
  unfold generationOf at h
  split at h
  · next hnone =>
    cases h
    rw [hnone]
    exact ⟨nofun, nofun⟩
  · next raw hraw =>
    rw [hraw, Option.some.injEq]
    unfold PropertyGeneration.ofLiteral? at h
    split_ifs at h with halways hinsert hnever <;> cases h
    · exact ⟨fun _ => halways, fun _ => rfl⟩
    · exact ⟨nofun, fun h => absurd h halways⟩
    · exact ⟨nofun, fun h => absurd h halways⟩

/-- What is written is what is not said to be left out, unless the database generates it. -/
theorem eq_of_writable {node : Element} {name : String} {generated written : Bool}
    {e : MappingError} (h : writable node name generated e = .ok written) :
    written = (node.isNotDenied name && !generated) := by
  unfold writable at h
  split at h
  · next hgenerated =>
    rw [Bool.and_eq_true] at hgenerated
    split at h <;> cases h
    rw [hgenerated.1, Bool.not_true, Bool.and_false]
  · next hwritten =>
    cases h
    cases hnode : node.isNotDenied name <;> simp_all

/-- Whether a property is updated is said by its element. -/
theorem updatable_of_bindProperty {scope : Scope} {node : Element} {value : Value} {name : String}
    {p : Property} (h : bindProperty scope node value name = .ok p) :
    p.updatable = node.isUpdated := by
  have hbound := boundAs_of_bindProperty h
  obtain ⟨_, hupdatable⟩ := hbound.updatable
  have halways : node.attributeIs "generated" "always" = decide (p.generation = .always) :=
    decide_eq_decide.mpr (always_of_generationOf hbound.generation).symm
  rw [Element.isUpdated, halways]
  exact eq_of_writable hupdatable

theorem yields_created_mark (scope : Scope) (node : Element) (value : Value)
    (className : Option String) (owner : String) :
    Yields (createProperty scope node value className owner) fun p =>
      p.name = (node.attribute? "name").getD "" ∧ p.updatable = node.isUpdated := by
  have hupdatable : Yields (createProperty scope node value className owner) fun p =>
      p.updatable = node.isUpdated :=
    .next fun _ => .next fun _ => .next fun _ => .next fun _ =>
      .ofExcept fun _ => updatable_of_bindProperty
  intro r p r' hrun
  refine ⟨?_, hupdatable r p r' hrun⟩
  rw [yields_createProperty scope node value className owner r p r' hrun, Option.getD_some]

/-- What a property in a group says of the natural identifier, if a child is one. -/
def placedIn (group : Option Element) (node : Element) : List NaturalMark :=
  if node.tag?.any Tag.isBodyProperty then (group.map (·.naturalMark node)).toList else []

/-- A child of a body, or of a group, is added as it says if it is a property. -/
theorem identifies_bindBodyProperty (scope : Scope) (owner : Owner) (group : Option Element)
    (node : Element) : Upholds housing (bindBodyProperty scope owner (.within group) node) r
      fun columns r' =>
        Identifies owner group.isSome (placedIn group node) [] columns r r' := by
  unfold bindBodyProperty placedIn
  refine .bind (same_of_prepares (prepares_bindBodyValue _ _ _ _) (yields_bindBodyValue _ _ _ _))
    fun value r₁ _ hvalue => ?_
  obtain ⟨hproperty, hsame⟩ := hvalue
  rw [← hproperty]
  cases value with
  | none => exact .pure (.of_same hsame)
  | some value =>
    rw [if_pos Option.isSome_some]
    refine .bind (same_of_prepares (prepares_createProperty _ _ _ _ _)
      (yields_created_mark _ _ _ _ _)) fun p r₂ _ hp => ?_
    obtain ⟨⟨hname, hupdatable⟩, hsame'⟩ := hp
    refine .bind (identifies_addProperty owner _) fun _ r₃ _ hadded => .pure ?_
    have hall := hadded.preceded_by_same (hsame.trans hsame')
    cases group with
    | none => exact hall
    | some group =>
      have hmark : group.naturalMark node
          = ⟨p.name, p.updatable && group.attributeIs "mutable" "true"⟩ := by
        rw [hname, hupdatable, Element.naturalMark]
      rw [Option.map_some, hmark]
      exact hall

/-- The unique key of natural identifiers gets columns. -/
theorem naturalKey_addToUniqueKey {id : TableId} (hid : r.Holds id) (columns : List String) :
    Upholds housing (changeTable (some id) (·.addToUniqueKey naturalIdKey columns)) r fun _ r' =>
      r.SameNaturalIds r' ∧ r'.HasNaturalKey id columns := by
  refine .modify fun hr => ⟨hr.modifyTable id fun t => .addToUniqueKey t _ _, .of_entities rfl, ?_⟩
  obtain ⟨t, ht⟩ := hid
  obtain ⟨k, hk⟩ := t.uniqueKeys.get?_change naturalIdKey { name := naturalIdKey }
    fun k => columns.foldl UniqueKey.addColumn k
  refine ⟨t.addToUniqueKey naturalIdKey columns, _, ?_, hk, (k.subset_addColumns columns).2⟩
  rw [table?_modifyTable, ht, Option.map_some, if_pos rfl]

/-- The body of an entity that was just opened is bound for it. -/
theorem adds_opened {r₁ : Registry} {name : String} (h : Opens name r r₁) {scope : Scope}
    {children : List Element}
    (hbody : ∀ owner r, r.Knows owner → Upholds housing (bindBody scope owner {} children) r
      fun columns r' => Identifies owner false (naturalMarks children)
        (bodiesAmong scope.defaults children) columns r r') :
    Upholds housing (do
      let owner ← Owner.find name
      discard <| bindBody scope owner {} children) r₁ fun _ r' =>
        Adds ((name, children) :: bodiesAmong scope.defaults children) r r' := by
  refine .bind (upholds_findOwner name) fun owner r₂ _ howner => ?_
  obtain ⟨rfl, e, he, rfl⟩ := howner
  refine .of_invariant fun hr => ?_
  obtain ⟨e', he', rfl, hbare⟩ := h.opened
  cases he.symm.trans he'
  have hknows : r₂.Knows (.ofEntity e) :=
    ⟨(hr.entities _ e he).held, e.naturalId, by rw [naturalId?, Owner.ofEntity, he]; rfl⟩
  exact .bind (hbody _ _ hknows) fun columns r₃ _ hidentifies =>
    .pure (h.adds he ⟨rfl, rfl⟩ hidentifies)

mutual

/-- A subclass is bound with its body, and the bodies of the subclasses in it. -/
theorem adds_bindSubclass {r : Registry} (kind : SubclassKind) (scope : Scope)
    (superclass : String) : ∀ node, Upholds housing (bindSubclass kind scope superclass node) r
      fun _ r' => Adds (entityBodies scope.defaults node) r r'
  | ⟨tag, attributes, children, text⟩ => by
    rw [bindSubclass, entityBodies]
    refine .bind (opens_openSubclass kind scope superclass _) fun name r₁ _ hopened => ?_
    obtain ⟨hname, hopens⟩ := hopened
    rw [hname]
    exact adds_opened hopens fun owner r₂ hknows =>
      identifies_bindBody (scope.descend _) owner none children hknows

/-- A group is bound with its properties, and then the unique key of the table covers them. -/
theorem identifies_bindNaturalId {r : Registry} (scope : Scope) (owner : Owner) (grouped : Bool) :
    ∀ node, r.Knows owner → Upholds housing (bindNaturalId scope owner node) r fun _ r' =>
      Identifies owner grouped ((groupMembers node).map fun member => member.1.naturalMark member.2)
        (groupBodies scope.defaults node) [] r r'
  | ⟨tag, attributes, children, text⟩, hknows => by
    rw [bindNaturalId, groupMembers, groupBodies]
    refine .bind (identifies_bindBody scope owner (some ⟨tag, attributes, children, text⟩) children
      hknows) fun columns r₁ hlater hbody => ?_
    refine (naturalKey_addToUniqueKey (hknows.held.later hlater) columns).mono
      fun _ r₂ hlater' hkey => ?_
    exact (hbody.followed_by_same hkey.1 hlater' hknows).covered hkey.2

/-- The walk over a body, or over a group in it, is accounted for child by child. -/
theorem identifies_bindBody {r : Registry} (scope : Scope) (owner : Owner)
    (group : Option Element) : ∀ children, r.Knows owner →
      Upholds housing (bindBody scope owner (.within group) children) r fun columns r' =>
        Identifies owner group.isSome (marksAmong group children)
          (bodiesAmong scope.defaults children) columns r r'
  | [], _ => by
    rw [bindBody]
    exact .pure (.of_same (.refl r))
  | node :: rest, hknows => by
    unfold bindBody
    extract_lets others
    -- What is left is accounted for from wherever the first child has led.
    have hothers : ∀ {marks bodies columns r₁}, r.Upgrades r₁ →
        Identifies owner group.isSome marks bodies columns r r₁ →
        Upholds housing (others columns) r₁ fun columns' r' =>
          Identifies owner group.isSome (marks ++ marksAmong group rest)
            (bodies ++ bodiesAmong scope.defaults rest) columns' r r' := by
      intro marks bodies columns r₁ hlater hfirst
      exact .bind (identifies_bindBody scope owner group rest (hfirst.knows hlater hknows))
        fun columns' r₂ hlater' hrest => .pure (hfirst.trans hrest hlater' hknows)
    clear_value others
    rw [marksAmong, membersAmong, List.map_append, bodiesAmong]
    have hsubclass : ∀ kind, Upholds housing (do
          bindSubclass kind scope owner.name node
          others [] : Binding (List String)) r fun columns r' =>
        Identifies owner group.isSome ([] ++ marksAmong group rest)
          (entityBodies scope.defaults node ++ bodiesAmong scope.defaults rest) columns r r' :=
      fun kind => .bind (adds_bindSubclass kind scope owner.name node) fun _ r₁ hlater hadds =>
        hothers hlater (.of_adds hadds)
    split
    · rw [‹node.tag? = _›]
      exact hsubclass .plain
    · rw [‹node.tag? = _›]
      exact hsubclass .joined
    · rw [‹node.tag? = _›]
      exact hsubclass .union
    · rw [‹node.tag? = _›]
      exact .bind (identifies_bindNaturalId scope owner group.isSome node hknows)
        fun _ r₁ hlater hgroup => hothers hlater hgroup
    · next tag _ _ _ _ htag =>
      refine .bind (same_of_supplementing (supplementing_bindBodyExtra scope owner node tag))
        fun _ r₁ hlater hsame => ?_
      refine .bind (identifies_bindBodyProperty scope owner group node)
        fun columns r₂ hlater' hproperty => ?_
      have hfirst := hothers (hlater.trans hlater') (hproperty.preceded_by_same hsame)
      have hmembers : placedIn group node = List.map (fun member => member.1.naturalMark member.2)
          (if tag.isBodyProperty then group.toList.map (·, node) else []) := by
        unfold placedIn
        rw [htag, Option.any_some]
        split
        · cases group <;> rfl
        · rfl
      rw [hmembers] at hfirst
      rw [htag]
      -- No case of a subclass or a natural identifier applies.
      simp only
      exact hfirst
    · rw [‹node.tag? = _›]
      exact hothers (.refl r) (.of_same (.refl r))

end

/-! ## Documents -/

/-- Two halves that add bodies one after the other. -/
theorem adds_bind {α β : Type} {m : Binding α} {f : α → Binding β}
    {bodies bodies' : List (String × List Element)}
    (hm : Upholds housing m r fun _ r' => Adds bodies r r')
    (hf : ∀ a r', Upholds housing (f a) r' fun _ r'' => Adds bodies' r' r'') :
    Upholds housing (m >>= f) r fun _ r' => Adds (bodies ++ bodies') r r' :=
  .bind hm fun a r' _ hfirst => (hf a r').mono fun _ _ hlater hsecond =>
    hfirst.trans hsecond hlater

/-- A loop adds what its rounds do. -/
theorem adds_forM {α : Type} {f : α → Binding PUnit} {bodies : α → List (String × List Element)}
    (h : ∀ a r, Upholds housing (f a) r fun _ r' => Adds (bodies a) r r') (l : List α) :
    Upholds housing (l.forM f) r fun _ r' => Adds (l.flatMap bodies) r r' := by
  induction l generalizing r with
  | nil => exact .pure (.of_same (.refl r))
  | cons a l ih => exact adds_bind (h a r) fun _ _ => ih

/-- What leaves natural identifiers alone adds nothing. -/
theorem adds_of_same {α : Type} {m : Binding α}
    (h : Upholds housing m r fun _ r' => r.SameNaturalIds r') :
    Upholds housing m r fun _ r' => Adds [] r r' :=
  h.mono fun _ _ _ => .of_same

/-- Definitions flag no property. -/
theorem same_of_definition {α : Type} {m : Binding α} (hm : Makes DefinitionWrite m) :
    Upholds housing m r fun _ r' => r.SameNaturalIds r' :=
  (same_of_steps hm (P := fun _ => True) (fun _ _ _ _ => trivial)
    (fun r _ h hr => by cases h <;> exact Housed.of_same hr { Upgrades.refl r with } rfl rfl)
    fun _ _ h => by cases h <;> exact .of_entities rfl).mono fun _ _ _ h => h.2

/-- A root class is bound with its body. -/
theorem adds_bindRootClass (scope : Scope) (node : Element) :
    Upholds housing (bindRootClass scope node) r
      fun _ r' => Adds (entityBodies scope.defaults node) r r' := by
  unfold bindRootClass
  rw [entityBodies_eq]
  refine .bind (opens_openRootClass scope node) fun name r₁ _ hopened => ?_
  obtain ⟨hname, hopens⟩ := hopened
  rw [hname]
  exact adds_opened hopens fun owner r₂ hknows =>
    identifies_bindBody (scope.descend node) owner none node.children hknows

/-- So is a subclass at the top of a document. -/
theorem adds_bindTopSubclass (kind : SubclassKind) (scope : Scope) (node : Element) :
    Upholds housing (bindTopSubclass kind scope node) r
      fun _ r' => Adds ([] ++ entityBodies scope.defaults node) r r' := by
  unfold bindTopSubclass
  exact adds_bind (adds_of_same (same_of_steady (steady_superclassOf scope node)))
    fun superclass _ => adds_bindSubclass kind scope superclass node

/-- A document is bound element by element. -/
theorem adds_bindRoot (root : Element) (metas : MetaMap) :
    Upholds housing (bindRoot root metas) r fun _ r' => Adds (documentBodies root) r r' := by
  -- The definitions come first and the queries last, and neither flag a property.
  have hbound : Upholds housing (bindRoot root metas) r fun _ r' =>
      Adds ([] ++ ([] ++ ([] ++ ((root.childrenNamed "class").flatMap (entityBodies (.ofRoot root))
        ++ (SubclassKind.all.flatMap (fun kind =>
          (root.childrenNamed kind.tag).flatMap (entityBodies (.ofRoot root))) ++ []))))) r r' := by
    unfold bindRoot
    refine adds_bind (adds_of_same (same_of_steady (.modify fun r => .single (.defaults r _))))
      fun _ _ => ?_
    refine adds_bind (adds_of_same (same_of_definition
      (.forM (fun _ => defines_bindFilterDefinition _) _))) fun _ _ => ?_
    refine adds_bind (adds_of_same (same_of_definition
      (.forM (fun _ => defines_bindTypeDefinition _) _))) fun _ _ => ?_
    refine adds_bind (adds_forM (fun _ _ => adds_bindRootClass _ _) _) fun _ _ => ?_
    refine adds_bind (adds_forM (fun kind _ => adds_forM (fun _ _ =>
      adds_bindTopSubclass kind _ _) _) _) fun _ _ => adds_of_same (same_of_steady ?_)
    refine .bind (.forM (fun _ => steady_bindNamedQuery _ _) _) fun _ => ?_
    refine .bind (.forM (fun _ => steady_bindNamedSqlQuery _ _ _) _) fun _ => ?_
    refine .bind (.forM (fun _ => steady_bindResultSet _ _ _) _) fun _ => ?_
    refine .bind (.forM (fun _ => steady_bindImport _ _) _) fun _ => ?_
    exact .forM (fun _ => .modify fun r => .single (.auxiliaryObject r _)) _
  simpa only [documentBodies, List.nil_append, List.append_nil] using hbound

end

end ObjectMapping
