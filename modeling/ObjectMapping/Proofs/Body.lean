import ObjectMapping.Proofs.Opening

/-!
# Bodies of entities

The body of an entity declares its properties and joins, and may hold subclasses with bodies
of their own.  One recursion over elements binds them all, and the lemmas here follow it: with
the owner of the body registered, binding the body is growth, and so is binding a subclass with
its superclass registered.  A document as a whole needs nothing to be registered beforehand,
since every top-level subclass is refused unless its superclass is.
-/

namespace ObjectMapping

open Binding Registry

/-! ## Owners -/

/-- An owner that is found is registered and has the name that it was looked up by. -/
theorem of_run_find {r r' : Registry} (hkeyed : Keyed r.skeletons) {name : String}
    {owner : Owner} (h : (Owner.find name).run r = .ok owner r') :
    r' = r ∧ owner.name = name ∧ r.hasEntity name = true := by
  unfold Owner.find at h
  rw [run_get_bind, run_require_eq_ok] at h
  obtain ⟨hfound, rfl⟩ := h
  obtain ⟨e, he, rfl⟩ := Option.map_eq_some_iff.mp hfound
  exact ⟨rfl, hkeyed _ (mem_skeletons_of_entity? he), hasEntity_iff_exists.mpr ⟨e, he⟩⟩

/-- Changing an entity is growth if the change itself is, whether the entity is registered or
not. -/
theorem growing_changeEntity (known : List String) {name : String} {f : Entity → Entity}
    (h : ∀ r : Registry, Grows r (r.modifyEntity name f)) :
    Growing known (Binding.changeEntity name f) := by
  intro r _ _
  cases hname : r.hasEntity name with
  | true =>
    rw [after_eq_of_ok (run_changeEntity f hname)]
    exact h r
  | false =>
    rw [after_changeEntity_of_not f hname]
    exact .refl r

/-- Changing an entity in what its skeleton does not show makes side writes only. -/
theorem aside_changeEntity {name : String} {f : Entity → Entity}
    (h : ∀ e, (f e).skeleton = e.skeleton) : Aside (Binding.changeEntity name f) := by
  unfold Binding.changeEntity
  exact .bind .get fun _ => .ite (.modify fun r => .single (.entity r name h)) (.throw _)

/-! ## Growth of a body -/

/-- Binding a property of an entity declares it at most. -/
theorem growing_bindBodyProperty (known : List String) (scope : Scope) (owner : Owner)
    (walk : BodyWalk) (node : Element) :
    Growing known (bindBodyProperty scope owner walk node) := by
  unfold bindBodyProperty
  refine .bind (.of_aside (prepares_bindBodyValue _ _ _ _).aside) fun value => ?_
  cases value with
  | none => exact .pure _
  | some value =>
    refine .bind (.of_aside (prepares_createProperty _ _ _ _ _).aside) fun p => ?_
    refine .bind (growing_changeEntity _ fun r => ?_) fun _ => .pure _
    exact .declare r _ fun e => e.skeleton_addProperty _

/-- Binding what else is in a body declares a join at most. -/
theorem growing_bindBodyExtra (known : List String) (scope : Scope) (owner : Owner)
    (node : Element) (tag : Tag) : Growing known (bindBodyExtra scope owner node tag) := by
  unfold bindBodyExtra
  split
  · refine .bind (.of_aside (prepares_bindJoin _ _ _).aside) fun j =>
      growing_changeEntity _ fun r => ?_
    exact .declare r _ fun e => e.skeleton_addJoin j
  · exact .of_aside (.bind (steady_bindFilterUse _).aside fun _ => aside_changeEntity fun _ => rfl)
  · exact .of_aside (steady_bindNamedQuery _ _).aside
  · exact .of_aside (steady_bindNamedSqlQuery _ _ _).aside
  · exact .of_aside (steady_bindResultSet _ _ _).aside
  · exact .pure _

mutual

/-- Binding a subclass of a registered entity is growth. -/
theorem growing_bindSubclass (kind : SubclassKind) (scope : Scope) (superclass : String) :
    ∀ node, Growing [superclass] (bindSubclass kind scope superclass node)
  | ⟨tag, attributes, children, text⟩ => by
    intro r hkeyed hknown
    rw [bindSubclass]
    have hopened := growing_openSubclass kind scope superclass
      ⟨tag, attributes, children, text⟩ r hkeyed hknown
    refine rel_after_bind (R := Grows) .trans hopened fun name r₁ hrun => ?_
    rw [after_eq_of_ok hrun] at hopened
    have hkeyed₁ := hopened.keyed hkeyed
    refine rel_after_bind (R := Grows) .trans
      (.of_sideWrites ((steady_find name).aside r₁)) fun owner r₂ hfind => ?_
    obtain ⟨rfl, rfl, howner⟩ := of_run_find hkeyed₁ hfind
    refine rel_after_bind (R := Grows) .trans ?_ fun _ r₃ _ => .refl r₃
    exact growing_bindBody _ owner _ children r₂ hkeyed₁ fun name hname => by
      rwa [List.mem_singleton.mp hname]

/-- Binding the properties of a natural identifier is growth. -/
theorem growing_bindNaturalId (scope : Scope) (owner : Owner) :
    ∀ node, Growing [owner.name] (bindNaturalId scope owner node)
  | ⟨tag, attributes, children, text⟩ => by
    rw [bindNaturalId]
    exact .bind (growing_bindBody _ owner _ children) fun _ =>
      .of_aside (quiet_changeTable _ fun t => .addToUniqueKey t _ _).aside

/-- Binding the body of a registered entity is growth. -/
theorem growing_bindBody (scope : Scope) (owner : Owner) (walk : BodyWalk) :
    ∀ children, Growing [owner.name] (bindBody scope owner walk children)
  | [] => by
    rw [bindBody]
    exact .pure _
  | node :: rest => by
    unfold bindBody
    extract_lets others
    have hothers : ∀ columns, Growing [owner.name] (others columns) :=
      fun _ => .bind (growing_bindBody scope owner walk rest) fun _ => .pure _
    clear_value others
    split
    · exact .bind (growing_bindSubclass .plain scope owner.name node) fun _ => hothers _
    · exact .bind (growing_bindSubclass .joined scope owner.name node) fun _ => hothers _
    · exact .bind (growing_bindSubclass .union scope owner.name node) fun _ => hothers _
    · exact .bind (growing_bindNaturalId scope owner node) fun _ => hothers _
    · exact .bind (growing_bindBodyExtra _ _ _ _ _) fun _ =>
        .bind (growing_bindBodyProperty _ _ _ _ _) hothers
    · exact .bind (.pure _) hothers

end

/-! ## Growth of a document -/

/-- Binding a root class is growth. -/
theorem growing_bindRootClass (scope : Scope) (node : Element) :
    Growing [] (bindRootClass scope node) := by
  intro r hkeyed hknown
  have hopened := growing_openRootClass scope node r hkeyed hknown
  refine rel_after_bind (R := Grows) .trans hopened fun name r₁ hrun => ?_
  rw [after_eq_of_ok hrun] at hopened
  have hkeyed₁ := hopened.keyed hkeyed
  refine rel_after_bind (R := Grows) .trans (.of_sideWrites ((steady_find name).aside r₁))
    fun owner r₂ hfind => ?_
  obtain ⟨rfl, rfl, howner⟩ := of_run_find hkeyed₁ hfind
  refine rel_after_bind (R := Grows) .trans ?_ fun _ r₃ _ => .refl r₃
  exact growing_bindBody _ owner _ _ r₂ hkeyed₁ fun name hname => by
    rwa [List.mem_singleton.mp hname]

/-- The superclass of a top-level subclass is registered, and nothing is written to find it. -/
theorem of_run_superclassOf {scope : Scope} {node : Element} {r r' : Registry}
    {superclass : String} (h : (superclassOf scope node).run r = .ok superclass r') :
    r' = r ∧ (node.attribute? "extends").map scope.qualifyClass = some superclass ∧
      r.hasEntity superclass = true := by
  unfold superclassOf at h
  obtain ⟨name, r₁, hrequired, hrest⟩ := run_bind_eq_ok.mp h
  obtain ⟨hname, rfl⟩ := run_require_eq_ok.mp hrequired
  dsimp only at hrest
  rw [run_get_bind] at hrest
  split at hrest
  · cases hrest
    rw [hname]
    exact ⟨rfl, rfl, ‹_›⟩
  · cases hrest

/-- Binding a top-level subclass is growth, since its superclass must be registered. -/
theorem growing_bindTopSubclass (kind : SubclassKind) (scope : Scope) (node : Element) :
    Growing [] (bindTopSubclass kind scope node) := by
  intro r hkeyed _
  have hfound : Grows r ((superclassOf scope node).after r) :=
    .of_sideWrites ((steady_superclassOf scope node).aside r)
  refine rel_after_bind (R := Grows) .trans hfound fun superclass r₁ hrun => ?_
  obtain ⟨rfl, -, hknown⟩ := of_run_superclassOf hrun
  exact growing_bindSubclass kind scope superclass node r₁ hkeyed fun name hname => by
    rwa [List.mem_singleton.mp hname]

/-- Binding the contents of a document is growth. -/
theorem growing_bindRoot (root : Element) (metas : MetaMap) : Growing [] (bindRoot root metas) := by
  unfold bindRoot
  refine .bind (.of_aside (.modify fun r => .single (.defaults r _))) fun _ => ?_
  refine .bind (.forM (fun _ => .of_aside (defines_bindFilterDefinition _).aside) _) fun _ => ?_
  refine .bind (.forM (fun _ => .of_aside (defines_bindTypeDefinition _).aside) _) fun _ => ?_
  refine .bind (.forM (fun _ => growing_bindRootClass _ _) _) fun _ => ?_
  refine .bind (.forM (fun kind => .forM (fun _ => growing_bindTopSubclass kind _ _) _) _)
    fun _ => ?_
  refine .bind (.forM (fun _ => .of_aside (steady_bindNamedQuery _ _).aside) _) fun _ => ?_
  refine .bind (.forM (fun _ => .of_aside (steady_bindNamedSqlQuery _ _ _).aside) _) fun _ => ?_
  refine .bind (.forM (fun _ => .of_aside (steady_bindResultSet _ _ _).aside) _) fun _ => ?_
  refine .bind (.forM (fun _ => .of_aside (steady_bindImport _ _).aside) _) fun _ => ?_
  exact .forM (fun _ => .of_aside (.modify fun r => .single (.auxiliaryObject r _))) _

end ObjectMapping
