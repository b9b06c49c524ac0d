import ObjectMapping.Proofs.Blame
import ObjectMapping.Proofs.Permanence
import ObjectMapping.Proofs.Source

/-!
# When a document has to wait

Whether a document has to wait is computed before anything is bound, from two scans of the document
and the names that are registered.  Subclasses look for their superclasses later, when part of the
document has been bound, and compute the names once more.  The three computations agree.  A document
waits exactly if a subclass at its top extends a class that is neither registered nor declared
anywhere in the document, and if it does not wait, no subclass ever misses a superclass from
elsewhere: at the top because names stay registered while the document is bound, and below because
a nested subclass extends the class that it is declared in.
-/

namespace ObjectMapping

open Binding Registry

/-! ## Names of elements -/

/-- A name that stands for a kind of element is listed with it, unless the kind is a collection. -/
theorem Tag.mem_names {name : String} {tag : Tag} (h : Tag.ofName? name = some tag)
    (hcollection : ∀ kind, tag ≠ .collection kind) : (name, tag) ∈ Tag.names := by
  unfold Tag.ofName? at h
  split at h
  · next kind _ => exact absurd (Option.some.inj h).symm (hcollection kind)
  · obtain ⟨before, after, hnames, -⟩ := List.lookup_eq_some_iff.mp h
    rw [hnames]
    exact List.mem_append_right _ List.mem_cons_self

/-- The kind of element that a subclass is in the body of its superclass. -/
def SubclassKind.bodyTag : SubclassKind → Tag
  | plain => .subclass
  | joined => .joinedSubclass
  | union => .unionSubclass

/-! ## What documents declare and extend -/

namespace Element

/-- An element is a subclass, of a kind that its name tells. -/
theorem isSubclass_iff {node : Element} :
    node.isSubclass = true ↔ ∃ kind : SubclassKind, node.name = kind.tag := by
  constructor
  · intro h
    obtain ⟨kind, -, hkind⟩ := List.any_eq_true.mp h
    exact ⟨kind, (of_decide_eq_true hkind).symm⟩
  · rintro ⟨kind, hkind⟩
    refine List.any_eq_true.mpr ⟨kind, ?_, decide_eq_true hkind.symm⟩
    cases kind <;> decide

/-- An element declares a class of a name: under its explicit name, or under its class name below
the package of the document. -/
def DeclaresAs (defaults : DocumentDefaults) (node : Element) (name : String) : Prop :=
  (node.name = "class" ∨ ∃ kind : SubclassKind, node.name = kind.tag) ∧
    (node.attribute? "entity-name" = some name ∨
      (node.attribute? "name").map defaults.qualifyClass = some name)

/-- A document declares a class of a name, at any depth. -/
def Declares (root : Element) (name : String) : Prop :=
  ∃ node, root.Below node ∧ node.DeclaresAs (.ofRoot root) name

/-- A subclass at the top of a document extends the class of a name. -/
def ExtendsAtTop (root : Element) (name : String) : Prop :=
  ∃ node ∈ root.children, (∃ kind : SubclassKind, node.name = kind.tag) ∧
    (node.attribute? "extends").map (DocumentDefaults.ofRoot root).qualifyClass = some name

/-- The entity that a class is bound to goes by a name that its element declares. -/
theorem declaresAs_of_entityNameOf {scope : Scope} {node : Element} {name : String}
    (hclass : node.name = "class" ∨ ∃ kind : SubclassKind, node.name = kind.tag)
    (h : entityNameOf scope node = .ok name) : node.DeclaresAs scope.defaults name := by
  refine ⟨hclass, ?_⟩
  unfold entityNameOf at h
  cases hname : (node.attribute? "entity-name").or (scope.classAttribute? node "name") with
  | none =>
    rw [hname] at h
    cases h
  | some given =>
    rw [hname] at h
    cases h
    rcases Option.or_eq_some_iff.mp hname with hexplicit | ⟨-, hclassName⟩
    · exact .inl hexplicit
    · exact .inr hclassName

/-- A subclass in a body is of the kind that its name tells. -/
theorem name_of_subclassTag {node : Element} {kind : SubclassKind}
    (h : node.tag? = some kind.bodyTag) : node.name = kind.tag := by
  have hlisted : (node.name, kind.bodyTag) ∈ Tag.names :=
    Tag.mem_names h fun _ hcollection => by cases kind <;> cases hcollection
  cases kind <;> simpa [Tag.names, SubclassKind.bodyTag, SubclassKind.tag] using hlisted

end Element

/-! ## The scans -/

/-- The names that an element declares itself are among those that the scan collects. -/
theorem mem_ownNames (node : Element) {defaults : DocumentDefaults} {name : String} :
    (name ∈ if node.name = "class" || node.isSubclass then
        (node.attribute? "entity-name").toList
          ++ ((node.attribute? "name").map defaults.qualifyClass).toList
      else []) ↔ node.DeclaresAs defaults name := by
  unfold Element.DeclaresAs
  rw [← Element.isSubclass_iff]
  split
  · next hclass =>
    rw [Bool.or_eq_true, decide_eq_true_eq] at hclass
    rw [List.mem_append, Option.mem_toList, Option.mem_toList, and_iff_right hclass]
  · next hclass =>
    rw [Bool.or_eq_true, decide_eq_true_eq] at hclass
    exact iff_of_false List.not_mem_nil fun h => hclass h.1

mutual

/-- The scan of an element collects the names that are declared in it, at any depth. -/
theorem mem_declaredNames (defaults : DocumentDefaults) (name : String) : ∀ e : Element,
    name ∈ declaredNames defaults e ↔
      ∃ node : Element, node.Within e ∧ node.DeclaresAs defaults name
  | ⟨tag, attributes, children, text⟩ => by
    rw [declaredNames, List.mem_append, mem_declaredNamesOfAll defaults name children]
    rw [mem_ownNames ⟨tag, attributes, children, text⟩]
    simp only [Element.Within.iff_of_child _ ⟨tag, attributes, children, text⟩, or_and_right,
      exists_or, exists_eq_left]
    refine or_congr_right ⟨?_, ?_⟩
    · rintro ⟨top, htop, node, hwithin, hdeclares⟩
      exact ⟨node, ⟨top, htop, hwithin⟩, hdeclares⟩
    · rintro ⟨node, ⟨top, htop, hwithin⟩, hdeclares⟩
      exact ⟨top, htop, node, hwithin, hdeclares⟩

theorem mem_declaredNamesOfAll (defaults : DocumentDefaults) (name : String) :
    ∀ es : List Element, name ∈ declaredNamesOfAll defaults es ↔
      ∃ top ∈ es, ∃ node : Element, node.Within top ∧ node.DeclaresAs defaults name
  | [] => by simp [declaredNamesOfAll]
  | e :: es => by
    rw [declaredNamesOfAll, List.mem_append, mem_declaredNames defaults name e,
      mem_declaredNamesOfAll defaults name es]
    simp only [List.exists_mem_cons_iff]

end

/-- The scan of a document collects the names that it declares. -/
theorem mem_declaredNames_iff {root : Element} {name : String} :
    name ∈ declaredNamesOfAll (.ofRoot root) root.children ↔ root.Declares name := by
  rw [mem_declaredNamesOfAll]
  constructor
  · rintro ⟨top, htop, node, hwithin, hdeclares⟩
    exact ⟨node, ⟨top, htop, hwithin⟩, hdeclares⟩
  · rintro ⟨node, ⟨top, htop, hwithin⟩, hdeclares⟩
    exact ⟨top, htop, node, hwithin, hdeclares⟩

theorem mem_extendedNames_iff {root : Element} {name : String} :
    name ∈ extendedNames root ↔ root.ExtendsAtTop name := by
  unfold extendedNames Element.ExtendsAtTop
  simp only [List.mem_filterMap, List.mem_filter, Element.isSubclass_iff, and_assoc]

/-- A document awaits a name: a subclass at its top extends the class of that name, which is neither
registered nor declared in the document. -/
def Registry.Awaits (r : Registry) (root : Element) (name : String) : Prop :=
  root.ExtendsAtTop name ∧ r.hasEntity name = false ∧ ¬ root.Declares name

/-- The names that a document is found to need are those that it awaits. -/
theorem mem_extendsNeeded_iff {r : Registry} {root : Element} {name : String} :
    name ∈ r.extendsNeeded root ↔ r.Awaits root name := by
  rw [mem_extendsNeeded, foreignNames, List.mem_filter, mem_extendedNames_iff, Bool.not_eq_true',
    Bool.eq_false_iff, ne_eq, List.contains_iff_mem, mem_declaredNames_iff, Registry.Awaits]
  tauto

/-! ## Owners -/

/-- An entity that is registered under its own name is found under it as an owner. -/
theorem name_of_run_find {r r' : Registry} {name : String} {owner : Owner}
    (hnamed : ∃ e, r.entity? name = some e ∧ e.name = name)
    (h : (Owner.find name).run r = .ok owner r') : r' = r ∧ owner.name = name := by
  obtain ⟨e, he, hname⟩ := hnamed
  unfold Owner.find at h
  rw [run_get_bind, run_require_eq_ok, he, Option.map_some, Option.some_inj] at h
  obtain ⟨rfl, rfl⟩ := h
  exact ⟨rfl, hname⟩

/-- A root class that is opened is registered under the name of its element. -/
theorem named_of_openRootClass {scope : Scope} {node : Element} {name : String} {r r' : Registry}
    (h : (openRootClass scope node).run r = .ok name r') :
    entityNameOf scope node = .ok name ∧ ∃ e, r'.entity? name = some e ∧ e.name = name := by
  obtain ⟨e, r₁, hprepared, h⟩ := run_bind_eq_ok.mp h
  obtain ⟨u, r₂, hregistered, h⟩ := run_bind_eq_ok.mp h
  cases h
  obtain ⟨hname, -⟩ := yields_prepareRootClass _ _ _ _ _ hprepared
  exact ⟨hname, e, entity?_self_of_addEntity (run_register_eq_ok.mp hregistered), rfl⟩

/-- So is a subclass: what its superclass and its root learn of it does not change its name. -/
theorem named_of_openSubclass {kind : SubclassKind} {scope : Scope} {superclass name : String}
    {node : Element} {r r' : Registry}
    (h : (openSubclass kind scope superclass node).run r = .ok name r') :
    entityNameOf scope node = .ok name ∧ ∃ e, r'.entity? name = some e ∧ e.name = name := by
  obtain ⟨e, r₁, hprepared, h⟩ := run_bind_eq_ok.mp h
  obtain ⟨u, r₂, hregistered, h⟩ := run_bind_eq_ok.mp h
  cases h
  obtain ⟨hname, -⟩ := yields_prepareSubclass _ _ _ _ _ _ _ hprepared
  obtain ⟨u, r₃, hadded, hadopted⟩ := run_bind_eq_ok.mp hregistered
  have hfound := entity?_self_of_addEntity (run_register_eq_ok.mp hadded)
  have hlater : r₃.Upgrades r' := .of_steps (fun _ _ => Elaboration.upgrades)
    ((supplementing_adoption e.name superclass kind.strategy).elaborating.of_ok hadopted)
  obtain ⟨e', he', hextends⟩ := hlater.entities.get? hfound
  exact ⟨hname, e', he', hextends.name⟩

/-! ## Blame along the walk -/

section

variable {root : Element} {scope : Scope}

mutual

/-- A subclass with its body complains of declared names only, if its own superclass is declared or
registered. -/
theorem blames_bindSubclass (kind : SubclassKind) (scope : Scope)
    (hscope : scope.defaults = .ofRoot root) (superclass : String) (r : Registry) :
    ∀ node : Element, root.Below node → node.name = kind.tag →
      (r.hasEntity superclass = false → root.Declares superclass) →
      Blames (bindSubclass kind scope superclass node) r root.Declares
  | ⟨tag, attributes, children, text⟩, hbelow, hkind, hsuperclass => by
    have hchildren : ∀ c ∈ children, root.Below c := fun c hc => hbelow.child hc
    rw [bindSubclass]
    refine .bind ((blames_openSubclass _ _ _ _ _).mono ?_) fun name r₁ hopened => ?_
    · rintro _ ⟨rfl, hunknown⟩
      exact hsuperclass hunknown
    obtain ⟨hname, hnamed⟩ := named_of_openSubclass hopened
    refine .after (spares_find _) fun owner r₂ hfound => ?_
    obtain ⟨rfl, rfl⟩ := name_of_run_find hnamed hfound
    have hdeclares : root.Declares owner.name :=
      ⟨_, hbelow, hscope ▸ Element.declaresAs_of_entityNameOf (.inr ⟨kind, hkind⟩) hname⟩
    exact .bind (blames_bindBody (scope.descend _) hscope owner _ _ hdeclares children hchildren)
      fun _ _ _ => (Spares.pure _).blames _ _

theorem blames_bindNaturalId (scope : Scope) (hscope : scope.defaults = .ofRoot root)
    (owner : Owner) (r : Registry) (howner : root.Declares owner.name) :
    ∀ node : Element, root.Below node → Blames (bindNaturalId scope owner node) r root.Declares
  | ⟨tag, attributes, children, text⟩, hbelow => by
    have hchildren : ∀ c ∈ children, root.Below c := fun c hc => hbelow.child hc
    rw [bindNaturalId]
    exact .bind (blames_bindBody scope hscope owner _ _ howner children hchildren) fun _ _ _ =>
      (Spares.changeTable _ _).blames _ _

/-- The body of a declared class complains of declared names only: a nested subclass extends the
class that the body belongs to. -/
theorem blames_bindBody (scope : Scope) (hscope : scope.defaults = .ofRoot root) (owner : Owner)
    (walk : BodyWalk) (r : Registry) (howner : root.Declares owner.name) :
    ∀ children : List Element, (∀ c ∈ children, root.Below c) →
      Blames (bindBody scope owner walk children) r root.Declares
  | [], _ => by
    rw [bindBody]
    exact (Spares.pure _).blames _ _
  | node :: rest, hchildren => by
    rw [List.forall_mem_cons] at hchildren
    obtain ⟨hnode, hrest⟩ := hchildren
    unfold bindBody
    extract_lets others
    have hothers : ∀ columns r, Blames (others columns) r root.Declares := fun columns r =>
      .bind (blames_bindBody scope hscope owner walk r howner rest hrest) fun _ _ _ =>
        (Spares.pure _).blames _ _
    clear_value others
    split
    · next htag =>
      exact .bind (blames_bindSubclass .plain scope hscope owner.name _ node hnode
        (Element.name_of_subclassTag htag) fun _ => howner) fun _ r' _ => hothers _ r'
    · next htag =>
      exact .bind (blames_bindSubclass .joined scope hscope owner.name _ node hnode
        (Element.name_of_subclassTag htag) fun _ => howner) fun _ r' _ => hothers _ r'
    · next htag =>
      exact .bind (blames_bindSubclass .union scope hscope owner.name _ node hnode
        (Element.name_of_subclassTag htag) fun _ => howner) fun _ r' _ => hothers _ r'
    · exact .bind (blames_bindNaturalId scope hscope owner _ howner node hnode) fun _ r' _ =>
        hothers _ r'
    · exact .after (spares_bindBodyExtra _ _ _ _) fun _ _ _ =>
        .after (spares_bindBodyProperty _ _ _ _) fun columns r' _ => hothers columns r'
    · exact hothers _ r

end

/-- A root class complains of declared names only, since nested subclasses extend it. -/
theorem blames_bindRootClass (hscope : scope.defaults = .ofRoot root) {node : Element}
    (hnode : node ∈ root.childrenNamed "class") (r : Registry) :
    Blames (bindRootClass scope node) r root.Declares := by
  obtain ⟨htop, hclass⟩ := List.mem_filter.mp hnode
  have hbelow : root.Below node := ⟨node, htop, .self node⟩
  unfold bindRootClass
  refine .after (.bind (spares_prepareRootClass _ _) fun e => .bind (spares_addEntity e) fun _ =>
    .pure _) fun name r₁ hopened => ?_
  obtain ⟨hname, hnamed⟩ := named_of_openRootClass hopened
  refine .after (spares_find _) fun owner r₂ hfound => ?_
  obtain ⟨rfl, rfl⟩ := name_of_run_find hnamed hfound
  have hdeclares : root.Declares owner.name :=
    ⟨node, hbelow, hscope ▸
      Element.declaresAs_of_entityNameOf (.inl (of_decide_eq_true hclass)) hname⟩
  exact .bind (blames_bindBody (scope.descend node) hscope owner _ _ hdeclares node.children
    fun c hc => hbelow.child hc) fun _ _ _ => (Spares.pure _).blames _ _

/-- A subclass at the top complains of declared names only, if what is not declared and extended at
the top is registered. -/
theorem blames_bindTopSubclass (hscope : scope.defaults = .ofRoot root) (kind : SubclassKind)
    {node : Element} (hnode : node ∈ root.childrenNamed kind.tag) {r : Registry}
    (hsettled : ∀ name, root.ExtendsAtTop name → r.hasEntity name = false → root.Declares name) :
    Blames (bindTopSubclass kind scope node) r root.Declares := by
  obtain ⟨htop, hkind⟩ := List.mem_filter.mp hnode
  have hkind : node.name = kind.tag := of_decide_eq_true hkind
  have hsought : ∀ name, (node.attribute? "extends").map scope.qualifyClass = some name →
      r.hasEntity name = false → root.Declares name := fun name hname =>
    hsettled name ⟨node, htop, ⟨kind, hkind⟩, by rw [← hscope]; exact hname⟩
  unfold bindTopSubclass superclassOf
  rw [bind_assoc]
  cases hextends : node.attribute? "extends" with
  | none => exact (Spares.throw_bind _ _ rfl).blames _ _
  | some name =>
    refine .after (.pure name) fun _ r₁ hpure => ?_
    cases hpure
    cases hknown : r.hasEntity (scope.qualifyClass name) with
    | false =>
      intro name' r' hrun
      rw [bind_assoc, run_get_bind, if_neg (by simp [hknown])] at hrun
      cases hrun
      exact hsought _ (by rw [hextends]; rfl) hknown
    | true =>
      intro name' r' hrun
      rw [bind_assoc, run_get_bind, if_pos hknown] at hrun
      exact blames_bindSubclass kind scope hscope _ r node ⟨node, htop, .self node⟩ hkind
        (fun hunknown => by rw [hknown] at hunknown; cases hunknown) name' r' hrun

/-- What is not declared and extended at the top of a document is registered. -/
def Registry.Supplies (r : Registry) (root : Element) : Prop :=
  ∀ name, root.ExtendsAtTop name → r.hasEntity name = false → root.Declares name

/-- Binding the contents of documents takes no name away. -/
theorem Registry.Supplies.kept {α : Type} {m : Binding α} (hm : Makes Entry m) {r : Registry}
    (h : r.Supplies root) : (m.after r).Supplies root := by
  have hlater : r.Upgrades (m.after r) :=
    .of_steps (fun _ _ hstep => (Declaration.entry hstep).upgrades) (hm r)
  intro name hextends hunknown
  refine h name hextends (Bool.eq_false_iff.mpr fun hknown => ?_)
  obtain ⟨e, he⟩ := hasEntity_iff_exists.mp hknown
  obtain ⟨e', he', -⟩ := hlater.entities.get? he
  rw [hasEntity_iff_exists.mpr ⟨e', he'⟩] at hunknown
  cases hunknown

/-- A document that awaits nothing complains of declared names only. -/
theorem blames_bindRoot (metas : MetaMap) {r : Registry} (h : r.Supplies root) :
    Blames (bindRoot root metas) r root.Declares := by
  have hwalked : Walked (.ofSteps Entry) fun _ _ => True :=
    walked_of_enrollment fun _ _ hstep _ => ⟨.single (.enroll hstep), trivial⟩
  unfold bindRoot
  extract_lets defaults scope
  have hclasses : ∀ node, Makes Entry (bindRootClass scope node) := fun node =>
    makes_of_upholds fun _ => hwalked.upholds_bindRootClass trivial
  have hsubclasses : ∀ kind node, Makes Entry (bindTopSubclass kind scope node) := fun kind node =>
    makes_of_upholds fun _ => hwalked.upholds_bindTopSubclass kind trivial
  refine .after (.modify _) fun _ r₁ hdefaults => ?_
  cases hdefaults
  refine .after (.forM spares_bindFilterDefinition _) fun _ r₂ hfilters => ?_
  have hfiltered : r₂.Supplies root := by
    rw [← after_eq_of_ok hfilters]
    exact .kept (.forM (fun node => Makes.mono (defines_bindFilterDefinition node)
      fun _ _ hstep => .single (.define hstep)) _) h
  refine .after (.forM spares_bindTypeDefinition _) fun _ r₃ htypes => ?_
  have htyped : r₃.Supplies root := by
    rw [← after_eq_of_ok htypes]
    exact .kept (.forM (fun node => Makes.mono (defines_bindTypeDefinition node)
      fun _ _ hstep => .single (.define hstep)) _) hfiltered
  refine .bind (.forM (I := (·.Supplies root)) htyped (fun node _ => .kept (hclasses node))
    fun node hnode r _ => blames_bindRootClass rfl hnode r) fun _ r₄ hbound => ?_
  have hclassed : r₄.Supplies root := by
    rw [← after_eq_of_ok hbound]
    exact .kept (.forM hclasses _) htyped
  refine .bind (.forM (I := (·.Supplies root)) hclassed
    (fun kind _ => .kept (.forM (hsubclasses kind) _))
    fun kind _ r hr => .forM (I := (·.Supplies root)) hr
      (fun node _ => .kept (hsubclasses kind node))
      fun node hnode r hr => blames_bindTopSubclass rfl kind hnode hr) fun _ r₅ _ => ?_
  exact Spares.blames (.bind (.forM (spares_bindNamedQuery _) _) fun _ =>
    .bind (.forM (spares_bindNamedSqlQuery _ _) _) fun _ =>
    .bind (.forM (spares_bindResultSet _ _) _) fun _ =>
    .bind (.forM (spares_bindImport _) _) fun _ => .forM (fun _ => .modify _) _) _ _

end

/-! ## Deferral -/

/-- A document is deferred exactly if it awaits a name.  The names that it is deferred for are those
that it awaits, each once and in order, and all that happens to the registry is that the document is
queued.  If binding it ends in the error that a class cannot be extended because it is not mapped,
then the document declares a class of that name itself. -/
theorem bindDocument_deferred_exactly (r : Registry) (document : Document) (metas : MetaMap) :
    ((∃ missing r', (bindDocument document metas).run r = .ok (.deferred missing) r') ↔
        ∃ name, r.Awaits document.root name) ∧
      (∀ missing r', (bindDocument document metas).run r = .ok (.deferred missing) r' →
        missing.Pairwise (· < ·) ∧ (∀ name, name ∈ missing ↔ r.Awaits document.root name) ∧
          r' = r.enqueue { document, metas, missing }) ∧
      ∀ name r', (bindDocument document metas).run r = .error (.unmappedSuperclass name) r' →
        document.root.Declares name := by
  by_cases hneeded : r.extendsNeeded document.root = []
  · have hnone : ∀ name, ¬ r.Awaits document.root name := fun name hname => by
      have hmem := mem_extendsNeeded_iff.mpr hname
      rw [hneeded] at hmem
      exact List.not_mem_nil hmem
    have hbound : ∀ missing r',
        (bindDocument document metas).run r ≠ .ok (.deferred missing) r' := by
      intro missing r' hrun
      rw [Session.run_bindDocument_of_settled metas hneeded] at hrun
      obtain ⟨_, _, -, hpure⟩ := run_bind_eq_ok.mp hrun
      cases hpure
    refine ⟨⟨fun ⟨missing, r', hrun⟩ => absurd hrun (hbound missing r'), fun ⟨name, hname⟩ =>
      absurd hname (hnone name)⟩, fun missing r' hrun => absurd hrun (hbound missing r'), ?_⟩
    intro name r' hrun
    rw [Session.run_bindDocument_of_settled metas hneeded] at hrun
    have hsupplies : r.Supplies document.root := fun name hextends hunknown =>
      not_not.mp fun hdeclares => hnone name ⟨hextends, hunknown, hdeclares⟩
    exact Blames.bind (blames_bindRoot metas hsupplies)
      (fun _ _ _ => (Spares.pure _).blames _ _) name r' hrun
  · have hdeferred := Session.run_bindDocument_of_needed metas hneeded
    refine ⟨⟨fun _ => ?_, fun _ => ⟨_, _, hdeferred⟩⟩, ?_, ?_⟩
    · obtain ⟨name, hname⟩ := List.exists_mem_of_ne_nil _ hneeded
      exact ⟨name, mem_extendsNeeded_iff.mp hname⟩
    · intro missing r' hrun
      rw [hdeferred] at hrun
      cases hrun
      exact ⟨SortedMap.sorted_keys _, fun name => mem_extendsNeeded_iff, rfl⟩
    · intro name r' hrun
      rw [hdeferred] at hrun
      cases hrun

/-- A document of two subclasses, one of which extends the other. -/
def litter : Document where
  root := {
    name := "hibernate-mapping"
    attributes := .ofList [("package", "zoo")]
    children := [
      { name := "joined-subclass", attributes := .ofList [("name", "Dog"), ("extends", "Pet")] },
      subclassElement "Puppy" "Dog"] }

/-- A registry with the class that the document extends. -/
def zoo : Registry := (bindDocument (documentOf [classElement "zoo.Pet"]) .empty).after {}

/-- The document waits for the class that it extends and does not declare.  Once that is registered,
the document is bound, and is refused for a class that it declares itself: plain subclasses are
bound before joined ones. -/
theorem bindDocument_deferred_exactly_litter :
    (∃ r', (bindDocument litter .empty).run {} = .ok (.deferred ["zoo.Pet"]) r' ∧
        ({} : Registry).Awaits litter.root "zoo.Pet" ∧
        r' = ({} : Registry).enqueue ⟨litter, .empty, ["zoo.Pet"]⟩) ∧
      (¬ ∃ missing r', (bindDocument litter .empty).run zoo = .ok (.deferred missing) r') ∧
      ∃ r', (bindDocument litter .empty).run zoo = .error (.unmappedSuperclass "zoo.Dog") r' ∧
        litter.root.Declares "zoo.Dog" := by
  obtain ⟨-, hdeferred, -⟩ := bindDocument_deferred_exactly {} litter .empty
  obtain ⟨hwaits, -, hblamed⟩ := bindDocument_deferred_exactly zoo litter .empty
  have hneeded : ({} : Registry).extendsNeeded litter.root = ["zoo.Pet"] := by decide +kernel
  have hwaiting : ({} : Registry).extendsNeeded litter.root ≠ [] := by
    rw [hneeded]
    exact List.cons_ne_nil _ _
  have hrun := Session.run_bindDocument_of_needed .empty hwaiting
  rw [hneeded] at hrun
  obtain ⟨-, hawaited, hqueued⟩ := hdeferred _ _ hrun
  have hrefused : (bindDocument litter .empty).failure? zoo
      = some (.unmappedSuperclass "zoo.Dog") := by decide +kernel
  have hfails := run_of_failure? hrefused
  refine ⟨⟨_, hrun, (hawaited "zoo.Pet").mp List.mem_cons_self, hqueued⟩, ?_, _, hfails,
    hblamed _ _ hfails⟩
  rintro ⟨missing, r', hdeferred⟩
  rw [hfails] at hdeferred
  cases hdeferred

end ObjectMapping
