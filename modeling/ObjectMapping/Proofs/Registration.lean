import ObjectMapping.Proofs.Outline

/-!
# What documents register

Binding a document without an error registers exactly the entities of its outline, after those
that were there, and changes no other.  The proof follows the recursion over elements: a body
declares the properties and joins of its own outline for its owner, and appends the subclasses
in it.  What a computation registers is stated for runs that end well only, since a run that
fails may stop halfway.
-/

namespace ObjectMapping

open Binding Registry

/-! ## Bodies -/

/-- The owner of a body declares what is in its outline, and the subclasses in it are
appended. -/
def Declares (owner : String) (body : BodyOutline) (r r' : Registry) : Prop :=
  r'.outlines = modifySkeleton owner (·.declare body.properties body.joins) r.outlines
    ++ byName body.subclasses

/-- Subclasses that are appended are all that is declared if nothing else changes. -/
theorem Declares.of_append {r r' : Registry} (owner : String) {ks : List EntitySkeleton}
    (h : r'.outlines = r.outlines ++ byName ks) : Declares owner { subclasses := ks } r r' := by
  have hid : modifySkeleton owner (·.declare [] []) r.outlines = r.outlines := by
    simp [modifySkeleton]
  rw [Declares, hid, h]

/-- Changing nothing declares nothing. -/
theorem Declares.of_outlines {r r' : Registry} (owner : String) (h : r'.outlines = r.outlines) :
    Declares owner {} r r' :=
  .of_append owner (by rw [h]; exact (List.append_nil _).symm)

/-- What two parts of a body declare one after the other. -/
theorem Declares.trans {owner : String} {a b : BodyOutline} {r r' r'' : Registry}
    (hknown : r.hasEntity owner = true) (h : Declares owner a r r') (h' : Declares owner b r' r'') :
    Declares owner (a.append b) r r'' := by
  have hfresh : owner ∉ (byName a.subclasses).map Prod.fst := by
    intro hmem
    have hnodup := r'.nodup_entityNames
    rw [← map_fst_outlines, h, List.map_append, map_fst_modifySkeleton, map_fst_outlines,
      List.nodup_append] at hnodup
    exact hnodup.2.2 owner (hasEntity_iff.mp hknown) owner hmem rfl
  have hcompose : (fun k : EntitySkeleton => k.declare b.properties b.joins) ∘
      (fun k : EntitySkeleton => k.declare a.properties a.joins)
        = fun k => k.declare (a.append b).properties (a.append b).joins := by
    funext k
    exact k.declare_declare _ _ _ _
  rw [Declares, h', h, modifySkeleton_append, modifySkeleton_of_not_mem hfresh,
    modifySkeleton_modifySkeleton, hcompose, List.append_assoc]
  exact congrArg _ (List.map_append).symm

/-- An entity that was changed was registered. -/
theorem of_run_changeEntity {name : String} {f : Entity → Entity} {r r' : Registry} {u : Unit}
    (h : (Binding.changeEntity name f).run r = .ok u r') : r' = r.modifyEntity name f := by
  cases hname : r.hasEntity name with
  | true =>
    rw [run_changeEntity f hname] at h
    cases h
    rfl
  | false =>
    unfold Binding.changeEntity at h
    rw [run_get_bind, if_neg (by simp [hname])] at h
    cases h

/-- A child of a body that is a property is declared under its name. -/
theorem declares_of_bindBodyProperty {scope : Scope} {owner : Owner} {walk : BodyWalk}
    {node : Element} {r r' : Registry} {columns : List String}
    (h : (bindBodyProperty scope owner walk node).run r = .ok columns r') :
    Declares owner.name
      { properties := if node.tag?.any Tag.isBodyProperty then (node.attribute? "name").toList
          else [] } r r' := by
  unfold bindBodyProperty at h
  obtain ⟨value, r₁, hvalue, h⟩ := run_bind_eq_ok.mp h
  have hwrites := (prepares_bindBodyValue scope owner walk node).aside.of_ok hvalue
  have hproperty := yields_bindBodyValue scope owner walk node r value r₁ hvalue
  cases value with
  | none =>
    cases h
    have hother : ¬node.tag?.any Tag.isBodyProperty = true := by
      rw [← hproperty]
      exact Bool.false_ne_true
    rw [if_neg hother]
    exact .of_outlines _ hwrites.outlines
  | some value =>
    obtain ⟨p, r₂, hcreated, h⟩ := run_bind_eq_ok.mp h
    obtain ⟨_, r₃, hadded, h⟩ := run_bind_eq_ok.mp h
    cases h
    have hwrites' := (prepares_createProperty _ _ _ _ _).aside.of_ok hcreated
    have hname := yields_createProperty _ _ _ _ _ r₁ p r₂ hcreated
    have hbody : node.tag?.any Tag.isBodyProperty = true := hproperty.symm
    rw [if_pos hbody, hname, of_run_changeEntity hadded, Declares,
      outlines_modifyEntity r₂ owner.name fun e => e.skeleton_addProperty _, hwrites'.outlines,
      hwrites.outlines]
    exact (List.append_nil _).symm

/-- What else is in a body declares a join, or nothing. -/
theorem declares_of_bindBodyExtra {scope : Scope} {owner : Owner} {node : Element} {tag : Tag}
    {r r' : Registry} (h : (bindBodyExtra scope owner node tag).run r = .ok () r') :
    Declares owner.name { joins := if tag = .join then [joinedNames node.children] else [] }
      r r' := by
  have haside : ∀ m : Binding Unit, m.Aside → m.run r = .ok () r' → Declares owner.name {} r r' :=
    fun m hm hrun => .of_outlines _ (hm.of_ok hrun).outlines
  unfold bindBodyExtra at h
  split at h
  · obtain ⟨j, r₁, hjoin, h⟩ := run_bind_eq_ok.mp h
    have hwrites := (prepares_bindJoin scope owner node).aside.of_ok hjoin
    have hnames := yields_bindJoin scope owner node r j r₁ hjoin
    rw [if_pos rfl, of_run_changeEntity h, Declares, ← hnames,
      outlines_modifyEntity r₁ owner.name fun e => e.skeleton_addJoin j, hwrites.outlines]
    exact (List.append_nil _).symm
  · refine haside _ ?_ h
    exact .bind (steady_bindFilterUse _).aside fun _ => aside_changeEntity fun _ => rfl
  · exact haside _ (steady_bindNamedQuery _ _).aside h
  · exact haside _ (steady_bindNamedSqlQuery _ _ _).aside h
  · exact haside _ (steady_bindResultSet _ _ _).aside h
  · next hjoin _ _ _ _ =>
    rw [if_neg (fun htag => hjoin htag)]
    exact haside _ (.pure ()) h

/-- A child of a body that is no subclass declares a property, or a join, or nothing. -/
theorem declares_of_bindBodyMember {scope : Scope} {owner : Owner} {walk : BodyWalk}
    {node : Element} {tag : Tag} {r r₁ r₂ : Registry} {own : List String}
    (htag : node.tag? = some tag) (hkeyed : Keyed r.skeletons)
    (hknown : r.hasEntity owner.name = true)
    (hextra : (bindBodyExtra scope owner node tag).run r = .ok () r₁)
    (hproperty : (bindBodyProperty scope owner walk node).run r₁ = .ok own r₂) :
    Grows r r₂ ∧ Declares owner.name
      { properties := if tag.isBodyProperty then (node.attribute? "name").toList else []
        joins := if tag = .join then [joinedNames node.children] else [] } r r₂ := by
  have hfirst := (growing_bindBodyExtra [] scope owner node tag).of_ok hkeyed
    (List.forall_mem_nil _) hextra
  have hsecond := (growing_bindBodyProperty [] scope owner walk node).of_ok (hfirst.keyed hkeyed)
    (List.forall_mem_nil _) hproperty
  refine ⟨hfirst.trans hsecond, ?_⟩
  have hdeclares := (declares_of_bindBodyExtra hextra).trans hknown
    (declares_of_bindBodyProperty hproperty)
  rw [htag] at hdeclares
  simpa only [BodyOutline.append, List.nil_append, List.append_nil, Option.any_some]
    using hdeclares

/-- A subclass that is opened is appended without properties. -/
theorem outlines_of_openSubclass {kind : SubclassKind} {scope : Scope} {superclass name : String}
    {node : Element} {r r' : Registry} (hknown : r.hasEntity superclass = true)
    (h : (openSubclass kind scope superclass node).run r = .ok name r') :
    entityNameIn scope.defaults node = name ∧ r.hasEntity name = false ∧
      r'.outlines = r.outlines ++ [(name, .bare name kind.tag (some superclass))] := by
  obtain ⟨hname, hnew, hskeletons⟩ := skeletons_of_openSubclass hknown h
  refine ⟨entityNameIn_of_entityNameOf hname, hnew, ?_⟩
  have hhidden : ∀ ks : List (String × EntitySkeleton),
      (modifySkeleton superclass (·.addSubclass name) ks).map (fun k => (k.1, k.2.outline))
        = ks.map fun k => (k.1, k.2.outline) := by
    intro ks
    unfold modifySkeleton
    rw [List.map_map]
    refine List.map_congr_left fun k _ => ?_
    by_cases hk : k.1 = superclass
    · simp only [Function.comp_apply, if_pos hk]
      rfl
    · simp only [Function.comp_apply, if_neg hk]
  rw [Registry.outlines, hskeletons, hhidden, List.map_append]
  rfl

/-- What the body of an entity that was just opened declares is declared by that entity. -/
theorem outlines_of_opened {name : String} {k : EntitySkeleton} {body : BodyOutline}
    {r r' r'' : Registry} (hname : k.name = name) (hnew : r.hasEntity name = false)
    (hopened : r'.outlines = r.outlines ++ [(name, k)]) (hbody : Declares name body r' r'') :
    r''.outlines = r.outlines
      ++ byName (k.declare body.properties body.joins :: body.subclasses) := by
  have hfresh : name ∉ r.outlines.map Prod.fst := by
    rw [map_fst_outlines, ← hasEntity_iff, hnew]
    exact Bool.false_ne_true
  rw [hbody, hopened, modifySkeleton_append, modifySkeleton_of_not_mem hfresh, List.append_assoc]
  congr 1
  subst hname
  simp [modifySkeleton, byName, EntitySkeleton.declare]

mutual

/-- A bound subclass is appended with the subclasses in its body. -/
theorem outlines_of_bindSubclass (kind : SubclassKind) (scope : Scope) (superclass : String) :
    ∀ (node : Element) (r r' : Registry), Keyed r.skeletons → r.hasEntity superclass = true →
      (bindSubclass kind scope superclass node).run r = .ok () r' →
      r'.outlines = r.outlines ++ byName (subclassOutlines scope.defaults kind superclass node)
  | ⟨tag, attributes, children, text⟩ => by
    intro r r' hkeyed hknown h
    rw [bindSubclass] at h
    obtain ⟨name, r₁, hopen, h⟩ := run_bind_eq_ok.mp h
    obtain ⟨owner, r₂, hfind, h⟩ := run_bind_eq_ok.mp h
    obtain ⟨columns, hbody⟩ := run_discard_eq_ok.mp h
    have hgrows := (growing_openSubclass kind scope superclass
      ⟨tag, attributes, children, text⟩).of_ok hkeyed (List.forall_mem_singleton.mpr hknown) hopen
    have hkeyed₁ := hgrows.keyed hkeyed
    obtain ⟨hname, hnew, houtlines⟩ := outlines_of_openSubclass hknown hopen
    obtain ⟨rfl, hsame, howner⟩ := of_run_find hkeyed₁ hfind
    rw [← hsame] at howner
    have hdeclares := declares_of_bindBody _ owner _ children _ _ _ hkeyed₁ howner hbody
    rw [hsame] at hdeclares
    rw [subclassOutlines, hname]
    exact outlines_of_opened rfl hnew houtlines hdeclares

/-- The properties of a natural identifier are declared by its owner. -/
theorem declares_of_bindNaturalId (scope : Scope) (owner : Owner) :
    ∀ (node : Element) (r r' : Registry), Keyed r.skeletons → r.hasEntity owner.name = true →
      (bindNaturalId scope owner node).run r = .ok () r' →
      Declares owner.name (naturalIdOutline scope.defaults owner.name node) r r'
  | ⟨tag, attributes, children, text⟩ => by
    intro r r' hkeyed hknown h
    rw [bindNaturalId] at h
    obtain ⟨columns, r₁, hbody, h⟩ := run_bind_eq_ok.mp h
    have hdeclares := declares_of_bindBody _ owner _ children _ _ _ hkeyed hknown hbody
    have hkey := (quiet_changeTable _ fun t => .addToUniqueKey t _ _).aside.of_ok h
    rw [naturalIdOutline, Declares, hkey.outlines]
    exact hdeclares

/-- The body of an entity declares its outline. -/
theorem declares_of_bindBody (scope : Scope) (owner : Owner) (walk : BodyWalk) :
    ∀ (children : List Element) (r r' : Registry) (columns : List String),
      Keyed r.skeletons → r.hasEntity owner.name = true →
      (bindBody scope owner walk children).run r = .ok columns r' →
      Declares owner.name (bodyOutline scope.defaults owner.name children) r r'
  | [] => by
    intro r r' columns hkeyed hknown h
    rw [bindBody] at h
    cases h
    rw [bodyOutline]
    exact .of_outlines _ rfl
  | node :: rest => by
    intro r r' columns hkeyed hknown h
    unfold bindBody at h
    extract_lets others at h
    have howner : ∀ name ∈ [owner.name], r.hasEntity name = true :=
      List.forall_mem_singleton.mpr hknown
    -- The children after the first one are bound wherever the first one has led.
    have hrest : ∀ {first : BodyOutline} {r₁ : Registry} {own : List String}, Grows r r₁ →
        Declares owner.name first r r₁ → (others own).run r₁ = .ok columns r' →
        Declares owner.name (first.append (bodyOutline scope.defaults owner.name rest)) r r' := by
      intro first r₁ own hfirst hdeclares hrun
      obtain ⟨_, _, hothers, hreturn⟩ := run_bind_eq_ok.mp hrun
      cases hreturn
      exact hdeclares.trans hknown (declares_of_bindBody scope owner walk rest _ _ _
        (hfirst.keyed hkeyed) (hfirst.hasEntity hknown) hothers)
    have hsubclass : ∀ kind, (do
          bindSubclass kind scope owner.name node
          others [] : Binding (List String)).run r = .ok columns r' →
        Declares owner.name (BodyOutline.append
          { subclasses := subclassOutlines scope.defaults kind owner.name node }
          (bodyOutline scope.defaults owner.name rest)) r r' := by
      intro kind hrun
      obtain ⟨_, r₁, hbound, hothers⟩ := run_bind_eq_ok.mp hrun
      have hgrows := (growing_bindSubclass kind scope owner.name node).of_ok hkeyed howner hbound
      refine hrest hgrows ?_ hothers
      exact .of_append _ (outlines_of_bindSubclass kind scope owner.name node _ _ hkeyed hknown
        hbound)
    split at h
    · rw [bodyOutline, ‹node.tag? = _›]
      exact hsubclass .plain h
    · rw [bodyOutline, ‹node.tag? = _›]
      exact hsubclass .joined h
    · rw [bodyOutline, ‹node.tag? = _›]
      exact hsubclass .union h
    · rw [bodyOutline, ‹node.tag? = _›]
      obtain ⟨_, r₁, hbound, hothers⟩ := run_bind_eq_ok.mp h
      have hgrows := (growing_bindNaturalId scope owner node).of_ok hkeyed howner hbound
      refine hrest hgrows ?_ hothers
      exact declares_of_bindNaturalId scope owner node _ _ hkeyed hknown hbound
    · next tag _ _ _ _ htag =>
      obtain ⟨_, r₁, hextra, h⟩ := run_bind_eq_ok.mp h
      obtain ⟨own, r₂, hproperty, hothers⟩ := run_bind_eq_ok.mp h
      obtain ⟨hgrows, hdeclares⟩ := declares_of_bindBodyMember htag hkeyed hknown hextra hproperty
      rw [bodyOutline, htag]
      -- No case of a subclass or a natural identifier applies.
      simp only
      exact hrest hgrows hdeclares hothers
    · rw [bodyOutline, ‹node.tag? = _›]
      exact hrest (.refl r) (.of_outlines _ rfl) h

end

/-! ## Documents -/

/-- A computation that makes registries grow and, if it ends well, registers exactly the
entities of some outlines. -/
structure Registers {α : Type} (m : Binding α) (ks : List EntitySkeleton) : Prop where
  growing : Growing [] m
  outlines : ∀ {r a r'}, Keyed r.skeletons → m.run r = .ok a r' →
    r'.outlines = r.outlines ++ byName ks

namespace Registers

variable {α β : Type}

/-- Side writes register nothing. -/
theorem of_aside {m : Binding α} (h : m.Aside) : Registers m [] where
  growing := .of_aside h
  outlines := fun _ hrun => by
    rw [(h.of_ok hrun).outlines]
    exact (List.append_nil _).symm

/-- A sequence registers what its halves do. -/
theorem bind {m : Binding α} {f : α → Binding β} {ks ls : List EntitySkeleton}
    (hm : Registers m ks) (hf : ∀ a, Registers (f a) ls) : Registers (m >>= f) (ks ++ ls) where
  growing := .bind hm.growing fun a => (hf a).growing
  outlines := by
    intro r b r'' hkeyed hrun
    obtain ⟨a, r', hfirst, hsecond⟩ := run_bind_eq_ok.mp hrun
    have hgrows := hm.growing.of_ok hkeyed (List.forall_mem_nil _) hfirst
    rw [(hf a).outlines (hgrows.keyed hkeyed) hsecond, hm.outlines hkeyed hfirst,
      List.append_assoc]
    exact congrArg _ List.map_append.symm

/-- A loop registers what its rounds do, in order. -/
theorem forM {f : α → Binding PUnit} {g : α → List EntitySkeleton}
    (h : ∀ a, Registers (f a) (g a)) (l : List α) : Registers (l.forM f) (l.flatMap g) := by
  induction l with
  | nil => exact of_aside (.pure _)
  | cons a l ih => exact bind (h a) fun _ => ih

end Registers

/-- A bound root class is appended with the subclasses in its body. -/
theorem registers_bindRootClass (scope : Scope) (node : Element) :
    Registers (bindRootClass scope node) (classOutlines scope.defaults node) where
  growing := growing_bindRootClass scope node
  outlines := by
    intro r u r' hkeyed h
    obtain ⟨name, r₁, hopen, h⟩ := run_bind_eq_ok.mp h
    obtain ⟨owner, r₂, hfind, h⟩ := run_bind_eq_ok.mp h
    obtain ⟨columns, hbody⟩ := run_discard_eq_ok.mp h
    have hgrows := (growing_openRootClass scope node).of_ok hkeyed (List.forall_mem_nil _) hopen
    have hkeyed₁ := hgrows.keyed hkeyed
    obtain ⟨hname, hnew, hskeletons⟩ := skeletons_of_openRootClass hopen
    obtain ⟨rfl, hsame, howner⟩ := of_run_find hkeyed₁ hfind
    rw [← hsame] at howner
    have hdeclares := declares_of_bindBody _ owner _ _ _ _ _ hkeyed₁ howner hbody
    rw [hsame] at hdeclares
    have hopened : r₂.outlines = r.outlines ++ [(name, (EntitySkeleton.bare name "class"
        none).declare (node.children.flatMap Element.rowProperties) [])] := by
      rw [Registry.outlines, hskeletons, List.map_append]
      rfl
    have hkept : ((EntitySkeleton.bare name "class" none).declare
        (node.children.flatMap Element.rowProperties) []).name = name := rfl
    have hall := outlines_of_opened hkept hnew hopened hdeclares
    rw [EntitySkeleton.declare_declare, List.nil_append] at hall
    rw [classOutlines, entityNameIn_of_entityNameOf hname]
    exact hall

/-- A bound top-level subclass is appended with the subclasses in its body. -/
theorem registers_bindTopSubclass (kind : SubclassKind) (scope : Scope) (node : Element) :
    Registers (bindTopSubclass kind scope node) (topSubclassOutlines scope.defaults kind node) where
  growing := growing_bindTopSubclass kind scope node
  outlines := by
    intro r u r' hkeyed h
    obtain ⟨superclass, r₁, hfound, hbound⟩ := run_bind_eq_ok.mp h
    obtain ⟨rfl, hname, hknown⟩ := of_run_superclassOf hfound
    have hextends : ((node.attribute? "extends").map scope.defaults.qualifyClass).getD ""
        = superclass := by
      rw [show (node.attribute? "extends").map scope.defaults.qualifyClass = some superclass
        from hname, Option.getD_some]
    rw [topSubclassOutlines, hextends]
    exact outlines_of_bindSubclass kind scope superclass node _ _ hkeyed hknown hbound

/-- Binding a document without an error registers exactly the entities of its outline. -/
theorem registers_bindRoot (root : Element) (metas : MetaMap) :
    Registers (bindRoot root metas) (documentOutlines root) := by
  -- The definitions come first and the queries last, and neither register an entity.
  have hbound : Registers (bindRoot root metas)
      ([] ++ ([] ++ ([] ++ ((root.childrenNamed "class").flatMap
        (classOutlines (.ofRoot root)) ++ (SubclassKind.all.flatMap (fun kind =>
          (root.childrenNamed kind.tag).flatMap (topSubclassOutlines (.ofRoot root) kind))
        ++ []))))) := by
    unfold bindRoot
    refine .bind (.of_aside (.modify fun r => .single (.defaults r _))) fun _ => ?_
    refine .bind (.of_aside (.forM (fun _ => (defines_bindFilterDefinition _).aside) _)) fun _ => ?_
    refine .bind (.of_aside (.forM (fun _ => (defines_bindTypeDefinition _).aside) _)) fun _ => ?_
    refine .bind (.forM (fun _ => registers_bindRootClass _ _) _) fun _ => ?_
    refine .bind (.forM (fun kind => .forM (fun _ => registers_bindTopSubclass kind _ _) _) _)
      fun _ => .of_aside ?_
    refine .bind (.forM (fun _ => (steady_bindNamedQuery _ _).aside) _) fun _ => ?_
    refine .bind (.forM (fun _ => (steady_bindNamedSqlQuery _ _ _).aside) _) fun _ => ?_
    refine .bind (.forM (fun _ => (steady_bindResultSet _ _ _).aside) _) fun _ => ?_
    refine .bind (.forM (fun _ => (steady_bindImport _ _).aside) _) fun _ => ?_
    exact .forM (fun _ => .modify fun r => .single (.auxiliaryObject r _)) _
  simpa only [documentOutlines, List.nil_append, List.append_nil] using hbound

end ObjectMapping
