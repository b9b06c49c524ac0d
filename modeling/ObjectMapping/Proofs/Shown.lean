import ObjectMapping.Proofs.Enlistment

/-!
# What the passes show

A pass for the contents of a collection may add properties to one entity, that of the
collection's elements, and changes no other face.  Since the collection of a pass is not written
to again once the pass is run, what was added can be read off the collections in the end: the
faces of an entity are those that it declares itself, followed by those that the passes show on
it, in the order in which the passes were run.
-/

namespace ObjectMapping

open Binding Registry

namespace Collection

/-- The backrefs that a pass of a kind adds for a collection, with their entity. -/
def shown (c : Collection) (kind : PassKind) (node : Element) : List (String × Property) :=
  (c.backref? node .collection).toList ++ (c.indexBackref? kind node).toList

end Collection

/-- The faces of the properties that are shown on an entity. -/
def facesOn (target : String) (shown : List (String × Property)) : List PropertyFace :=
  (shown.filter fun s => s.1 = target).map fun s => s.2.face

theorem facesOn_append (target : String) (shown shown' : List (String × Property)) :
    facesOn target (shown ++ shown') = facesOn target shown ++ facesOn target shown' := by
  simp [facesOn]

namespace EntityFace

@[simp] theorem append_nil (k : EntityFace) : k.append [] = k := by
  simp [append]

@[simp] theorem append_append (k : EntityFace) (ps qs : List PropertyFace) :
    (k.append ps).append qs = k.append (ps ++ qs) := by
  simp [append]

end EntityFace

namespace Registry

/-! ## Faces of single entities -/

/-- The face of a registered entity. -/
def face? (r : Registry) (name : String) : Option EntityFace := (r.entity? name).map Entity.face

/-- The face of a registered entity is one of the faces of the registry. -/
theorem face?_eq_find? (r : Registry) (name : String) :
    r.face? name = (r.faces.find? fun k => k.1 = name).map Prod.snd := by
  simp only [face?, entity?, KeyedList.get?, faces, List.find?_map, Option.map_map]
  rfl

/-- Registries with the same faces have the same face for each entity. -/
theorem face?_congr {r r' : Registry} (h : r'.faces = r.faces) (name : String) :
    r'.face? name = r.face? name := by
  rw [face?_eq_find?, face?_eq_find?, h]

/-- A backref appears on its entity, after what was there, and nowhere else. -/
theorem face?_display (r : Registry) (shown : Option (String × Property)) (name : String) :
    (r.display shown).face? name
      = (r.face? name).map fun k => k.append (facesOn name shown.toList) := by
  cases shown with
  | none => simp [display, facesOn]
  | some s =>
    obtain ⟨target, p⟩ := s
    simp only [display, face?, entity?, modifyEntity, KeyedList.get?_modify, Option.map_map]
    congr 1
    funext e
    by_cases hname : name = target
    · simp [facesOn, hname, Entity.face_addProperty]
    · simp [facesOn, hname, Ne.symm hname]

/-! ## Counting faces -/

/-- How many properties over all entities have a face of a kind. -/
def countFaces (r : Registry) (P : PropertyFace → Bool) : Nat :=
  (r.faces.flatMap fun k => k.2.all).countP P

/-- Adding a face to one of the entities of a list adds one face to the list. -/
theorem countP_append_face {ks : List (String × EntityFace)} (hnodup : (ks.map Prod.fst).Nodup)
    {target : String} (hmem : target ∈ ks.map Prod.fst) (f : PropertyFace)
    (P : PropertyFace → Bool) :
    ((ks.map fun k => if k.1 = target then (k.1, k.2.append [f]) else k).flatMap
        fun k => k.2.all).countP P
      = (ks.flatMap fun k => k.2.all).countP P + [f].countP P := by
  induction ks with
  | nil => exact absurd hmem List.not_mem_nil
  | cons k ks ih =>
    rw [List.map_cons, List.nodup_cons] at hnodup
    rw [List.map_cons, List.flatMap_cons, List.flatMap_cons, List.countP_append, List.countP_append]
    by_cases hk : k.1 = target
    · have hrest : (ks.map fun k => if k.1 = target then (k.1, k.2.append [f]) else k) = ks := by
        conv_rhs => rw [← List.map_id ks]
        refine List.map_congr_left fun k' hk' => if_neg fun hsame => hnodup.1 ?_
        rw [hk, ← hsame]
        exact List.mem_map_of_mem hk'
      rw [hrest, if_pos hk]
      simp only [EntityFace.all, EntityFace.append, List.countP_append]
      omega
    · have hmem' : target ∈ ks.map Prod.fst := by
        rcases List.mem_cons.mp hmem with hsame | hrest
        · exact absurd hsame.symm hk
        · exact hrest
      rw [if_neg hk, ih hnodup.2 hmem']
      omega

/-- Registries with the same faces count the same. -/
theorem countFaces_congr {r r' : Registry} (h : r'.faces = r.faces) (P : PropertyFace → Bool) :
    r'.countFaces P = r.countFaces P := by
  rw [countFaces, countFaces, h]

/-- A backref that is added counts once. -/
theorem countFaces_display {r : Registry} {shown : Option (String × Property)}
    (h : r.Displays shown) (P : PropertyFace → Bool) :
    (r.display shown).countFaces P
      = r.countFaces P + (shown.toList.map fun s => s.2.face).countP P := by
  cases shown with
  | none => rfl
  | some s =>
    obtain ⟨target, p⟩ := s
    have hfaces : (r.display (some (target, p))).faces
        = r.faces.map fun k => if k.1 = target then (k.1, k.2.append [p.face]) else k := by
      simp only [display, faces, modifyEntity, KeyedList.modify, List.map_map]
      refine List.map_congr_left fun e _ => ?_
      by_cases he : e.1 = target <;> simp [he, Entity.face_addProperty]
    have hkeys : r.faces.map Prod.fst = r.entities.keys := by
      simp [faces, KeyedList.keys, Function.comp_def]
    have hregistered : target ∈ r.faces.map Prod.fst := by
      rw [hkeys]
      exact KeyedList.contains_iff.mp (h target p rfl)
    have hnodup : (r.faces.map Prod.fst).Nodup := by
      rw [hkeys]
      exact r.entities.nodup_keys
    rw [countFaces, hfaces, countP_append_face hnodup hregistered]
    rfl

/-! ## Collections that stay -/

/-- Preparation leaves the collections alone that are registered. -/
theorem Preparations.collection? {r r' : Registry} (h : Preparations r r') {role : String}
    {c : Collection} (hfound : r.collection? role = some c) : r'.collection? role = some c := by
  induction h with
  | refl => exact hfound
  | tail _ hstep ih =>
    cases hstep with
    | quiet hquiet =>
      rw [Registry.collection?, hquiet.alike.collections]
      exact ih
    | collection hadd => exact collection?_of_addCollection_of_some hadd ih
    | propertyRef => exact ih
    | mark => exact ih

/-- Taking a pass off the queue changes neither a face nor a collection nor a definition. -/
theorem nextPass_frame {r rest : Registry} {pass : DeferredPass}
    (h : r.nextPass? = some (pass, rest)) :
    rest.faces = r.faces ∧ rest.collections = r.collections ∧ SameDefinitions r rest := by
  obtain ⟨passes, -, rfl⟩ := nextPass?_eq_some_iff.mp h
  exact ⟨rfl, rfl, rfl, rfl⟩

/-- The backrefs that a pass adds, going by the collection that it left behind. -/
def shownBy (r : Registry) : DeferredPass → List (String × Property)
  | .contents kind pass =>
    ((r.collection? pass.role).map fun c => c.shown kind pass.node).getD []
  | .propertyRef _ => []

end Registry

/-! ## Single passes -/

/-- What a pass for contents does to faces and collections. -/
structure PassEffect (kind : PassKind) (pass : CollectionPass) (c : Collection)
    (r r' : Registry) : Prop where
  faces : ∀ name, r'.face? name
    = (r.face? name).map fun k => k.append (facesOn name (c.shown kind pass.node))
  counts : ∀ P, r'.countFaces P
    = r.countFaces P + ((c.shown kind pass.node).map fun s => s.2.face).countP P
  /-- The collection is written back under the role of the pass. -/
  stored : r'.collection? pass.role = some c
  /-- The other collections stay as they are. -/
  kept : ∀ role c', role ≠ pass.role → r.collection? role = some c' →
    r'.collection? role = some c'
  targeted : c.Targeted

/-- A pass for contents shows what its collection says, and writes that collection back. -/
theorem ContentsRun.effect {kind : PassKind} {pass : CollectionPass} {c : Collection}
    {r r' : Registry} (h : ContentsRun kind pass c r r') (hrole : c.role = pass.role) :
    PassEffect kind pass c r r' := by
  cases h with
  | @intro r₁ r₂ c₀ hfound hdeclared hsettled hcontents hshown hindex hindexShown hcompleted =>
    have hcollection : ∀ role c', r.collection? role = some c' →
        (r₂.display (c.indexBackref? kind pass.node)).collection? role = some c' := by
      intro role c' hc'
      rw [Registry.collection?, collections_display]
      refine hindex.collection? ?_
      rw [Registry.collection?, collections_display]
      exact hcontents.collection? hc'
    refine ⟨fun name => ?_, fun P => ?_, ?_, fun role c' hother hc' => ?_, hsettled.targeted⟩
    · have hlast : ∀ r : Registry,
          (r.modifyCollection c.role fun _ => c).face? name = r.face? name := fun _ => rfl
      rw [hlast, face?_display, face?_congr hindex.faces, face?_display,
        face?_congr hcontents.faces, Option.map_map]
      congr 1
      funext k
      simp [Collection.shown, facesOn_append]
    · have hlast : ∀ r : Registry,
          (r.modifyCollection c.role fun _ => c).countFaces P = r.countFaces P := fun _ => rfl
      rw [hlast, countFaces_display hindexShown, countFaces_congr hindex.faces,
        countFaces_display hshown, countFaces_congr hcontents.faces, Collection.shown,
        List.map_append, List.countP_append, Nat.add_assoc]
    · rw [collection?_modifyCollection, hrole, hcollection _ _ hfound, Option.map_some, if_pos rfl]
    · rw [collection?_modifyCollection, hrole, hcollection _ _ hc', Option.map_some, if_neg hother]

/-! ## The loop -/

namespace Session

/-- What the loop over the passes has done when it ends well. -/
structure Accounted (r : Registry) (log : List DeferredPass) (r' : Registry) : Prop where
  /-- Every entity shows what it declared and what the passes added, in the order of the log. -/
  faces : ∀ name, r'.face? name
    = (r.face? name).map fun k => k.append (facesOn name (log.flatMap r'.shownBy))
  counts : ∀ P, r'.countFaces P
    = r.countFaces P + ((log.flatMap r'.shownBy).map fun s => s.2.face).countP P
  /-- Every pass for contents left its collection behind. -/
  bound : ∀ kind pass, DeferredPass.contents kind pass ∈ log →
    ∃ c, r'.collection? pass.role = some c ∧ c.BoundBy kind pass r' ∧ c.Targeted

namespace Accounted

variable {r r₀ r₁ r' : Registry} {log : List DeferredPass}

/-- Only the faces matter of the registry before the loop. -/
theorem of_faces (h : Accounted r log r') (hfaces : r.faces = r₀.faces) :
    Accounted r₀ log r' where
  faces name := by rw [h.faces, face?_congr hfaces]
  counts P := by rw [h.counts, countFaces_congr hfaces]
  bound := h.bound

/-- A foreign key that was put off shows nothing. -/
theorem propertyRef (h : Accounted r log r') (pass : PropertyRefPass) :
    Accounted r (.propertyRef pass :: log) r' where
  faces := h.faces
  counts := h.counts
  bound kind contents hmem := by
    rcases List.mem_cons.mp hmem with hfirst | hlater
    · cases hfirst
    · exact h.bound kind contents hlater

/-- A pass for contents shows what its collection says, if that collection stays as the pass
left it. -/
theorem contents (h : Accounted r₁ log r') {kind : PassKind} {pass : CollectionPass}
    {c : Collection} (heffect : PassEffect kind pass c r r₁)
    (hstored : r'.collection? pass.role = some c) (hbound : c.BoundBy kind pass r') :
    Accounted r (.contents kind pass :: log) r' := by
  have hshown : r'.shownBy (.contents kind pass) = c.shown kind pass.node := by
    simp [Registry.shownBy, hstored]
  refine ⟨fun name => ?_, fun P => ?_, fun kind' contents' hmem => ?_⟩
  · rw [h.faces, heffect.faces, Option.map_map, List.flatMap_cons, hshown]
    congr 1
    funext k
    simp [facesOn_append]
  · rw [h.counts, heffect.counts, List.flatMap_cons, hshown, List.map_append, List.countP_append,
      Nat.add_assoc]
  · rcases List.mem_cons.mp hmem with hfirst | hlater
    · cases hfirst
      exact ⟨c, hstored, hbound, heffect.targeted⟩
    · exact h.bound kind' contents' hlater

end Accounted

/-- The loop accounts for every face, and leaves the definitions alone, and the collections whose
passes were run before it.  By induction along the loop: the first pass leaves its collection
behind for good. -/
theorem PassRun.accounted {done : List String} {r r' : Registry} {log : List DeferredPass}
    (h : PassRun r log (.ok () r')) (hr : Orderly done r) :
    Accounted r log r' ∧ SameDefinitions r r' ∧
      ∀ role ∈ done, ∀ c, r.collection? role = some c → r'.collection? role = some c := by
  induction h using PassRun.inductionOn_ok generalizing done with
  | done hnext =>
    refine ⟨⟨fun name => ?_, fun P => rfl, fun _ _ hpass => absurd hpass List.not_mem_nil⟩,
      .refl _, fun _ _ _ hc => hc⟩
    simp [facesOn]
  | @step r rest r₁ pass log hnext hrun hrest ih =>
    obtain ⟨htail, hlater, hkept⟩ := ih (hr.run hnext hrun)
    obtain ⟨hfaces, hcollections, hdefinitions⟩ := nextPass_frame hnext
    cases pass with
    | propertyRef pass =>
      have halike := (quiet_bindPropertyRef pass).alike_of_ok hrun
      have hsame := Preparations.sameDefinitions
        ((quiet_bindPropertyRef pass).prepares.of_ok hrun)
      refine ⟨(htail.of_faces (halike.faces.trans hfaces)).propertyRef pass,
        (hdefinitions.trans hsame).trans hlater, fun role hrole c hc => ?_⟩
      refine hkept role (List.mem_append_left _ hrole) c ?_
      rw [Registry.collection?, halike.collections, hcollections]
      exact hc
    | contents kind pass =>
      obtain ⟨c, hcontents⟩ := contentsRun_of_ok hrun
      have hbound := hr.boundBy_of_contentsRun hnext hcontents
      have heffect := hcontents.effect hbound.role.symm
      have hstored : r'.collection? pass.role = some c :=
        hkept pass.role (by simp [DeferredPass.role?]) c heffect.stored
      refine ⟨(htail.contents heffect hstored (hbound.congr hlater)).of_faces hfaces,
        (hdefinitions.trans hcontents.sameDefinitions).trans hlater, fun role hdone c' hc' => ?_⟩
      refine hkept role (List.mem_append_left _ hdone) c' (heffect.kept role c' ?_ ?_)
      · rintro rfl
        exact hr.not_mem_done hnext hdone
      · rw [Registry.collection?, hcollections]
        exact hc'

end Session

end ObjectMapping
