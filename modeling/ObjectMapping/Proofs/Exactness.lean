import ObjectMapping.Proofs.Backrefs

/-!
# Backrefs are exact

When a session is ended well, the loop over the passes has run the pass of every collection
once, and entities showed no collection before.  So what entities show in the end is what the
collections say: each backref of each collection is there once, on the entity of its elements,
and the backrefs of an entity follow one another as their collections were registered.
-/

namespace ObjectMapping

open Binding Registry

/-! ## Counting backrefs -/

namespace Registry

/-- The number of properties over all entities that show the collection of a role by a backref
of a kind. -/
def countBackrefs (r : Registry) (kind : BackrefKind) (role : String) : Nat :=
  (r.entities.values.flatMap Entity.allProperties).countP fun p => p.face.shows kind role

/-- Backrefs are counted by their faces. -/
theorem countBackrefs_eq (r : Registry) (kind : BackrefKind) (role : String) :
    r.countBackrefs kind role = r.countFaces (·.shows kind role) := by
  have hfaces : (r.faces.flatMap fun k => k.2.all)
      = (r.entities.values.flatMap Entity.allProperties).map Property.face := by
    simp [faces, KeyedList.values, List.flatMap_map, List.map_flatMap, Entity.all_face]
  rw [countFaces, hfaces, List.countP_map]
  rfl

end Registry

/-- The collection whose contents a pass bound. -/
def Registry.collectionOf? (r : Registry) (queued : DeferredPass) : Option Collection :=
  queued.role?.bind r.collection?

/-- No face of a plain entity shows a collection. -/
theorem Entity.Plain.backref_eq_none {e : Entity} (h : e.Plain) {f : PropertyFace}
    (hf : f ∈ e.face.all) : f.backref = none := by
  rw [Entity.all_face] at hf
  obtain ⟨p, hp, rfl⟩ := List.mem_map.mp hf
  exact h p hp

namespace Session

/-- A later registry with the same faces, collections and definitions is accounted for as well. -/
theorem Accounted.congr {r r₁ r' : Registry} {log : List DeferredPass} (h : Accounted r log r₁)
    (hfaces : r'.faces = r₁.faces) (hcollections : r'.collections = r₁.collections)
    (hsame : SameDefinitions r₁ r') : Accounted r log r' := by
  have hcollection : r'.collection? = r₁.collection? := by
    funext role
    rw [Registry.collection?, Registry.collection?, hcollections]
  have hshown : r'.shownBy = r₁.shownBy := by
    funext pass
    cases pass with
    | contents kind pass => rw [Registry.shownBy, Registry.shownBy, hcollection]
    | propertyRef pass => rfl
  refine ⟨fun name => ?_, fun P => ?_, fun kind pass hpass => ?_⟩
  · rw [face?_congr hfaces, hshown]
    exact h.faces name
  · rw [countFaces_congr hfaces, hshown]
    exact h.counts P
  · obtain ⟨c, hfound, hbound, htargeted⟩ := h.bound kind pass hpass
    exact ⟨c, hcollection ▸ hfound, hbound.congr hsame, htargeted⟩

/-! ## Ended sessions -/

/-- The pass of a collection among those that were run. -/
structure PassOf (log : List DeferredPass) (c : Collection) (pass : CollectionPass) : Prop where
  mem : DeferredPass.contents c.kind.passKind pass ∈ log
  role : pass.role = c.role
  /-- The role of the collection ends in the name that the element of the pass declares. -/
  named : ∃ path, c.role = qualify path ((pass.node.attribute? "name").getD "")

/-- A session that was ended well, with the passes that its loop ran. -/
structure Finished (r : Registry) (log : List DeferredPass) (r' : Registry) : Prop where
  accounted : Accounted r log r'
  roles : log.filterMap DeferredPass.role? = r'.collections.keys
  /-- No entity showed a collection before. -/
  plain : ∀ k ∈ r.entities.entries, k.2.Plain

/-- An open session that is ended well has run its passes. -/
theorem Open.finished {options : RegistryOptions} {r r' : Registry} (h : Open options r)
    (hfinish : finish.run r = .ok () r') :
    ∃ log r₁, PassRun (processQueue.after r) log (.ok () r₁) ∧
      Finished (processQueue.after r) log r' := by
  obtain ⟨log, r₁, hlog, happlied⟩ := of_run_finish hfinish
  obtain ⟨hfaces, hcollections, -⟩ := applyPropertyReferences_frame happlied
  obtain ⟨horderly, hempty⟩ := hlog.orderly h.workedOff.orderly
  have haccounted := (hlog.accounted h.workedOff.orderly).1
  refine ⟨log, r₁, hlog, haccounted.congr hfaces hcollections
    (sameDefinitions_applyPropertyReferences happlied), ?_, h.workedOff.plain⟩
  rw [hcollections, horderly.enlisted, queuedRoles, hempty, List.filterMap_nil, List.append_nil,
    List.nil_append]

namespace Finished

variable {r r' : Registry} {log : List DeferredPass}

/-- No pass for contents was run twice. -/
theorem nodup_roles (h : Finished r log r') : (log.filterMap DeferredPass.role?).Nodup := by
  rw [h.roles]
  exact r'.collections.nodup_keys

/-- A pass for contents was that of a registered collection. -/
theorem collection_of_pass (h : Finished r log r') {kind : PassKind} {pass : CollectionPass}
    (hpass : DeferredPass.contents kind pass ∈ log) :
    ∃ c ∈ r'.collections.values, c.kind.passKind = kind ∧ PassOf log c pass := by
  obtain ⟨c, hfound, ⟨hrole, rfl, hname, -⟩, -⟩ := h.accounted.bound kind pass hpass
  exact ⟨c, List.mem_map_of_mem (f := Prod.snd) (KeyedList.get?_eq_some_iff.mp hfound), rfl,
    hpass, hrole, hname⟩

/-- Every collection had its pass, and is registered under its role. -/
theorem pass_of_collection (h : Finished r log r') {c : Collection}
    (hc : c ∈ r'.collections.values) :
    r'.collection? c.role = some c ∧ c.Targeted ∧ ∃ pass, PassOf log c pass := by
  obtain ⟨⟨role, c⟩, hentry, rfl⟩ := List.mem_map.mp hc
  have hkey : role ∈ r'.collections.keys := List.mem_map_of_mem (f := Prod.fst) hentry
  rw [← h.roles] at hkey
  obtain ⟨queued, hqueued, hrole⟩ := List.mem_filterMap.mp hkey
  cases queued with
  | propertyRef pass => cases hrole
  | contents kind pass =>
    cases hrole
    obtain ⟨c', hfound, ⟨hrole', rfl, hname, -⟩, htargeted⟩ := h.accounted.bound kind pass hqueued
    have hsame : some c' = some c :=
      hfound.symm.trans (KeyedList.get?_eq_some_iff.mpr hentry)
    cases hsame
    exact ⟨hrole' ▸ hfound, htargeted, pass, hqueued, hrole', hname⟩

/-- The contents of every collection are bound as its element reads in the end. -/
theorem reads (h : Finished r log r') {c : Collection} (hc : c ∈ r'.collections.values) :
    ∃ pass, PassOf log c pass ∧ r'.readContents c.kind.passKind pass.node = .ok c.reading := by
  obtain ⟨hfound, -, pass, hpass⟩ := h.pass_of_collection hc
  obtain ⟨c', hfound', hbound, -⟩ := h.accounted.bound _ _ hpass.mem
  rw [hpass.role, hfound] at hfound'
  cases hfound'
  exact ⟨pass, hpass, hbound.reads⟩

/-- Collections of one role are the same. -/
theorem eq_of_role (h : Finished r log r') {c c' : Collection} (hc : c ∈ r'.collections.values)
    (hc' : c' ∈ r'.collections.values) (hrole : c'.role = c.role) : c' = c := by
  have hfound := (h.pass_of_collection hc').1
  rw [hrole, (h.pass_of_collection hc).1] at hfound
  exact (Option.some.inj hfound).symm

/-- What a pass showed can be read off its collection. -/
theorem shownBy_eq (h : Finished r log r') {c : Collection} (hc : c ∈ r'.collections.values)
    {pass : CollectionPass} (hpass : PassOf log c pass) :
    r'.shownBy (.contents c.kind.passKind pass) = c.shown c.kind.passKind pass.node := by
  have hfound := (h.pass_of_collection hc).1
  rw [← hpass.role] at hfound
  simp [Registry.shownBy, hfound]

/-- The collections, in the order of their passes. -/
theorem values_eq (h : Finished r log r') :
    r'.collections.values = log.filterMap r'.collectionOf? := by
  rw [KeyedList.values_eq_filterMap, ← h.roles, List.filterMap_filterMap]
  rfl

/-- Whatever was shown is a backref of the collection of a pass. -/
theorem shownAs_of_mem (h : Finished r log r') {queued : DeferredPass} (hqueued : queued ∈ log)
    {s : String × Property} (hs : s ∈ r'.shownBy queued) :
    ∃ c ∈ r'.collections.values, ∃ pass, queued = .contents c.kind.passKind pass ∧
      PassOf log c pass ∧ ∃ kind, c.hasBackref kind = true ∧ c.ShownAs pass.node kind s.1 s.2 := by
  cases queued with
  | propertyRef pass => exact absurd hs List.not_mem_nil
  | contents kind pass =>
    obtain ⟨c, hc, rfl, hpass⟩ := h.collection_of_pass hqueued
    rw [h.shownBy_eq hc hpass] at hs
    obtain ⟨kind, hshown⟩ := Collection.mem_shown.mp hs
    have hbackref : c.hasBackref kind = true := by
      rw [← Collection.isSome_shown? c pass.node, hshown, Option.isSome_some]
    exact ⟨c, hc, pass, rfl, hpass, kind, hbackref,
      Collection.shownAs_of_shown? (h.pass_of_collection hc).2.1 hshown⟩

/-- The pass of a collection parts the log in two halves without a pass of that collection. -/
theorem exists_split (h : Finished r log r') {c : Collection} {pass : CollectionPass}
    (hpass : PassOf log c pass) :
    ∃ before after, log = before ++ .contents c.kind.passKind pass :: after ∧
      c.role ∉ before.filterMap DeferredPass.role? ∧
      c.role ∉ after.filterMap DeferredPass.role? := by
  obtain ⟨before, after, hsplit⟩ := List.append_of_mem hpass.mem
  have hrole : (DeferredPass.contents c.kind.passKind pass).role? = some c.role :=
    congrArg some hpass.role
  have hnodup := h.nodup_roles
  rw [hsplit, List.filterMap_append, List.filterMap_cons_some hrole, List.nodup_append,
    List.nodup_cons] at hnodup
  exact ⟨before, after, hsplit, fun hmem => hnodup.2.2 _ hmem _ List.mem_cons_self rfl,
    hnodup.2.1.1⟩

/-! ### Counts -/

/-- Passes of other collections show nothing of a collection. -/
theorem countP_other (h : Finished r log r') {part : List DeferredPass}
    (hpart : ∀ queued ∈ part, queued ∈ log) {role : String}
    (hrole : role ∉ part.filterMap DeferredPass.role?) (kind : BackrefKind) :
    ((part.flatMap r'.shownBy).map fun s => s.2.face).countP (·.shows kind role) = 0 := by
  rw [List.countP_eq_zero]
  intro f hf
  obtain ⟨s, hs, rfl⟩ := List.mem_map.mp hf
  obtain ⟨queued, hqueued, hs⟩ := List.mem_flatMap.mp hs
  obtain ⟨c, -, pass, rfl, hpass, shownKind, -, hshown⟩ := h.shownAs_of_mem (hpart _ hqueued) hs
  have hother : c.role ≠ role := by
    rintro rfl
    exact hrole (List.mem_filterMap.mpr ⟨_, hqueued, congrArg some hpass.role⟩)
  simp [PropertyFace.shows, Property.face, hshown.backref, hother]

/-- Every backref of a collection is there exactly once: it is counted by the pass of the
collection, and by no other, since no role had two passes. -/
theorem countBackrefs (h : Finished r log r') {c : Collection} (hc : c ∈ r'.collections.values)
    (kind : BackrefKind) :
    r'.countBackrefs kind c.role = if c.hasBackref kind then 1 else 0 := by
  obtain ⟨-, htargeted, pass, hpass⟩ := h.pass_of_collection hc
  have hplain : r.countFaces (·.shows kind c.role) = 0 := by
    rw [countFaces, List.countP_eq_zero]
    intro f hf
    obtain ⟨k, hk, hf⟩ := List.mem_flatMap.mp hf
    obtain ⟨e, he, rfl⟩ := List.mem_map.mp hk
    simp [PropertyFace.shows, (h.plain e he).backref_eq_none hf]
  obtain ⟨before, after, hsplit, hnotBefore, hnotAfter⟩ := h.exists_split hpass
  have hbefore : ((before.flatMap r'.shownBy).map fun s => s.2.face).countP
      (·.shows kind c.role) = 0 :=
    h.countP_other (fun queued hqueued => hsplit ▸ List.mem_append_left _ hqueued) hnotBefore kind
  have hafter : ((after.flatMap r'.shownBy).map fun s => s.2.face).countP
      (·.shows kind c.role) = 0 :=
    h.countP_other
      (fun queued hqueued => hsplit ▸ List.mem_append_right _ (List.mem_cons_of_mem _ hqueued))
      hnotAfter kind
  rw [countBackrefs_eq, h.accounted.counts, hplain, hsplit, List.flatMap_append, List.flatMap_cons,
    h.shownBy_eq hc hpass, List.map_append, List.map_append, List.countP_append,
    List.countP_append, hbefore, hafter, Collection.countP_shown htargeted]
  omega

/-! ### Entities -/

/-- The face of an entity in the end: what it declares, and what was shown on it. -/
theorem face_eq (h : Finished r log r') {target : String} {e : Entity}
    (he : r'.entity? target = some e) :
    ∃ e₀ : Entity, e₀.Plain ∧
      e.face = e₀.face.append (facesOn target (log.flatMap r'.shownBy)) := by
  have hface := h.accounted.faces target
  rw [face?, face?, he, Option.map_some] at hface
  obtain ⟨k, hk, happend⟩ := Option.map_eq_some_iff.mp hface.symm
  obtain ⟨e₀, he₀, rfl⟩ := Option.map_eq_some_iff.mp hk
  exact ⟨e₀, h.plain _ (KeyedList.get?_eq_some_iff.mp he₀), happend.symm⟩

/-- A backref of an entity shows one of the collections as the pass of that said. -/
theorem shownAs (h : Finished r log r') {target : String} {e : Entity}
    (he : r'.entity? target = some e) {p : Property} (hp : p ∈ e.allProperties) {b : Backref}
    (hb : p.backref = some b) :
    ∃ c ∈ r'.collections.values, ∃ pass, PassOf log c pass ∧
      c.ShownAs pass.node b.kind target p := by
  obtain ⟨e₀, hplain, hface⟩ := h.face_eq he
  have hmem : p.face ∈ e.face.all := by
    rw [Entity.all_face]
    exact List.mem_map_of_mem hp
  have hshown : p.face ∈ facesOn target (log.flatMap r'.shownBy) := by
    by_contra hnot
    have hdeclared : p.face ∈ e₀.face.all := by
      rw [hface, EntityFace.all, EntityFace.append] at hmem
      simp only [List.mem_append, hnot, or_false] at hmem
      exact List.mem_append.mpr hmem
    have hnone : p.backref = none := hplain.backref_eq_none hdeclared
    rw [hnone] at hb
    cases hb
  obtain ⟨s, hs, hsame⟩ := List.mem_map.mp hshown
  obtain ⟨hs, htarget⟩ := List.mem_filter.mp hs
  obtain ⟨queued, hqueued, hs⟩ := List.mem_flatMap.mp hs
  obtain ⟨c, hc, pass, -, hpass, kind, -, hshownAs⟩ := h.shownAs_of_mem hqueued hs
  have hp := hshownAs.congr hsame.symm
  have hkind : b = ⟨kind, c.role, c.ownerEntity⟩ := by
    have hboth := hb.symm.trans hp.backref
    cases hboth
    rfl
  rw [of_decide_eq_true htarget] at hp
  subst hkind
  exact ⟨c, hc, pass, hpass, hp⟩

/-- The backrefs of an entity are those that the collections say, collection by collection. -/
theorem backrefs_eq (h : Finished r log r') {target : String} {e : Entity}
    (he : r'.entity? target = some e) :
    e.allProperties.filterMap Property.backref
      = r'.collections.values.flatMap fun c => c.backrefsOn target := by
  obtain ⟨e₀, hplain, hface⟩ := h.face_eq he
  have hnone : ∀ fs : List PropertyFace, (∀ f ∈ fs, f ∈ e₀.face.all) →
      fs.filterMap PropertyFace.backref = [] := fun fs hfs =>
    List.filterMap_eq_nil_iff.mpr fun f hf => hplain.backref_eq_none (hfs f hf)
  have hvalues : r'.collections.values
      = log.flatMap fun queued => (r'.collectionOf? queued).toList := by
    rw [h.values_eq, List.filterMap_eq_flatMap_toList]
  have hfaces : e.allProperties.filterMap Property.backref
      = e.face.all.filterMap PropertyFace.backref := by
    rw [Entity.all_face, List.filterMap_map]
    rfl
  rw [hfaces, hface, EntityFace.all, EntityFace.append, List.filterMap_append,
    List.filterMap_append, hnone e₀.face.own fun f hf => List.mem_append_left _ hf,
    hnone e₀.face.joined fun f hf => List.mem_append_right _ hf, List.nil_append, List.append_nil,
    hvalues, List.flatMap_assoc, facesOn, List.filter_flatMap, List.map_flatMap,
    List.filterMap_flatMap]
  refine List.flatMap_congr fun queued hqueued => ?_
  cases queued with
  | propertyRef pass => rfl
  | contents kind pass =>
    obtain ⟨c, hc, rfl, hpass⟩ := h.collection_of_pass hqueued
    obtain ⟨hfound, htargeted, -⟩ := h.pass_of_collection hc
    rw [← hpass.role] at hfound
    have hshown := Collection.filterMap_facesOn_shown htargeted pass.node target
    rw [h.shownBy_eq hc hpass]
    simpa [collectionOf?, DeferredPass.role?, hfound, facesOn, Function.comp_def] using hshown

end Finished

/-! ## The theorem -/

/-- The entities of a registry show exactly what its collections say, where the passes of a log
were run. -/
structure ExactBackrefs (log : List DeferredPass) (r : Registry) : Prop where
  /-- A collection is shown once if it is to be shown, and not at all otherwise. -/
  counts : ∀ c ∈ r.collections.values, ∀ kind,
    r.countBackrefs kind c.role = if c.hasBackref kind then 1 else 0
  /-- A backref shows a collection on the entity of its elements, under the name that the
  collection was declared with. -/
  placed : ∀ target e, r.entity? target = some e → ∀ p ∈ e.allProperties, ∀ b,
    p.backref = some b → ∃ c ∈ r.collections.values, ∃ pass, PassOf log c pass ∧
      c.ShownAs pass.node b.kind target p
  /-- The backrefs of an entity are in the order in which their collections were registered. -/
  ordered : ∀ target e, r.entity? target = some e →
    e.allProperties.filterMap Property.backref
      = r.collections.values.flatMap fun c => c.backrefsOn target

/-- Once an open session is ended well, the entities show exactly what the collections say. -/
theorem backrefs_exact {options : RegistryOptions} {r r' : Registry} (h : Open options r)
    (hfinish : finish.run r = .ok () r') :
    ∃ log r₁, PassRun (processQueue.after r) log (.ok () r₁) ∧ ExactBackrefs log r' := by
  obtain ⟨log, r₁, hlog, hfinished⟩ := h.finished hfinish
  refine ⟨log, r₁, hlog, fun c hc kind => hfinished.countBackrefs hc kind, ?_, ?_⟩
  · intro target e he p hp b hb
    exact hfinished.shownAs he hp hb
  · intro target e he
    exact hfinished.backrefs_eq he

/-- An element for a collection of toys with a key that may not be null. -/
def toysElement (tag keyColumn : String) (index : List Element) : Element :=
  namedElement tag "toys" ([
    { name := "key"
      attributes := .ofList [("column", keyColumn), ("not-null", "true")] }]
    ++ index ++ [{ name := "one-to-many", attributes := .ofList [("class", "Toy")] }])

/-- A session with a person that has a list of toys, and a shop that has a set of them. -/
def toyShop : Registry :=
  (Call.add (documentOf [
    identifiedClass "Person"
      [toysElement "list" "person_id" [columnElement "list-index" "position"]],
    identifiedClass "Shop" [toysElement "set" "shop_id" []],
    identifiedClass "Toy" []]) .empty).run.after { options := {} }

/-- Both collections show their ownership, and the list shows its index. -/
theorem backrefs_exact_toyShop : Open {} toyShop ∧
    ∃ r', finish.run toyShop = .ok () r' ∧
      (∃ log r₁, PassRun (processQueue.after toyShop) log (.ok () r₁) ∧ ExactBackrefs log r') ∧
      (r'.collections.values.map fun c => (c.role, c.hasBackref .collection, c.hasBackref .index))
        = [("Person.toys", true, true), ("Shop.toys", true, false)] := by
  have hopen : Open {} toyShop := .call .start _ (fun hfinish => nomatch hfinish)
  obtain ⟨⟨⟩, hrun⟩ := exists_run_of_succeeds (m := finish) (r := toyShop) (by decide +kernel)
  exact ⟨hopen, _, hrun, backrefs_exact hopen hrun, by decide +kernel⟩

end Session

end ObjectMapping
