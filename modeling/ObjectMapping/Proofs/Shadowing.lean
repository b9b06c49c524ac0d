import ObjectMapping.Proofs.Exactness

/-!
# Backrefs of one name

The name of a backref tells the name of its collection, but not the owner of that.  So two
collections of one name give their elements two backrefs of one name if they have elements of
the same entity, and a lookup by name finds the first of the two.  The properties that the
entity declares itself come before all backrefs, and those of its joins after them.  So the
lookup finds the backref of a collection exactly if the entity declares no property of the same
name outside its joins, and no collection that was registered earlier is shown under that name.
-/

namespace ObjectMapping

open Binding Registry

/-- An entity declares a property of a name itself, outside its joins. -/
def Entity.Declares (e : Entity) (name : String) : Prop :=
  ∃ q ∈ e.properties, q.backref = none ∧ q.name = name

/-- A lookup by name can be told from the faces. -/
theorem Entity.face_property? (e : Entity) (name : String) :
    (e.property? name).map Property.face = e.face.all.find? fun f => f.name = name := by
  rw [Entity.all_face, List.find?_map]
  rfl

/-- What is found up to a match, or else the match. -/
theorem find?_append_match {α : Type} {q : α → Bool} {a : α} (h : q a = true)
    (before after : List α) :
    (before ++ a :: after).find? q = some ((before.find? q).getD a) := by
  rw [List.find?_append, List.find?_cons_of_pos h]
  cases before.find? q <;> rfl

/-- The faces that are shown on an entity. -/
theorem mem_facesOn {target : String} {shown : List (String × Property)} {f : PropertyFace} :
    f ∈ facesOn target shown ↔ ∃ s ∈ shown, s.1 = target ∧ s.2.face = f := by
  simp [facesOn, and_assoc]

/-- Of the faces of a name, the first shows a collection if it is the one that does, and no other
face of that name comes before it. -/
theorem backref_getD_find?_iff {fs : List PropertyFace} {f : PropertyFace} {role name : String}
    (hf : f.backref.map Backref.collectionRole = some role)
    (hfs : ∀ g ∈ fs, g.backref.map Backref.collectionRole ≠ some role) :
    ((fs.find? fun g => g.name = name).getD f).backref.map Backref.collectionRole = some role ↔
      ∀ g ∈ fs, g.name ≠ name := by
  cases hfind : fs.find? fun g => g.name = name with
  | none =>
    have hnone : ∀ g ∈ fs, g.name ≠ name := fun g hg hsame =>
      List.find?_eq_none.mp hfind g hg (decide_eq_true hsame)
    exact iff_of_true hf hnone
  | some g =>
    have hg := List.mem_of_find?_eq_some hfind
    have hsame : g.name = name := by simpa using List.find?_some hfind
    exact iff_of_false (hfs g hg) fun hnone => hnone g hg hsame

namespace Session

/-- A collection is shown on an entity under a name, by a backref of whichever kind. -/
def ShownUnder (log : List DeferredPass) (c : Collection) (target name : String) : Prop :=
  c.target? = some target ∧ ∃ kind pass, c.hasBackref kind = true ∧ PassOf log c pass ∧
    backrefName kind (c.declaredName pass.node) = name

namespace Finished

variable {r r' : Registry} {log : List DeferredPass}

/-- A collection had one pass only. -/
theorem passOf_unique (h : Finished r log r') {c : Collection} {pass pass' : CollectionPass}
    (hpass : PassOf log c pass) (hpass' : PassOf log c pass') : pass' = pass := by
  obtain ⟨before, after, hsplit, hnotBefore, hnotAfter⟩ := h.exists_split hpass
  have hrole : (DeferredPass.contents c.kind.passKind pass').role? = some c.role :=
    congrArg some hpass'.role
  have hmem := hpass'.mem
  rw [hsplit] at hmem
  rcases List.mem_append.mp hmem with hbefore | hrest
  · exact absurd (List.mem_filterMap.mpr ⟨_, hbefore, hrole⟩) hnotBefore
  · rcases List.mem_cons.mp hrest with hsame | hafter
    · cases hsame
      rfl
    · exact absurd (List.mem_filterMap.mpr ⟨_, hafter, hrole⟩) hnotAfter

/-- The collections of some of the passes had these passes. -/
theorem pass_of_mem_filterMap (h : Finished r log r') {part : List DeferredPass}
    (hpart : ∀ queued ∈ part, queued ∈ log) {c : Collection}
    (hc : c ∈ part.filterMap r'.collectionOf?) :
    c ∈ r'.collections.values ∧
      ∃ pass, DeferredPass.contents c.kind.passKind pass ∈ part ∧ PassOf log c pass := by
  obtain ⟨queued, hqueued, hfound⟩ := List.mem_filterMap.mp hc
  cases queued with
  | propertyRef pass => cases hfound
  | contents kind pass =>
    obtain ⟨c', hc', rfl, hpass⟩ := h.collection_of_pass (hpart _ hqueued)
    have hregistered := (h.pass_of_collection hc').1
    rw [← hpass.role] at hregistered
    have hsame : some c' = some c := hregistered.symm.trans hfound
    cases hsame
    exact ⟨hc', pass, hqueued, hpass⟩

/-- Some of the passes show a name on an entity if the collection of one of them is shown under
that name. -/
theorem exists_face_iff (h : Finished r log r') {part : List DeferredPass}
    (hpart : ∀ queued ∈ part, queued ∈ log) (target name : String) :
    (∃ f ∈ facesOn target (part.flatMap r'.shownBy), f.name = name) ↔
      ∃ c ∈ part.filterMap r'.collectionOf?,
        ShownUnder log c target name := by
  constructor
  · rintro ⟨f, hf, rfl⟩
    obtain ⟨s, hs, rfl, rfl⟩ := mem_facesOn.mp hf
    obtain ⟨queued, hqueued, hs⟩ := List.mem_flatMap.mp hs
    obtain ⟨c, hc, pass, rfl, hpass, kind, hbackref, hshown⟩ :=
      h.shownAs_of_mem (hpart _ hqueued) hs
    have hregistered := (h.pass_of_collection hc).1
    rw [← hpass.role] at hregistered
    exact ⟨c, List.mem_filterMap.mpr ⟨_, hqueued, hregistered⟩, hshown.target, kind, pass,
      hbackref, hpass, hshown.name.symm⟩
  · rintro ⟨c, hc, htarget, kind, pass, hbackref, hpass, rfl⟩
    obtain ⟨hc, pass', hqueued, hpass'⟩ := h.pass_of_mem_filterMap hpart hc
    cases h.passOf_unique hpass hpass'
    rw [← Collection.isSome_shown? c pass.node] at hbackref
    obtain ⟨s, hs⟩ := Option.isSome_iff_exists.mp hbackref
    have hshown := Collection.shownAs_of_shown? (h.pass_of_collection hc).2.1 hs
    have hentity : s.1 = target := Option.some.inj (hshown.target.symm.trans htarget)
    refine ⟨s.2.face, mem_facesOn.mpr ⟨s, ?_, hentity, rfl⟩, hshown.name⟩
    refine List.mem_flatMap.mpr ⟨_, hqueued, ?_⟩
    rw [h.shownBy_eq hc hpass]
    exact Collection.mem_shown.mpr ⟨kind, hs⟩

/-- The entity of the elements of a collection that is shown is registered. -/
theorem exists_target (h : Finished r log r') {c : Collection} (hc : c ∈ r'.collections.values)
    (howns : c.ownsElements = true) {target : String} (htarget : c.target? = some target) :
    ∃ e, r'.entity? target = some e := by
  have hcount := h.countBackrefs hc .collection
  rw [Collection.hasBackref, if_pos howns, Registry.countBackrefs] at hcount
  obtain ⟨p, hp, hshows⟩ := List.countP_pos_iff.mp (Nat.lt_of_lt_of_eq Nat.one_pos hcount.symm)
  obtain ⟨e, he, hp⟩ := List.mem_flatMap.mp hp
  obtain ⟨⟨name, e⟩, hentry, rfl⟩ := List.mem_map.mp he
  have hfound : r'.entity? name = some e := KeyedList.get?_eq_some_iff.mpr hentry
  obtain ⟨b, hb, hrole⟩ := (Option.any_eq_true _ _).mp hshows
  obtain ⟨c', hc', pass, -, hshown⟩ := h.shownAs hfound hp hb
  have hrole' : b.collectionRole = c'.role :=
    congrArg Backref.collectionRole (Option.some.inj (hb.symm.trans hshown.backref))
  cases h.eq_of_role hc hc' (hrole'.symm.trans (by simpa using (Bool.and_eq_true_iff.mp hrole).2))
  have hentity : name = target := Option.some.inj (hshown.target.symm.trans htarget)
  exact ⟨e, hentity ▸ hfound⟩

/-- The collections that were registered before a collection are those of the passes before its
pass. -/
theorem earlier_eq (h : Finished r log r') {earlier later : List Collection} {c : Collection}
    (hvalues : r'.collections.values = earlier ++ c :: later) {before after : List DeferredPass}
    {pass : CollectionPass} (hpass : PassOf log c pass)
    (hsplit : log = before ++ .contents c.kind.passKind pass :: after)
    (hbefore : c.role ∉ before.filterMap DeferredPass.role?)
    (hafter : c.role ∉ after.filterMap DeferredPass.role?) :
    before.filterMap r'.collectionOf? = earlier := by
  have hc : c ∈ r'.collections.values := by
    rw [hvalues]
    exact List.mem_append_right _ List.mem_cons_self
  have hfound : r'.collectionOf? (.contents c.kind.passKind pass) = some c := by
    have hregistered := (h.pass_of_collection hc).1
    rwa [← hpass.role] at hregistered
  have hnot : ∀ part : List DeferredPass, (∀ queued ∈ part, queued ∈ log) →
      c.role ∉ part.filterMap DeferredPass.role? →
      c ∉ part.filterMap r'.collectionOf? := by
    intro part hpart hrole hmem
    obtain ⟨-, pass', hqueued, hpass'⟩ := h.pass_of_mem_filterMap hpart hmem
    exact hrole (List.mem_filterMap.mpr ⟨_, hqueued, congrArg some hpass'.role⟩)
  rw [h.values_eq, hsplit, List.filterMap_append, List.filterMap_cons_some hfound,
    List.append_cons_inj_of_notMem] at hvalues
  · exact hvalues.1
  · exact hnot before (fun queued hqueued => hsplit ▸ List.mem_append_left _ hqueued) hbefore
  · exact hnot after
      (fun queued hqueued => hsplit ▸ List.mem_append_right _ (List.mem_cons_of_mem _ hqueued))
      hafter

/-- What an entity declares itself is what it had before the passes. -/
theorem declares_iff (h : Finished r log r') {target : String} {e e₀ : Entity}
    (hplain : e₀.Plain) (hface : e.face = e₀.face.append (facesOn target (log.flatMap r'.shownBy)))
    (name : String) : e.Declares name ↔ ∃ f ∈ e₀.face.own, f.name = name := by
  have hown : e.properties.map Property.face
      = e₀.face.own ++ facesOn target (log.flatMap r'.shownBy) := congrArg EntityFace.own hface
  constructor
  · rintro ⟨q, hq, hnone, rfl⟩
    have hmem : q.face ∈ e.properties.map Property.face := List.mem_map_of_mem hq
    rw [hown] at hmem
    rcases List.mem_append.mp hmem with hdeclared | hshown
    · exact ⟨q.face, hdeclared, rfl⟩
    · obtain ⟨s, hs, -, hsame⟩ := mem_facesOn.mp hshown
      obtain ⟨queued, hqueued, hs⟩ := List.mem_flatMap.mp hs
      obtain ⟨c, -, pass, -, -, kind, -, hshownAs⟩ := h.shownAs_of_mem hqueued hs
      have hsome := (hshownAs.congr hsame.symm).backref
      rw [hnone] at hsome
      cases hsome
  · rintro ⟨f, hf, rfl⟩
    have hmem : f ∈ e.properties.map Property.face := hown ▸ List.mem_append_left _ hf
    obtain ⟨q, hq, rfl⟩ := List.mem_map.mp hmem
    exact ⟨q, hq, hplain.backref_eq_none (List.mem_append_left _ hf), rfl⟩

/-- What stands before the backref of a collection among the faces of its entity is what the
entity declares itself, and what the passes before that of the collection show. -/
theorem exists_parted_faces (h : Finished r log r') {c : Collection}
    (hc : c ∈ r'.collections.values) (howns : c.ownsElements = true) {target : String}
    (htarget : c.target? = some target) {pass : CollectionPass} (hpass : PassOf log c pass)
    {before after : List DeferredPass}
    (hsplit : log = before ++ .contents c.kind.passKind pass :: after) {e e₀ : Entity}
    (hface : e.face = e₀.face.append (facesOn target (log.flatMap r'.shownBy))) :
    ∃ f rest, f.backref = some ⟨.collection, c.role, c.ownerEntity⟩ ∧
      f.name = backrefName .collection (c.declaredName pass.node) ∧
      e.face.all
        = (e₀.face.own ++ facesOn target (before.flatMap r'.shownBy)) ++ f :: rest := by
  obtain ⟨-, htargeted, -⟩ := h.pass_of_collection hc
  obtain ⟨s, hs⟩ : ∃ s, c.shown? pass.node .collection = some s := by
    rw [← Option.isSome_iff_exists, Collection.isSome_shown?]
    exact howns
  have hshown := Collection.shownAs_of_shown? htargeted hs
  have hentity : s.1 = target := Option.some.inj (hshown.target.symm.trans htarget)
  refine ⟨s.2.face, facesOn target (c.shown? pass.node .index).toList ++
    facesOn target (after.flatMap r'.shownBy) ++ e₀.face.joined, hshown.backref, hshown.name, ?_⟩
  rw [hface, hsplit, List.flatMap_append, List.flatMap_cons, h.shownBy_eq hc hpass,
    Collection.shown_eq, hs]
  simp [EntityFace.all, EntityFace.append, facesOn, hentity]

/-- The lookup finds the ownership of a collection exactly if neither the entity itself nor an
earlier collection has a property of that name.  The log is parted at the pass of the
collection, and so are the faces of the entity. -/
theorem lookup_iff (h : Finished r log r') {earlier later : List Collection}
    {c : Collection} (hvalues : r'.collections.values = earlier ++ c :: later)
    (howns : c.ownsElements = true) {target : String} (htarget : c.target? = some target)
    {pass : CollectionPass} (hpass : PassOf log c pass) {e : Entity}
    (he : r'.entity? target = some e) {name : String}
    (hname : backrefName .collection (c.declaredName pass.node) = name) :
    ∃ p, e.property? name = some p ∧
      (p.backref.map Backref.collectionRole = some c.role ↔
        ¬ e.Declares name ∧ ∀ c' ∈ earlier, ¬ ShownUnder log c' target name) := by
  have hc : c ∈ r'.collections.values := by
    rw [hvalues]
    exact List.mem_append_right _ List.mem_cons_self
  obtain ⟨e₀, hplain, hface⟩ := h.face_eq he
  obtain ⟨before, after, hsplit, hnotBefore, hnotAfter⟩ := h.exists_split hpass
  have hpart : ∀ queued ∈ before, queued ∈ log := fun queued hqueued =>
    hsplit ▸ List.mem_append_left _ hqueued
  obtain ⟨f, rest, hbackref, hfname, hall⟩ :=
    h.exists_parted_faces hc howns htarget hpass hsplit hface
  have hlookup := e.face_property? name
  rw [hall, find?_append_match (q := fun f : PropertyFace => f.name = name)
    (decide_eq_true (hfname.trans hname))] at hlookup
  obtain ⟨p, hp, hpface⟩ := Option.map_eq_some_iff.mp hlookup
  -- What stands before the backref shows other collections, or none at all.
  have hothers : ∀ g ∈ e₀.face.own ++ facesOn target (before.flatMap r'.shownBy),
      g.backref.map Backref.collectionRole ≠ some c.role := by
    intro g hg
    rcases List.mem_append.mp hg with hdeclared | hearlier
    · simp [hplain.backref_eq_none (List.mem_append_left _ hdeclared)]
    · obtain ⟨s, hs, -, rfl⟩ := mem_facesOn.mp hearlier
      obtain ⟨queued, hqueued, hs⟩ := List.mem_flatMap.mp hs
      obtain ⟨c', -, pass', rfl, hpass', kind, -, hshown⟩ := h.shownAs_of_mem (hpart _ hqueued) hs
      have hother : c'.role ≠ c.role := fun hrole =>
        hnotBefore (List.mem_filterMap.mpr ⟨_, hqueued, congrArg some (hpass'.role.trans hrole)⟩)
      simp [Property.face, hshown.backref, hother]
  refine ⟨p, hp, ?_⟩
  have hpbackref : p.backref = p.face.backref := rfl
  rw [h.declares_iff hplain hface, ← h.earlier_eq hvalues hpass hsplit hnotBefore hnotAfter,
    hpbackref, hpface, backref_getD_find?_iff (by simp [hbackref]) hothers, List.forall_mem_append]
  refine and_congr (by simp) ?_
  have hearlier := not_congr (h.exists_face_iff hpart target name)
  simpa using hearlier

end Finished

/-! ## The theorem -/

/-- Once an open session is ended well, every collection whose ownership is shown is shown on a
registered entity, and a lookup of the name of that backref finds a property there.  It is the
backref of the collection exactly if the entity itself declares no property of that name outside
its joins, and no collection that was registered earlier is shown under that name. -/
theorem ownership_found_iff {options : RegistryOptions} {r r' : Registry} (h : Open options r)
    (hfinish : finish.run r = .ok () r') :
    ∃ log r₁, PassRun (processQueue.after r) log (.ok () r₁) ∧
      ∀ earlier c later, r'.collections.values = earlier ++ c :: later →
        c.ownsElements = true → ∀ target, c.target? = some target →
        ∀ pass, PassOf log c pass → ∀ name,
          backrefName .collection (c.declaredName pass.node) = name →
          ∃ e p, r'.entity? target = some e ∧ e.property? name = some p ∧
            (p.backref.map Backref.collectionRole = some c.role ↔
              ¬ e.Declares name ∧ ∀ c' ∈ earlier, ¬ ShownUnder log c' target name) := by
  obtain ⟨log, r₁, hlog, hfinished⟩ := h.finished hfinish
  refine ⟨log, r₁, hlog, ?_⟩
  intro earlier c later hvalues howns target htarget pass hpass name hname
  have hc : c ∈ r'.collections.values := by
    rw [hvalues]
    exact List.mem_append_right _ List.mem_cons_self
  obtain ⟨e, he⟩ := hfinished.exists_target hc howns htarget
  obtain ⟨p, hp, hiff⟩ := hfinished.lookup_iff hvalues howns htarget hpass he hname
  exact ⟨e, p, he, hp, hiff⟩

/-- The toys of a shop are shown under the same name as those of a person, which come first. -/
theorem ownership_found_iff_toyShop : Open {} toyShop ∧
    ∃ r', finish.run toyShop = .ok () r' ∧
      (r'.collections.values.map fun c => (c.role, c.ownsElements, c.target?))
        = [("Person.toys", true, some "Toy"), ("Shop.toys", true, some "Toy")] ∧
      ∃ log r₁, PassRun (processQueue.after toyShop) log (.ok () r₁) ∧
        ∀ earlier c later, r'.collections.values = earlier ++ c :: later →
          c.ownsElements = true → ∀ target, c.target? = some target →
          ∀ pass, PassOf log c pass → ∀ name,
            backrefName .collection (c.declaredName pass.node) = name →
            ∃ e p, r'.entity? target = some e ∧ e.property? name = some p ∧
              (p.backref.map Backref.collectionRole = some c.role ↔
                ¬ e.Declares name ∧ ∀ c' ∈ earlier, ¬ ShownUnder log c' target name) := by
  have hopen : Open {} toyShop := .call .start _ (fun hfinish => nomatch hfinish)
  obtain ⟨⟨⟩, hrun⟩ := exists_run_of_succeeds (m := finish) (r := toyShop) (by decide +kernel)
  exact ⟨hopen, _, hrun, by decide +kernel, ownership_found_iff hopen hrun⟩

/-- A lookup of the name of a collection's backref need not find the backref of that collection:
for the toys of the shop it finds the backref of the toys of the person. -/
theorem ownership_shadowed : ¬ ∀ (options : RegistryOptions) (r r' : Registry), Open options r →
    finish.run r = .ok () r' →
    ∀ log r₁, PassRun (processQueue.after r) log (.ok () r₁) →
      ∀ c ∈ r'.collections.values, c.ownsElements = true →
      ∀ target, c.target? = some target → ∀ pass, PassOf log c pass →
        ∃ e p, r'.entity? target = some e ∧
          e.property? (backrefName .collection (c.declaredName pass.node)) = some p ∧
          p.backref.map Backref.collectionRole = some c.role := by
  intro hclaim
  have hopen : Open {} toyShop := .call .start _ (fun hfinish => nomatch hfinish)
  obtain ⟨⟨⟩, hrun⟩ := exists_run_of_succeeds (m := finish) (r := toyShop) (by decide +kernel)
  obtain ⟨log, r₁, hlog, hfinished⟩ := hopen.finished hrun
  obtain ⟨c, hc, hrole, howns, htarget⟩ : ∃ c ∈ (finish.after toyShop).collections.values,
      c.role = "Shop.toys" ∧ c.ownsElements = true ∧ c.target? = some "Toy" := by
    decide +kernel
  obtain ⟨-, -, pass, hpass⟩ := hfinished.pass_of_collection hc
  obtain ⟨e, p, he, hp, hfound⟩ :=
    hclaim _ _ _ hopen hrun log r₁ hlog c hc howns "Toy" htarget pass hpass
  -- Whatever name a property of toys has, the lookup of that name never finds the shop's.
  have hnever : ∀ e ∈ (finish.after toyShop).entity? "Toy", ∀ p ∈ e.allProperties,
      (e.property? p.name).all fun q =>
        q.backref.map Backref.collectionRole ≠ some "Shop.toys" := by
    decide +kernel
  have hname : p.name = backrefName .collection (c.declaredName pass.node) := by
    simpa using List.find?_some hp
  have hnot := hnever e he p (List.mem_of_find?_eq_some hp)
  rw [hname, hp, Option.all_some, decide_eq_true_eq, hfound, hrole] at hnot
  exact hnot rfl

end Session

end ObjectMapping
