import ObjectMapping.Proofs.Exactness
import ObjectMapping.Proofs.SessionGrounding
import ObjectMapping.Proofs.SessionTracing

/-!
# Collections are resolved

When its contents are bound, a collection is completed as its kind requires, and if its elements
are entities that hold the key themselves, it is settled in the table of their entity.  Entities
keep their names and tables from then on, so it stays settled.  When a session is ended well, the
contents of every collection have been bound: `Collection.ResolvedIn` lists what is known of each.
-/

namespace ObjectMapping

open Binding Registry

/-! ## Bound collections -/

/-- The contents of lists and arrays are bound as those of lists. -/
theorem CollectionKind.passKind_of_isListLike {kind : CollectionKind}
    (h : kind.isListLike = true) : kind.passKind = .list := by
  cases kind with
  | array | list | primitiveArray => rfl
  | bag | identifierBag | map | set => cases h

/-- A collection whose contents are bound: it is settled, and completed as its kind requires. -/
structure Collection.BoundIn (r : Registry) (c : Collection) : Prop where
  settled : c.SettledIn r
  completed : c.CompletedAs c.kind.passKind

/-- The collections of some roles are bound. -/
def Registry.Bound (r : Registry) (roles : List String) : Prop :=
  ∀ role ∈ roles, ∃ c, r.collection? role = some c ∧ c.BoundIn r

/-- What is known of a collection in the end. -/
structure Collection.ResolvedIn (r : Registry) (c : Collection) : Prop where
  table : ∃ id, c.table = some id ∧ r.Holds id
  /-- The position in a list or an array is an integer. -/
  position : c.kind.isListLike = true →
    ∃ v, c.index = some (.simple v) ∧ v.typeName = some "integer"
  /-- A map has keys, which have a type if they are simple values. -/
  mapKey : c.kind = .map → ∃ v, c.index = some v ∧ ∀ s, v = .simple s → s.typeName.isSome = true
  rowIdentifier : c.kind = .identifierBag → ∃ v, c.identifier = some (.simple v)
  /-- Elements that hold the key themselves are those of a registered entity, in its table. -/
  target : ∀ v, c.element = some (.oneToMany v) → ∃ e, r.entity? e.name = some e ∧
    v.referencedEntity = some e.name ∧ v.associatedTable = some e.table ∧ c.table = some e.table

/-- A bound collection in a registry that is grounded and traced is resolved. -/
theorem Collection.BoundIn.resolvedIn {S : Source} {r : Registry} {c : Collection}
    (h : c.BoundIn r) (hgrounded : r.Grounded S) (htraced : r.Traced S)
    (hc : c ∈ r.collections.values) : c.ResolvedIn r := by
  obtain ⟨role, hrole⟩ := KeyedList.mem_values_iff.mp hc
  have hstored := hgrounded.collections role c hrole
  have hcompleted := h.completed
  refine ⟨?_, fun hkind => ?_, fun hkind => ?_, fun hkind => ?_, fun v hv => ?_⟩
  · cases htable : c.table with
    | some id => exact ⟨id, rfl, hstored.table id htable⟩
    | none =>
      obtain ⟨v, hv⟩ := Collection.isOneToMany_iff.mp (hstored.located htable)
      obtain ⟨_, e, -, -, -, hsettled⟩ := h.settled v hv
      cases htable.symm.trans hsettled
  · rw [CollectionKind.passKind_of_isListLike hkind] at hcompleted
    exact hcompleted
  · rw [hkind] at hcompleted
    obtain ⟨v, hv⟩ := Option.isSome_iff_exists.mp hcompleted
    exact ⟨v, hv, fun s hs => (htraced.collections role c hrole).2.typed s (hs ▸ hv)⟩
  · rw [hkind] at hcompleted
    exact hcompleted
  · obtain ⟨name, e, he, htarget, hassociated, htable⟩ := h.settled v hv
    obtain rfl := (htraced.entities name e he).1
    exact ⟨e, he, htarget, hassociated, htable⟩

namespace Session

variable {options : RegistryOptions} {documents : Document → Prop} {r r' : Registry}

/-- A bound collection stays settled as the registry grows, since entities keep their tables and
are stored under their own names. -/
theorem Driven.boundIn (hr : Driven options documents r) (hr' : Driven options documents r')
    (hincluded : r.IncludedIn r') {c : Collection} (hc : c.BoundIn r) : c.BoundIn r' := by
  refine ⟨fun v hv => ?_, hc.completed⟩
  obtain ⟨name, e, he, htarget, hassociated, htable⟩ := hc.settled v hv
  obtain ⟨e', he', hkept⟩ := hincluded.entities he
  have hname : e'.name = e.name :=
    (hr'.traced.2.entities name e' he').1.trans (hr.traced.2.entities name e he).1.symm
  refine ⟨name, e', he', ?_, ?_, ?_⟩
  · rw [hname, htarget]
  · rw [hkept.table, hassociated]
  · rw [hkept.table, htable]

/-- A pass that is taken off the queue and ends well leaves its collection bound, besides those
that were bound before. -/
theorem Driven.bound_of_run (hdriven : Driven options documents r) {done : List String}
    (hr : Orderly done r) (hdone : r.Bound done) {pass : DeferredPass} {rest : Registry}
    (hnext : r.nextPass? = some (pass, rest)) (hrun : pass.run.run rest = .ok () r') :
    Driven options documents r' ∧ r'.Bound (done ++ pass.role?.toList) := by
  have hincluded := (advances_nextPass hdriven.grounded hnext).included
  have hdriven' := hdriven.pass hnext
  rw [after_eq_of_ok hrun] at hincluded hdriven'
  refine ⟨hdriven', fun role hin => ?_⟩
  have hbound : ∀ {c : Collection}, c.BoundIn r → c.BoundIn r' :=
    hdriven.boundIn hdriven' hincluded
  obtain ⟨passes, hpasses, rfl⟩ := nextPass?_eq_some_iff.mp hnext
  cases pass with
  | propertyRef pass =>
    rw [DeferredPass.role?, Option.toList_none, List.append_nil] at hin
    obtain ⟨c, hc, hcBound⟩ := hdone role hin
    have hcollections := ((quiet_bindPropertyRef pass).alike_of_ok hrun).collections
    refine ⟨c, ?_, hbound hcBound⟩
    rw [Registry.collection?, hcollections]
    exact hc
  | contents kind pass =>
    obtain ⟨c, hcontents⟩ := contentsRun_of_ok hrun
    obtain ⟨hrole, rfl, -, -⟩ := hr.boundBy_of_contentsRun hnext hcontents
    have heffect := hcontents.effect hrole.symm
    rcases List.mem_append.mp hin with hold | hnew
    · obtain ⟨c', hc', hcBound⟩ := hdone role hold
      have hother : role ≠ pass.role := by
        rintro rfl
        exact hr.not_mem_done hnext hold
      exact ⟨c', heffect.kept role c' hother hc', hbound hcBound⟩
    · cases List.mem_singleton.mp hnew
      refine ⟨c, heffect.stored, hbound ?_⟩
      cases hcontents with
      | intro hfound hdeclared hsettled hprepared hshown hindex hindexShown hcompleted =>
        exact ⟨hsettled, hcompleted⟩

/-- When the loop over the passes ends well, every collection is bound, by induction along the
loop. -/
theorem PassRun.bound {done : List String} {log : List DeferredPass}
    (h : PassRun r log (.ok () r')) (hr : Orderly done r) (hdriven : Driven options documents r)
    (hdone : r.Bound done) : Driven options documents r' ∧ r'.Bound r'.collections.keys := by
  induction h using PassRun.inductionOn_ok generalizing done with
  | done hnext =>
    have hkeys := hr.enlisted
    rw [queuedRoles, Registry.nextPass?_eq_none_iff.mp hnext, List.filterMap_nil,
      List.append_nil] at hkeys
    exact ⟨hdriven, hkeys ▸ hdone⟩
  | step hnext hrun hrest ih =>
    obtain ⟨hdriven₁, hbound⟩ := hdriven.bound_of_run hr hdone hnext hrun
    exact ih (hr.run hnext hrun) hdriven₁ hbound

/-- When a session is ended well, every registered collection is bound. -/
theorem Supplied.boundIn (h : Supplied options documents r) (hfinish : finish.run r = .ok () r') :
    Driven options documents r' ∧ ∀ c ∈ r'.collections.values, c.BoundIn r' := by
  obtain ⟨log, r₁, hlog, happlied⟩ := of_run_finish hfinish
  have hstart := h.driven.call .process fun _ hnone => by cases hnone
  rw [Call.run, after_discard] at hstart
  obtain ⟨hdriven₁, hbound⟩ :=
    hlog.bound h.isOpen.workedOff.orderly hstart fun role hrole => absurd hrole List.not_mem_nil
  have hdriven := h.driven.call .finish fun _ hnone => by cases hnone
  rw [Call.run, after_eq_of_ok hfinish] at hdriven
  refine ⟨hdriven, fun c hc => ?_⟩
  have hincluded := (hdriven₁.grounded.applyPropertyReferences happlied).included
  obtain ⟨role, hrole⟩ := KeyedList.mem_values_iff.mp hc
  rw [(applyPropertyReferences_frame happlied).2.1] at hrole
  have hkey : role ∈ r₁.collections.keys :=
    List.mem_map_of_mem (f := Prod.fst) (KeyedList.get?_eq_some_iff.mp hrole)
  obtain ⟨c', hc', hcBound⟩ := hbound role hkey
  cases hrole.symm.trans hc'
  exact hdriven₁.boundIn hdriven hincluded hcBound

/-! ## The theorem -/

/-- Once an open session is ended well, every registered collection is resolved. -/
theorem collections_resolved {options : RegistryOptions} {r r' : Registry} (h : Open options r)
    (hfinish : finish.run r = .ok () r') : ∀ c ∈ r'.collections.values, c.ResolvedIn r' := by
  obtain ⟨hdriven, hbound⟩ := h.supplied.boundIn hfinish
  exact fun c hc => (hbound c hc).resolvedIn hdriven.grounded hdriven.traced.2 hc

/-- A session with a person that has a list of toys, which go by another name, a map of sizes, and
a bag of notes whose rows are identified. -/
def playroom : Registry :=
  (Call.add (documentOf [
    { name := "import", attributes := .ofList [("class", "Toy"), ("rename", "Plaything")] },
    identifiedClass "Person" [
      namedElement "list" "toys" [columnElement "key" "person_id",
        columnElement "list-index" "position",
        { name := "one-to-many", attributes := .ofList [("class", "Plaything")] }],
      namedElement "map" "sizes" [columnElement "key" "person_id", columnElement "index" "garment",
        columnElement "element" "size"],
      namedElement "idbag" "notes" [
        { name := "collection-id"
          attributes := .ofList [("column", "note_id"), ("type", "long")]
          children := [{ name := "generator", attributes := .ofList [("class", "native")] }] },
        columnElement "key" "person_id", columnElement "element" "note"]],
    identifiedClass "Toy" []]) .empty).run.after { options := {} }

/-- The toys are those of the class, whatever it is called, and positions are integers although
the mapping has them as strings. -/
theorem collections_resolved_playroom : Open {} playroom ∧
    ∃ r', finish.run playroom = .ok () r' ∧ (∀ c ∈ r'.collections.values, c.ResolvedIn r') ∧
      r'.collections.keys = ["Person.toys", "Person.sizes", "Person.notes"] := by
  have hopen : Open {} playroom := .call .start _ (fun hfinish => nomatch hfinish)
  obtain ⟨⟨⟩, hrun⟩ := exists_run_of_succeeds (m := finish) (r := playroom) (by decide +kernel)
  exact ⟨hopen, _, hrun, collections_resolved hopen hrun, by decide +kernel⟩

end Session

end ObjectMapping
