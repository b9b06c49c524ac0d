import ObjectMapping.Proofs.ContentsRun
import ObjectMapping.Proofs.Fixpoint
import ObjectMapping.Proofs.Workload

/-!
# Collections and their passes

A collection is registered together with the pass for its contents, and neither happens without
the other.  So the roles of the registered collections are, in order, those whose passes were
run, followed by those whose passes are queued.  Documents keep it so, and so do the passes
themselves, which may register further collections.  When no pass is left, every role has had
its pass, once and in the order of registration.
-/

namespace ObjectMapping

open Binding Registry

/-- The role of the collection whose contents a pass binds. -/
def DeferredPass.role? : DeferredPass → Option String
  | contents _ pass => some pass.role
  | propertyRef _ => none

/-- The roles whose passes are queued, oldest first. -/
def Registry.queuedRoles (r : Registry) : List String := r.passes.filterMap DeferredPass.role?

/-- A pass of a kind has bound the contents of a collection, as they read in a registry. -/
structure Collection.BoundBy (c : Collection) (kind : PassKind) (pass : CollectionPass)
    (r : Registry) : Prop where
  role : pass.role = c.role
  shape : c.kind.passKind = kind
  /-- The role ends in the name of the element. -/
  named : ∃ path, c.role = qualify path ((pass.node.attribute? "name").getD "")
  reads : r.readContents kind pass.node = .ok c.reading

/-- The contents read alike in the same definitions. -/
theorem Collection.BoundBy.congr {c : Collection} {kind : PassKind} {pass : CollectionPass}
    {r r' : Registry} (h : c.BoundBy kind pass r) (hsame : SameDefinitions r r') :
    c.BoundBy kind pass r' :=
  ⟨h.role, h.shape, h.named, hsame.readContents ▸ h.reads⟩

/-- The passes of a registry are in order, after those of some roles were run. -/
structure Orderly (done : List String) (r : Registry) : Prop where
  /-- The roles are those whose passes were run, and then those whose passes are queued. -/
  enlisted : r.collections.keys = done ++ r.queuedRoles
  /-- A queued pass is that of a registered collection of its kind. -/
  matched : ∀ kind pass, DeferredPass.contents kind pass ∈ r.passes →
    ∃ c, r.collection? pass.role = some c ∧ c.kind.passKind = kind ∧ c.EnlistedBy pass

namespace Orderly

variable {done : List String} {r r' : Registry}

/-- An empty registry is in order. -/
theorem empty (options : RegistryOptions) : Orderly [] { options } :=
  ⟨rfl, fun _ _ h => absurd h List.not_mem_nil⟩

/-- Only collections and passes matter. -/
theorem congr (h : Orderly done r) (hcollections : r'.collections = r.collections)
    (hpasses : r'.passes = r.passes) : Orderly done r' := by
  refine ⟨?_, fun kind pass hpass => ?_⟩
  · rw [hcollections, h.enlisted, queuedRoles, queuedRoles, hpasses]
  · rw [hpasses] at hpass
    rw [Registry.collection?, hcollections]
    exact h.matched kind pass hpass

/-- No role is registered twice. -/
theorem nodup (h : Orderly done r) : (done ++ r.queuedRoles).Nodup := by
  rw [← h.enlisted]
  exact r.collections.nodup_keys

/-- Registering a collection along with its pass keeps the passes in order. -/
theorem enlist (h : Orderly done r) {c : Collection} {pass : CollectionPass}
    (hadd : r.addCollection c = .ok r') (henlisted : c.EnlistedBy pass) :
    Orderly done (r'.addPass (.contents c.kind.passKind pass)) := by
  have hkept : ∀ {role c₀}, r.collection? role = some c₀ → r'.collection? role = some c₀ :=
    collection?_of_addCollection_of_some hadd
  have hfound := collection?_self_of_addCollection hadd
  obtain ⟨hnew, rfl⟩ := addCollection_eq_ok.mp hadd
  have hfresh := KeyedList.not_contains_iff.mp hnew
  constructor
  · simp only [Registry.addPass, queuedRoles, List.filterMap_append]
    rw [KeyedList.keys_insert_of_not_mem hfresh, h.enlisted, List.append_assoc, ← henlisted.role]
    rfl
  · intro kind queued hqueued
    rcases List.mem_append.mp hqueued with hold | hlast
    · obtain ⟨c₀, hc₀, hmatched⟩ := h.matched kind queued hold
      exact ⟨c₀, hkept hc₀, hmatched⟩
    · cases List.mem_singleton.mp hlast
      exact ⟨c, henlisted.role ▸ hfound, rfl, henlisted⟩

/-- Putting off a foreign key keeps the passes in order. -/
theorem putOff (h : Orderly done r) (pass : PropertyRefPass) :
    Orderly done (r.addPass (.propertyRef pass)) := by
  constructor
  · have hqueued : (r.addPass (.propertyRef pass)).queuedRoles = r.queuedRoles := by
      simp [queuedRoles, Registry.addPass, DeferredPass.role?]
    rw [hqueued]
    exact h.enlisted
  · intro kind queued hqueued
    rcases List.mem_append.mp hqueued with hold | hlast
    · exact h.matched kind queued hold
    · cases List.mem_singleton.mp hlast

/-- Preparation keeps the passes in order. -/
theorem preparations (h : Orderly done r) (hsteps : Preparations r r') : Orderly done r' := by
  induction hsteps with
  | refl => exact h
  | tail _ hstep ih =>
    cases hstep with
    | quiet hquiet => exact ih.congr hquiet.alike.collections hquiet.alike.passes
    | collection hadd henlisted => exact ih.enlist hadd henlisted
    | propertyRef => exact ih.putOff _
    | mark => exact ih.congr rfl rfl

/-- Documents keep the passes in order. -/
theorem declaration (h : Orderly done r) (hstep : Declaration r r') : Orderly done r' := by
  cases hstep with
  | waiting => exact h.congr rfl rfl
  | entry hstep =>
    cases hstep with
    | define hstep => cases hstep <;> exact h.congr rfl rfl
    | enroll hstep =>
      cases hstep with
      | elaborate hstep =>
        cases hstep with
        | prepare hstep => exact h.preparations (.single hstep)
        | change => exact h.congr rfl rfl
      | entity hadd =>
        obtain ⟨-, rfl⟩ := addEntity_eq_ok.mp hadd
        exact h.congr rfl rfl

/-- Taking a pass off the queue. -/
theorem nextPass (h : Orderly done r) {pass : DeferredPass}
    (hnext : r.nextPass? = some (pass, r')) : Orderly (done ++ pass.role?.toList) r' := by
  obtain ⟨passes, hpasses, rfl⟩ := Registry.nextPass?_eq_some_iff.mp hnext
  constructor
  · have henlisted := h.enlisted
    rw [queuedRoles, hpasses] at henlisted
    rw [henlisted, List.append_assoc, queuedRoles]
    cases pass <;> rfl
  · intro kind queued hqueued
    exact h.matched kind queued (hpasses ▸ List.mem_cons_of_mem _ hqueued)

/-- The pass that is taken off the queue was not run before. -/
theorem not_mem_done (h : Orderly done r) {kind : PassKind} {pass : CollectionPass}
    (hnext : r.nextPass? = some (.contents kind pass, r')) : pass.role ∉ done := by
  intro hdone
  refine (List.nodup_append.mp h.nodup).2.2 pass.role hdone pass.role ?_ rfl
  obtain ⟨passes, hpasses, -⟩ := Registry.nextPass?_eq_some_iff.mp hnext
  simp [queuedRoles, hpasses, DeferredPass.role?]

/-- Writing back a collection whose pass is not queued any more keeps the passes in order. -/
theorem store (h : Orderly done r) {c : Collection} (hrole : c.role ∈ done) :
    Orderly done (r.modifyCollection c.role fun _ => c) := by
  constructor
  · rw [Registry.modifyCollection, KeyedList.keys_modify]
    exact h.enlisted
  · intro kind queued hqueued
    have hother : queued.role ≠ c.role := by
      intro hsame
      refine (List.nodup_append.mp h.nodup).2.2 c.role hrole c.role ?_ rfl
      exact List.mem_filterMap.mpr ⟨_, hqueued, congrArg some hsame⟩
    obtain ⟨c₀, hfound, hmatched⟩ := h.matched kind queued hqueued
    refine ⟨c₀, ?_, hmatched⟩
    rw [collection?_modifyCollection, hfound, Option.map_some, if_neg hother]

/-- A pass for contents keeps the passes in order. -/
theorem contentsRun (h : Orderly done r) {kind : PassKind} {pass : CollectionPass}
    {c : Collection} (hrole : c.role ∈ done) (hrun : ContentsRun kind pass c r r') :
    Orderly done r' := by
  cases hrun with
  | intro hfound hdeclared hsettled hcontents hshown hindex hindexShown hcompleted =>
    have hkey := h.preparations hcontents
    have hall := (hkey.congr (collections_display _ _) (passes_display _ _)).preparations hindex
    exact (hall.congr (collections_display _ _) (passes_display _ _)).store hrole

/-- What the oldest pass binds is its own collection, as that reads. -/
theorem boundBy_of_contentsRun (h : Orderly done r) {rest : Registry} {kind : PassKind}
    {pass : CollectionPass} {c : Collection}
    (hnext : r.nextPass? = some (.contents kind pass, rest))
    (hrun : ContentsRun kind pass c rest r') : c.BoundBy kind pass r' := by
  obtain ⟨passes, hpasses, rfl⟩ := Registry.nextPass?_eq_some_iff.mp hnext
  obtain ⟨c₀, hfound, hkind, henlisted⟩ := h.matched kind pass (hpasses ▸ List.mem_cons_self)
  have hsameDefinitions := hrun.sameDefinitions
  cases hrun with
  | intro hfound' hdeclared hsettled hcontents hshown hindex hindexShown hcompleted hreads =>
    have hsame : some c₀ = some _ := hfound.symm.trans hfound'
    cases hsame
    refine ⟨henlisted.role.trans hdeclared.role.symm, hdeclared.kind ▸ hkind, ?_, ?_⟩
    · rw [hdeclared.role]
      exact henlisted.named
    · rw [hsameDefinitions.readContents]
      exact hreads henlisted.blank

/-- A pass that is taken off the queue and ends well keeps the passes in order. -/
theorem run (h : Orderly done r) {rest : Registry} {pass : DeferredPass}
    (hnext : r.nextPass? = some (pass, rest)) (hrun : pass.run.run rest = .ok () r') :
    Orderly (done ++ pass.role?.toList) r' := by
  have hrest := h.nextPass hnext
  cases pass with
  | contents kind pass =>
    obtain ⟨c, hcontents⟩ := contentsRun_of_ok hrun
    have hrole := (h.boundBy_of_contentsRun hnext hcontents).role
    exact hrest.contentsRun (by simp [hrole, DeferredPass.role?]) hcontents
  | propertyRef pass =>
    have halike := (quiet_bindPropertyRef pass).alike_of_ok hrun
    exact hrest.congr halike.collections halike.passes

end Orderly

namespace Session

/-- The passes of an open session are in order, and none was run. -/
theorem Open.orderly {options : RegistryOptions} {r : Registry} (h : Open options r) :
    Orderly [] r :=
  h.invariant (.empty options) fun hstep hr => hr.declaration hstep

/-- When the loop over the passes ends well, the registered roles are those whose passes were
run, and no pass is left. -/
theorem PassRun.orderly {done : List String} {r r' : Registry} {log : List DeferredPass}
    (h : PassRun r log (.ok () r')) (hr : Orderly done r) :
    Orderly (done ++ log.filterMap DeferredPass.role?) r' ∧ r'.passes = [] := by
  induction h using PassRun.inductionOn_ok generalizing done with
  | done hnext =>
    rw [List.filterMap_nil, List.append_nil]
    exact ⟨hr, Registry.nextPass?_eq_none_iff.mp hnext⟩
  | @step r rest r₁ pass log hnext hrun hrest ih =>
    obtain ⟨horderly, hempty⟩ := ih (hr.run hnext hrun)
    refine ⟨?_, hempty⟩
    rw [List.filterMap_cons]
    cases hrole : pass.role? with
    | none => simpa [hrole] using horderly
    | some role => simpa [hrole] using horderly

/-- A session that is ended well has run its passes to the end, and then marked the properties
that others refer to. -/
theorem of_run_finish {r r' : Registry} (h : finish.run r = .ok () r') :
    ∃ log r₁, PassRun (processQueue.after r) log (.ok () r₁) ∧
      r₁.applyPropertyReferences = .ok r' := by
  unfold finish at h
  obtain ⟨_, r₀, hqueue, h₀⟩ := run_bind_eq_ok.mp h
  obtain ⟨k, hworked⟩ := run_discard_eq_ok.mp hqueue
  rw [run_get_bind] at h₀
  dsimp only at h₀
  split at h₀
  · obtain ⟨_, r₁, hpasses, happlied⟩ := run_bind_eq_ok.mp h₀
    obtain ⟨log, hlog, -⟩ := PassRun.exists_of_runPasses r₀
    rw [after_eq_of_ok hworked]
    have hresult : runPasses r₀ = .ok () r₁ := hpasses
    rw [hresult] at hlog
    exact ⟨log, r₁, hlog, run_register_eq_ok.mp happlied⟩
  · cases h₀

/-- Working off the queue of a session in which no document waits changes nothing. -/
theorem after_processQueue_of_empty {r : Registry} (h : r.waiting = []) :
    processQueue.after r = r := by
  have hidle : Idle r := fun pending hpending => by simp [h] at hpending
  exact after_eq_of_ok (run_processQueue_of_idle hidle)

/-- The loop over the deferred passes ends from wherever it starts, after no more passes than
the workload says, although passes queue further passes.  When an open session is ended well,
the loop starts once the queue of documents is worked off, which is at once if no document
waits.  Every registered collection then has its contents bound by exactly one pass, in the
order in which the collections were registered, and no pass is left. -/
theorem passes_run_once {options : RegistryOptions} {r : Registry} (h : Open options r) :
    (∃ log, PassRun r log (runPasses r) ∧ log.length ≤ workload r) ∧
      (r.waiting = [] → processQueue.after r = r) ∧
      ∀ r', finish.run r = .ok () r' →
        (∃ log result, PassRun (processQueue.after r) log result) ∧
        ∀ log result, PassRun (processQueue.after r) log result →
          log.filterMap DeferredPass.role? = r'.collections.keys ∧
          (∀ role ∈ r'.collections.keys,
            (log.filterMap DeferredPass.role?).count role = 1) ∧
          r'.passes = [] := by
  refine ⟨PassRun.exists_of_runPasses r, after_processQueue_of_empty, fun r' hfinish => ?_⟩
  obtain ⟨log, r₁, hlog, happlied⟩ := of_run_finish hfinish
  refine ⟨⟨log, _, hlog⟩, fun log' result hlog' => ?_⟩
  obtain ⟨rfl, -⟩ := hlog.unique hlog'
  obtain ⟨horderly, hempty⟩ := hlog.orderly h.workedOff.orderly
  obtain ⟨-, hcollections, hpasses⟩ := applyPropertyReferences_frame happlied
  have hroles : log'.filterMap DeferredPass.role? = r'.collections.keys := by
    rw [hcollections, horderly.enlisted, queuedRoles, hempty, List.filterMap_nil, List.append_nil,
      List.nil_append]
  refine ⟨hroles, fun role hrole => ?_, hpasses.trans hempty⟩
  rw [hroles]
  exact List.count_eq_one_of_mem r'.collections.nodup_keys hrole

/-- A root class with an identifier. -/
def identifiedClass (name : String) (children : List Element) : Element where
  name := "class"
  attributes := .ofList [("name", name)]
  children :=
    { name := "id", attributes := .ofList [("name", "id"), ("type", "long")] } :: children

/-- An element with a name and nothing else but children. -/
def namedElement (tag name : String) (children : List Element) : Element where
  name := tag
  attributes := .ofList [("name", name)]
  children

/-- An element that names its column. -/
def columnElement (tag column : String) : Element where
  name := tag
  attributes := .ofList [("column", column), ("type", "string")]

/-- A session with a person whose addresses have lines, a set within the elements of a set. -/
def addressBook : Registry :=
  (Call.add (documentOf [identifiedClass "Person" [namedElement "set" "addresses"
    [columnElement "key" "person",
      { name := "composite-element"
        children := [namedElement "set" "lines"
          [columnElement "key" "address", columnElement "element" "line"]] }]]]) .empty).run.after
    { options := {} }

/-- The pass for the addresses queues the pass for their lines, and each is run once. -/
theorem passes_run_once_addressBook : Open {} addressBook ∧
    ∃ r', finish.run addressBook = .ok () r' ∧
      ∃ log result, PassRun (processQueue.after addressBook) log result ∧
        log.filterMap DeferredPass.role? = ["Person.addresses", "Person.addresses.element.lines"] ∧
        r'.passes = [] := by
  have hopen : Open {} addressBook := .call .start _ (fun hfinish => nomatch hfinish)
  obtain ⟨⟨⟩, hrun⟩ := exists_run_of_succeeds (m := finish) (r := addressBook) (by decide +kernel)
  obtain ⟨-, -, hends⟩ := passes_run_once hopen
  obtain ⟨⟨log, result, hlog⟩, honce⟩ := hends _ hrun
  obtain ⟨hroles, -, hempty⟩ := honce log result hlog
  refine ⟨hopen, _, hrun, log, result, hlog, hroles.trans ?_, hempty⟩
  decide +kernel

end Session

end ObjectMapping
