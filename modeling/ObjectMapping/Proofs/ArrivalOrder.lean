import ObjectMapping.Proofs.Custody
import ObjectMapping.Proofs.Registration

/-!
# Arrival order

Documents may arrive in any order: a session that adds them one by one, and none of which
fails, ends with the same entities and with the same documents waiting, whatever the order was.

The documents that are bound after some arrivals are a least fixed point.  `Grounded` says of a
list of arrivals that each of them needs only classes that those before it declare, and
`BoundBy` that a registry holds exactly the outlines of such a list.  A session keeps the
documents that are bound grounded, and stops only where every document that waits needs a class
that is not there.  Hence what is bound in one order is bound in the other: by induction along
the grounded list of the one, each document is settled in the other and does not wait there.
-/

namespace ObjectMapping

open Binding Registry

namespace Session

/-! ## Arrivals -/

/-- A document as it arrives, with the metas that it inherits from outside. -/
structure Arrival where
  document : Document
  metas : MetaMap

/-- The document that waits, as it arrived. -/
def arrivalOf (pending : PendingDocument) : Arrival := ⟨pending.document, pending.metas⟩

/-- Adds documents to a session one after another. -/
def addAll (arrivals : List Arrival) : Binding Unit :=
  arrivals.forM fun arrival => discard (addDocument arrival.document arrival.metas)

/-- The outlines of what documents declare, by name. -/
def outlinesOf (arrivals : List Arrival) : List (String × EntitySkeleton) :=
  arrivals.flatMap fun arrival => byName (documentOutlines arrival.document.root)

/-- The outlines of one more document come last. -/
theorem outlinesOf_append (arrivals more : List Arrival) :
    outlinesOf (arrivals ++ more) = outlinesOf arrivals ++ outlinesOf more :=
  List.flatMap_append

/-- The outlines of a single document. -/
theorem outlinesOf_singleton (arrival : Arrival) :
    outlinesOf [arrival] = byName (documentOutlines arrival.document.root) :=
  List.append_nil _

/-- The names that documents declare. -/
def namesOf (arrivals : List Arrival) : List String := (outlinesOf arrivals).map Prod.fst

/-- The names of some documents and of others. -/
theorem mem_namesOf_append {arrivals more : List Arrival} {name : String} :
    name ∈ namesOf (arrivals ++ more) ↔ name ∈ namesOf arrivals ∨ name ∈ namesOf more := by
  rw [namesOf, outlinesOf_append, List.map_append, List.mem_append]
  rfl

/-! ## Grounded lists -/

/-- Every document needs only superclasses that those before it declare. -/
inductive Grounded : List Arrival → Prop
  | nil : Grounded []
  | snoc {arrivals : List Arrival} {arrival : Arrival} (h : Grounded arrivals)
      (hneeded : ∀ name ∈ foreignNames arrival.document.root, name ∈ namesOf arrivals) :
      Grounded (arrivals ++ [arrival])

/-- The documents of a grounded list need only superclasses that the list declares. -/
theorem Grounded.needed {arrivals : List Arrival} (h : Grounded arrivals) :
    ∀ arrival ∈ arrivals, ∀ name ∈ foreignNames arrival.document.root,
      name ∈ namesOf arrivals := by
  induction h with
  | nil => simp
  | snoc _ hneeded ih =>
    intro other hother name hname
    rw [mem_namesOf_append]
    rcases List.mem_append.mp hother with hold | hnew
    · exact .inl (ih other hold name hname)
    · rw [List.mem_singleton.mp hnew] at hname
      exact .inl (hneeded name hname)

/-- A registry holds exactly what the documents of a grounded list declare, in their order. -/
structure BoundBy (arrivals : List Arrival) (r : Registry) : Prop where
  outlines : r.outlines = outlinesOf arrivals
  grounded : Grounded arrivals

namespace BoundBy

variable {arrivals : List Arrival} {r r' : Registry}

/-- The registered names are those that the documents declare. -/
theorem hasEntity_iff (h : BoundBy arrivals r) {name : String} :
    r.hasEntity name = true ↔ name ∈ namesOf arrivals := by
  rw [Registry.hasEntity_iff, ← map_fst_outlines, h.outlines]
  rfl

/-- Documents that are bound are settled. -/
theorem settled (h : BoundBy arrivals r) {arrival : Arrival} (hmem : arrival ∈ arrivals) :
    Settled r arrival.document :=
  fun name hname => h.hasEntity_iff.mpr (h.grounded.needed arrival hmem name hname)

/-- Taking documents off the queue or putting one on it binds nothing. -/
theorem of_skeletons (h : BoundBy arrivals r) (hsame : r'.skeletons = r.skeletons) :
    BoundBy arrivals r' := by
  refine ⟨?_, h.grounded⟩
  rw [Registry.outlines, hsame]
  exact h.outlines

/-- A settled document that is bound without an error is one more bound document. -/
theorem snoc (h : BoundBy arrivals r) (hkeyed : Keyed r.skeletons) {arrival : Arrival}
    {outcome : BindOutcome} (hsettled : Settled r arrival.document)
    (hrun : (bindDocument arrival.document arrival.metas).run r = .ok outcome r') :
    BoundBy (arrivals ++ [arrival]) r' := by
  have hneeded : ∀ name ∈ foreignNames arrival.document.root, name ∈ namesOf arrivals :=
    fun name hname => h.hasEntity_iff.mp (hsettled name hname)
  refine ⟨?_, h.grounded.snoc hneeded⟩
  rw [run_bindDocument_of_settled arrival.metas (settled_iff.mp hsettled)] at hrun
  obtain ⟨_, _, hroot, hreturn⟩ := run_bind_eq_ok.mp hrun
  cases hreturn
  rw [(registers_bindRoot _ _).outlines hkeyed hroot, h.outlines, outlinesOf_append,
    outlinesOf_singleton]

/-- A batch of settled documents that is bound without an error is that many more bound
documents. -/
theorem bindAll {batch : List PendingDocument} (h : BoundBy arrivals r)
    (hkeyed : Keyed r.skeletons) (hsettled : ∀ pending ∈ batch, Settled r pending.document)
    {n : Nat} (hrun : (Session.bindAll batch).run r = .ok n r') :
    BoundBy (arrivals ++ batch.map arrivalOf) r' := by
  induction batch generalizing arrivals r n with
  | nil =>
    cases hrun
    rwa [List.map_nil, List.append_nil]
  | cons pending rest ih =>
    obtain ⟨outcome, r₁, hfirst, hrun⟩ := run_bind_eq_ok.mp hrun
    obtain ⟨others, r₂, hrest, hreturn⟩ := run_bind_eq_ok.mp hrun
    cases hreturn
    have hpending := hsettled pending List.mem_cons_self
    obtain ⟨hgrows, -⟩ := bindDocument_of_settled pending.metas hkeyed hpending
    rw [after_eq_of_ok hfirst] at hgrows
    have hone : BoundBy (arrivals ++ [arrivalOf pending]) r₁ := h.snoc hkeyed hpending hfirst
    have hall := ih hone (hgrows.keyed hkeyed)
      (fun other hother => (hsettled other (List.mem_cons_of_mem _ hother)).grow hgrows) hrest
    rwa [List.append_assoc] at hall

/-- A loop over the queue that does not fail binds what it attempts. -/
theorem drains {bound : Nat} {log : List Attempt} {dropped : List PendingDocument} {k : Nat}
    (h : BoundBy arrivals r) (hr : Sound r) (hdrains : Drains bound r log dropped (.ok k r')) :
    BoundBy (arrivals ++ (log.map Attempt.pending).map arrivalOf) r' := by
  generalize hresult : (EStateM.Result.ok k r' : EStateM.Result MappingError Registry Nat)
    = result at hdrains
  induction hdrains generalizing arrivals with
  | idle =>
    cases hresult
    rw [List.map_nil, List.map_nil, List.append_nil]
    exact h.of_skeletons rfl
  | failure => cases hresult
  | @round _ _ r _ log _ _ _ hrun _ ih =>
    have htaken : BoundBy arrivals r.takeReady.2 := h.of_skeletons rfl
    have hround := htaken.bindAll hr.keyed (settled_of_takeReady hr.accurate) hrun
    have hsound := (Drains.sound_round hr).2
    rw [after_eq_of_ok hrun] at hsound
    have hall := ih hround hsound hresult
    rwa [List.append_assoc, ← List.map_append, ← attempts_of_ok hrun, ← List.map_append] at hall

end BoundBy

/-! ## Sessions that did not fail -/

/-- What a session that no document has failed knows of the documents that arrived: each of them
is bound or waits, and those that wait have to. -/
structure Consistent (arrivals : List Arrival) (r : Registry) : Prop where
  sound : Sound r
  /-- No document waits any more once its superclasses are registered. -/
  idle : r.takeReady.1 = []
  account : ∃ bound, BoundBy bound r ∧ (bound ++ r.waiting.map arrivalOf).Perm arrivals

namespace Consistent

variable {arrivals arrivals' : List Arrival} {r r' : Registry}

/-- A new session knows of no document. -/
theorem start (options : RegistryOptions) : Consistent [] { options } where
  sound := ⟨fun _ h => absurd h List.not_mem_nil, fun _ h => absurd h List.not_mem_nil⟩
  idle := rfl
  account := ⟨[], ⟨rfl, .nil⟩, .refl []⟩

/-- The order of the arrivals is not known. -/
theorem perm (h : Consistent arrivals r) (hperm : arrivals.Perm arrivals') :
    Consistent arrivals' r := by
  obtain ⟨bound, hbound, hall⟩ := h.account
  exact ⟨h.sound, h.idle, bound, hbound, hall.trans hperm⟩

/-- A document that waits is not settled. -/
theorem not_settled (h : Consistent arrivals r) {arrival : Arrival}
    (hmem : arrival ∈ r.waiting.map arrivalOf) : ¬Settled r arrival.document := by
  obtain ⟨pending, hpending, rfl⟩ := List.mem_map.mp hmem
  intro hsettled
  have hready : pending ∈ r.takeReady.1 :=
    List.mem_filter.mpr ⟨hpending, (h.sound.accurate pending hpending).isReady_iff.mpr hsettled⟩
  rw [h.idle] at hready
  exact absurd hready List.not_mem_nil

/-- A document that needs a superclass starts to wait, and no other stops to. -/
theorem deferred (h : Consistent arrivals r) (arrival : Arrival)
    (hneeded : r.extendsNeeded arrival.document.root ≠ []) :
    Consistent (arrivals ++ [arrival]) (r.enqueue
      ⟨arrival.document, arrival.metas, r.extendsNeeded arrival.document.root⟩) := by
  obtain ⟨bound, hbound, hall⟩ := h.account
  have hmove := Moves.of (.defer r arrival.document arrival.metas hneeded)
  refine ⟨hmove.sound h.sound, ?_, bound, hbound.of_skeletons rfl, ?_⟩
  · have hfirst : ∃ name ∈ r.extendsNeeded arrival.document.root, r.hasEntity name = false := by
      obtain ⟨name, hname⟩ := List.exists_mem_of_ne_nil _ hneeded
      exact ⟨name, hname, (mem_extendsNeeded.mp hname).2⟩
    have hnew : r.isReady
        ⟨arrival.document, arrival.metas, r.extendsNeeded arrival.document.root⟩ = false := by
      simpa [Registry.isReady] using hfirst
    have hsplit : ∀ pending, (r.enqueue pending).takeReady.1
        = r.takeReady.1 ++ [pending].filter r.isReady := fun _ => List.filter_append _ _
    rw [hsplit, h.idle, List.nil_append, List.filter_cons_of_neg (by simp [hnew]), List.filter_nil]
  · have hwaiting : ∀ pending, (r.enqueue pending).waiting.map arrivalOf
        = r.waiting.map arrivalOf ++ [arrivalOf pending] := fun _ => List.map_append
    rw [hwaiting, ← List.append_assoc]
    exact hall.append_right _

/-- A settled document is bound, and then those that waited for it. -/
theorem bound (h : Consistent arrivals r) {arrival : Arrival} {outcome : BindOutcome}
    {r₁ : Registry} {k : Nat} (hsettled : Settled r arrival.document)
    (hfirst : (bindDocument arrival.document arrival.metas).run r = .ok outcome r₁)
    (hqueue : processQueue.run r₁ = .ok k r') : Consistent (arrivals ++ [arrival]) r' := by
  obtain ⟨bound, hbound, hall⟩ := h.account
  obtain ⟨hgrows, -⟩ := bindDocument_of_settled arrival.metas h.sound.keyed hsettled
  rw [after_eq_of_ok hfirst] at hgrows
  have hsound := (Moves.of (.grow hgrows)).sound h.sound
  obtain ⟨log, dropped, hdrains⟩ := drains_workOff 0 hsound
  have hrun : workOff 0 r₁ = .ok k r' := hqueue
  rw [hrun] at hdrains
  obtain ⟨rfl, hidle, -⟩ := hdrains.of_ok hsound
  have hone := hbound.snoc h.sound.keyed hsettled hfirst
  refine ⟨(hdrains.moves hsound).sound hsound, hidle, _, hone.drains hsound hdrains, ?_⟩
  -- What was attempted waited before, and so did what still waits.
  have hwaited := (hdrains.perm hsound).map arrivalOf
  rw [List.append_nil, List.map_append, hgrows.waiting] at hwaited
  rw [List.append_assoc]
  refine (hwaited.append_left _).trans ?_
  rw [List.append_assoc]
  exact (List.perm_append_comm.append_left bound).trans
    (by rw [← List.append_assoc]; exact hall.append_right _)

/-- Adding a document without an error keeps a session consistent. -/
theorem addDocument (h : Consistent arrivals r) {arrival : Arrival} {outcome : BindOutcome}
    (hrun : (Session.addDocument arrival.document arrival.metas).run r = .ok outcome r') :
    Consistent (arrivals ++ [arrival]) r' := by
  unfold Session.addDocument at hrun
  obtain ⟨result, r₁, hfirst, hrun⟩ := run_bind_eq_ok.mp hrun
  by_cases hneeded : r.extendsNeeded arrival.document.root = []
  · have hsettled := settled_iff.mpr hneeded
    obtain rfl := (bindDocument_of_settled arrival.metas h.sound.keyed hsettled).2 _ _ hfirst
    rw [if_pos rfl] at hrun
    obtain ⟨_, r₂, hqueue, hreturn⟩ := run_bind_eq_ok.mp hrun
    cases hreturn
    obtain ⟨k, hqueue⟩ := run_discard_eq_ok.mp hqueue
    exact h.bound hsettled hfirst hqueue
  · rw [run_bindDocument_of_needed arrival.metas hneeded] at hfirst
    cases hfirst
    cases hrun
    exact h.deferred arrival hneeded

/-- Adding documents without an error keeps a session consistent. -/
theorem addAll {more : List Arrival} (h : Consistent arrivals r)
    (hrun : (Session.addAll more).run r = .ok () r') : Consistent (arrivals ++ more) r' := by
  induction more generalizing arrivals r with
  | nil =>
    cases hrun
    rwa [List.append_nil]
  | cons arrival rest ih =>
    obtain ⟨_, r₁, hfirst, hrest⟩ := run_bind_eq_ok.mp hrun
    obtain ⟨outcome, hfirst⟩ := run_discard_eq_ok.mp hfirst
    have hall := ih (h.addDocument hfirst) hrest
    rwa [List.append_assoc] at hall

/-! ### The least fixed point -/

/-- What is registered in one consistent session is registered in any other that the same
documents arrived at.  By induction along the documents that the first has bound: each is
settled in the second as well, where it does not wait then. -/
theorem hasEntity (h : Consistent arrivals r) (h' : Consistent arrivals r') {name : String}
    (hname : r.hasEntity name = true) : r'.hasEntity name = true := by
  obtain ⟨bound, hbound, hall⟩ := h.account
  obtain ⟨bound', hbound', hall'⟩ := h'.account
  have harrived : ∀ arrival ∈ bound, arrival ∈ arrivals := fun arrival hmem =>
    hall.subset (List.mem_append_left _ hmem)
  suffices hnames : ∀ name ∈ namesOf bound, r'.hasEntity name = true from
    hnames name (hbound.hasEntity_iff.mp hname)
  have hgrounded := hbound.grounded
  clear hbound hall hname
  induction hgrounded with
  | nil => exact fun _ hname => absurd hname List.not_mem_nil
  | @snoc before arrival _ hneeded ih =>
    have hbefore := ih fun other hother => harrived other (List.mem_append_left _ hother)
    have hsettled : Settled r' arrival.document := fun name hname =>
      hbefore name (hneeded name hname)
    have hmem : arrival ∈ bound' := by
      have hsomewhere := hall'.symm.subset
        (harrived arrival (List.mem_append_right _ (List.mem_singleton_self _)))
      rcases List.mem_append.mp hsomewhere with hdone | hwaits
      · exact hdone
      · exact absurd hsettled (h'.not_settled hwaits)
    intro name hname
    rcases mem_namesOf_append.mp hname with hold | hnew
    · exact hbefore name hold
    · refine hbound'.hasEntity_iff.mpr ?_
      obtain ⟨entry, hentry, rfl⟩ := List.mem_map.mp hnew
      rw [outlinesOf_singleton] at hentry
      exact List.mem_map.mpr ⟨entry, List.mem_flatMap.mpr ⟨arrival, hmem, hentry⟩, rfl⟩

/-- Consistent sessions that the same documents arrived at have the same names. -/
theorem hasEntity_eq (h : Consistent arrivals r) (h' : Consistent arrivals r') (name : String) :
    r.hasEntity name = r'.hasEntity name :=
  Bool.eq_iff_iff.mpr ⟨h.hasEntity h', h'.hasEntity h⟩

/-- Consistent sessions that the same documents arrived at find the same documents settled. -/
theorem decide_settled (h : Consistent arrivals r) (h' : Consistent arrivals r') :
    (fun arrival : Arrival => decide (Settled r arrival.document))
      = fun arrival => decide (Settled r' arrival.document) := by
  funext arrival
  refine decide_eq_decide.mpr ?_
  unfold Settled
  simp only [h.hasEntity_eq h']

/-- The bound documents are those that are settled, and the waiting ones are the others. -/
theorem partition (h : Consistent arrivals r) : ∃ bound, BoundBy bound r ∧
    bound.Perm (arrivals.filter fun arrival => decide (Settled r arrival.document)) ∧
    (r.waiting.map arrivalOf).Perm
      (arrivals.filter fun arrival => !decide (Settled r arrival.document)) := by
  obtain ⟨bound, hbound, hall⟩ := h.account
  have hsettled : ∀ arrival ∈ bound, Settled r arrival.document := fun _ => hbound.settled
  have hwaits : ∀ arrival ∈ r.waiting.map arrivalOf, ¬Settled r arrival.document :=
    fun _ => h.not_settled
  refine ⟨bound, hbound, ?_, ?_⟩
  · have hkept := hall.filter fun arrival => decide (Settled r arrival.document)
    rw [List.filter_append, List.filter_eq_self.mpr (by simpa using hsettled),
      List.filter_eq_nil_iff.mpr (by simpa using hwaits), List.append_nil] at hkept
    exact hkept
  · have hkept := hall.filter fun arrival => !decide (Settled r arrival.document)
    rw [List.filter_append, List.filter_eq_nil_iff.mpr (by simpa using hsettled),
      List.filter_eq_self.mpr (by simpa using hwaits), List.nil_append] at hkept
    exact hkept

/-- What is registered is what the settled documents declare. -/
theorem outlines_perm_settled (h : Consistent arrivals r) : r.outlines.Perm
    (outlinesOf (arrivals.filter fun arrival => decide (Settled r arrival.document))) := by
  obtain ⟨bound, hbound, hsettled, -⟩ := h.partition
  rw [hbound.outlines]
  exact hsettled.flatMap_right _

/-- Consistent sessions that the same documents arrived at have the same outlines. -/
theorem outlines_perm (h : Consistent arrivals r) (h' : Consistent arrivals r') :
    r.outlines.Perm r'.outlines := by
  have hsettled := h.outlines_perm_settled
  rw [h.decide_settled h'] at hsettled
  exact hsettled.trans h'.outlines_perm_settled.symm

/-- In consistent sessions that the same documents arrived at, the same documents wait. -/
theorem waiting_perm (h : Consistent arrivals r) (h' : Consistent arrivals r') :
    (r.waiting.map arrivalOf).Perm (r'.waiting.map arrivalOf) := by
  obtain ⟨-, -, -, hwaits⟩ := h.partition
  obtain ⟨-, -, -, hwaits'⟩ := h'.partition
  have hsame : (fun arrival : Arrival => !decide (Settled r arrival.document))
      = fun arrival => !decide (Settled r' arrival.document) :=
    congrArg (fun p arrival => !p arrival) (h.decide_settled h')
  rw [hsame] at hwaits
  exact hwaits.trans hwaits'.symm

/-- The awaited names are those that waiting documents need and that are not registered. -/
theorem mem_awaitedNames (h : Consistent arrivals r) {name : String} :
    name ∈ r.awaitedNames ↔ r.hasEntity name = false ∧
      ∃ arrival ∈ r.waiting.map arrivalOf, name ∈ foreignNames arrival.document.root := by
  unfold Registry.awaitedNames
  rw [mem_sortedNames, List.mem_filter, List.mem_flatMap, Bool.not_eq_true', and_comm]
  refine and_congr_right fun hnew => ?_
  constructor
  · rintro ⟨pending, hpending, hname⟩
    exact ⟨arrivalOf pending, List.mem_map.mpr ⟨pending, hpending, rfl⟩,
      (h.sound.accurate pending hpending).needed name hname⟩
  · rintro ⟨arrival, hmem, hname⟩
    obtain ⟨pending, hpending, rfl⟩ := List.mem_map.mp hmem
    refine ⟨pending, hpending, ?_⟩
    rcases (h.sound.accurate pending hpending).complete name hname with hmissing | hregistered
    · exact hmissing
    · rw [hnew] at hregistered
      cases hregistered

/-- In consistent sessions that the same documents arrived at, the same names are awaited. -/
theorem awaitedNames_eq (h : Consistent arrivals r) (h' : Consistent arrivals r') :
    r.awaitedNames = r'.awaitedNames := by
  have hsame : ∀ name, name ∈ r.awaitedNames ↔ name ∈ r'.awaitedNames := by
    intro name
    rw [h.mem_awaitedNames, h'.mem_awaitedNames, h.hasEntity_eq h']
    simp only [(h.waiting_perm h').mem_iff]
  exact sortedNames_congr fun name =>
    mem_sortedNames.symm.trans ((hsame name).trans mem_sortedNames)

end Consistent

/-! ## Any order -/

/-- The documents of a session may arrive in any order: if none of them fails, the same entities
are registered, with the same kinds, superclasses, properties and joins; the same documents wait
for superclasses; and they wait for the same ones.  What is registered is what those documents
declare whose superclasses are registered. -/
theorem addAll_perm {options : RegistryOptions} {arrivals arrivals' : List Arrival}
    {r r' : Registry} (hperm : arrivals.Perm arrivals')
    (h : (addAll arrivals).run { options } = .ok () r)
    (h' : (addAll arrivals').run { options } = .ok () r') :
    (∀ name, (r.entity? name).map (·.skeleton.outline)
      = (r'.entity? name).map (·.skeleton.outline)) ∧
    (r.waiting.map arrivalOf).Perm (r'.waiting.map arrivalOf) ∧
    r.awaitedNames = r'.awaitedNames ∧
    r.outlines.Perm
      (outlinesOf (arrivals.filter fun arrival => decide (Settled r arrival.document))) := by
  have hbegin : Consistent arrivals r := (Consistent.start options).addAll h
  have hend : Consistent arrivals' r := hbegin.perm hperm
  have hend' : Consistent arrivals' r' := (Consistent.start options).addAll h'
  refine ⟨fun name => Option.ext fun k => ?_, hend.waiting_perm hend', hend.awaitedNames_eq hend',
    hbegin.outlines_perm_settled⟩
  rw [← mem_outlines_iff, ← mem_outlines_iff]
  exact (hend.outlines_perm hend').mem_iff

/-- Documents of which one waits for a class that never arrives. -/
def animalArrivals : List Arrival :=
  [⟨documentOf [subclassElement "Kitten" "Cat"], .empty⟩,
    ⟨documentOf [subclassElement "Cat" "Animal"], .empty⟩,
    ⟨documentOf [subclassElement "Unicorn" "Myth"], .empty⟩,
    ⟨documentOf [classElement "Animal"], .empty⟩]

/-- The documents are bound when the root of their hierarchy arrives, whether it comes last or
first. -/
theorem addAll_perm_animalArrivals : animalArrivals.Perm animalArrivals.reverse ∧
    ∃ r r', (addAll animalArrivals).run { options := {} } = .ok () r ∧
      (addAll animalArrivals.reverse).run { options := {} } = .ok () r' ∧
      r.entityNames.length = 3 ∧ r.waiting.length = 1 ∧
      (∀ name, (r.entity? name).map (·.skeleton.outline)
        = (r'.entity? name).map (·.skeleton.outline)) ∧
      (r.waiting.map arrivalOf).Perm (r'.waiting.map arrivalOf) ∧
      r.awaitedNames = r'.awaitedNames ∧
      r.outlines.Perm (outlinesOf
        (animalArrivals.filter fun arrival => decide (Settled r arrival.document))) := by
  have hperm : animalArrivals.Perm animalArrivals.reverse := (List.reverse_perm _).symm
  obtain ⟨_, hrun⟩ := exists_run_of_succeeds (m := addAll animalArrivals)
    (r := { options := {} }) (by decide +kernel)
  obtain ⟨_, hrun'⟩ := exists_run_of_succeeds (m := addAll animalArrivals.reverse)
    (r := { options := {} }) (by decide +kernel)
  exact ⟨hperm, _, _, hrun, hrun', by decide +kernel, by decide +kernel,
    addAll_perm hperm hrun hrun'⟩

end Session

end ObjectMapping
