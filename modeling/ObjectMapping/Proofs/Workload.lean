import Mathlib.Algebra.GroupWithZero.Nat
import ObjectMapping.Proofs.Preparation
import ObjectMapping.Session

/-!
# The workload of a session

The deferred passes of a session are run from a queue that grows while it is drained: binding
the contents of a collection may register further collections, those of the components among
its elements and keys, and may put off foreign keys.  What grows is bounded by what is bound.
Every pass that is queued on the way belongs to an element of its own, properly below the
element of the pass that queues it.  So the number of elements that the queued passes may
still bind, the workload, falls with every pass that ends well.

`PassRun` is the loop as it stands, without the guard that makes `runPasses` a total function.
Since the workload falls, the guard never cuts a run short, and a run takes no more passes than
the workload says.
-/

namespace ObjectMapping

open Binding Registry

namespace Session

/-- The workload is the sum of the weights of the passes. -/
theorem workload_eq_sum (r : Registry) :
    workload r = (r.passes.map DeferredPass.weight).sum := by
  unfold workload
  induction r.passes with
  | nil => rfl
  | cons pass passes ih => simpa using ih

/-- Queueing a pass adds its weight. -/
theorem workload_addPass (r : Registry) (pass : DeferredPass) :
    workload (r.addPass pass) = workload r + pass.weight := by
  rw [workload_eq_sum, workload_eq_sum, Registry.addPass, List.map_append, List.sum_append]
  rfl

/-- Taking a pass off the queue takes its weight away. -/
theorem workload_nextPass {r rest : Registry} {pass : DeferredPass}
    (h : r.nextPass? = some (pass, rest)) : workload r = pass.weight + workload rest := by
  obtain ⟨passes, hpasses, rfl⟩ := Registry.nextPass?_eq_some_iff.mp h
  rw [workload_eq_sum, workload_eq_sum, hpasses]
  rfl

end Session

open Session

/-! ## What a computation adds -/

namespace Binding

variable {α β : Type}

/-- A run that ends well adds no more than a number to the workload. -/
def Adds (n : Nat) (m : Binding α) : Prop :=
  ∀ r a r', m.run r = .ok a r' → workload r' ≤ workload r + n

/-- A quiet computation adds nothing. -/
theorem Quiet.adds {m : Binding α} (h : m.Quiet) (n : Nat) : Adds n m := by
  intro r a r' hrun
  rw [workload_eq_sum, workload_eq_sum, (h.alike_of_ok hrun).passes]
  exact Nat.le_add_right _ _

namespace Adds

variable {n k : Nat}

theorem pure (a : α) : Adds n (Pure.pure a) := by
  intro r b r' h
  cases h
  exact Nat.le_add_right _ _

theorem throw (e : MappingError) : Adds n (MonadExcept.throw e : Binding α) := by
  intro r a r' h
  cases h

/-- An error ends the computation, so what follows does not matter. -/
theorem throw_bind (e : MappingError) (f : α → Binding β) :
    Adds n (MonadExcept.throw e >>= f) := by
  intro r b r' h
  cases h

theorem mono {m : Binding α} (hm : Adds n m) (h : n ≤ k) : Adds k m :=
  fun r a r' hrun => Nat.le_trans (hm r a r' hrun) (Nat.add_le_add_left h _)

/-- A change of the registry that adds so much to its workload. -/
theorem modify {f : Registry → Registry} (h : ∀ r, workload (f r) ≤ workload r + n) :
    Adds n (modify f : Binding PUnit) := by
  intro r a r' hrun
  cases hrun
  exact h r

/-- A sequence adds what its halves add; what is known of the first one's value may be used. -/
theorem bindOf {m : Binding α} {P : α → Prop} {f : α → Binding β} (hm : Adds n m)
    (hP : Yields m P) (hf : ∀ a, P a → Adds k (f a)) : Adds (n + k) (m >>= f) := by
  intro r b r'' h
  obtain ⟨a, r', hfirst, hsecond⟩ := run_bind_eq_ok.mp h
  have hn := hm r a r' hfirst
  have hk := hf a (hP r a r' hfirst) r' b r'' hsecond
  omega

/-- A sequence adds what its halves add. -/
theorem bind {m : Binding α} {f : α → Binding β} (hm : Adds n m) (hf : ∀ a, Adds k (f a)) :
    Adds (n + k) (m >>= f) :=
  bindOf (P := fun _ => True) hm (fun _ _ _ _ => trivial) fun a _ => hf a

/-- A sequence adds what its second half adds if the first one adds nothing. -/
theorem after {m : Binding α} {f : α → Binding β} (hm : Adds 0 m) (hf : ∀ a, Adds n (f a)) :
    Adds n (m >>= f) :=
  (bind hm hf).mono (Nat.le_of_eq (Nat.zero_add n))

/-- A sequence that starts quietly adds what the rest adds. -/
theorem next {m : Binding α} {f : α → Binding β} (hm : Quiet m) (hf : ∀ a, Adds n (f a)) :
    Adds n (m >>= f) :=
  after (hm.adds 0) hf

/-- A sequence that ends quietly adds what the start adds. -/
theorem last {m : Binding α} {f : α → Binding β} (hm : Adds n m) (hf : ∀ a, Quiet (f a)) :
    Adds n (m >>= f) :=
  bind hm fun a => (hf a).adds 0

theorem ite {c : Prop} [Decidable c] {m m' : Binding α} (hm : Adds n m) (hm' : Adds n m') :
    Adds n (if c then m else m') := by
  split
  · exact hm
  · exact hm'

/-- Returning a value adds nothing to what follows. -/
theorem pure_bind {a : α} {f : α → Binding β} (hf : Adds n (f a)) :
    Adds n (Pure.pure a >>= f) := by
  rwa [LawfulMonad.pure_bind]

/-- A step that adds nothing, taken or left out before the rest. -/
theorem optional {c : Prop} [Decidable c] {m : Binding Unit} {f : Unit → Binding β}
    (hm : Adds 0 m) (hf : ∀ u, Adds n (f u)) : Adds n (if c then m >>= f else f ()) :=
  ite (after hm hf) (hf ())

/-- A registration adds nothing if it leaves the passes alone. -/
theorem register {f : Registry → Except MappingError Registry}
    (h : ∀ r r', f r = .ok r' → r'.passes = r.passes) : Adds n (Binding.register f) := by
  intro r u r' hrun
  rw [workload_eq_sum, workload_eq_sum, h r r' (run_register_eq_ok.mp hrun)]
  exact Nat.le_add_right _ _

end Adds

end Binding

/-! ## Weights of elements -/

namespace Element

/-- An element outweighs its children. -/
theorem weight_eq (node : Element) : node.weight = weightAll node.children + 1 := by
  cases node
  rfl

/-- How many of its elements a child may put off when it is bound as part of a collection's
key and element. -/
def contentWeight (node : Element) : Nat :=
  if node.tag? = some .compositeElement then node.weight else 0

/-- How many of its elements a child may put off when it is bound as part of a map's keys. -/
def keyWeight (node : Element) : Nat :=
  if node.tag? = some .compositeIndex ∨ node.tag? = some .indexManyToMany then node.weight else 0

/-- No child belongs both to the elements and to the keys of a collection. -/
theorem contentWeight_add_keyWeight_le (node : Element) :
    node.contentWeight + node.keyWeight ≤ node.weight := by
  unfold contentWeight keyWeight
  split
  · next htag =>
    rw [if_neg (by simp [htag])]
    exact Nat.le_refl _
  · split
    · exact Nat.le_of_eq (Nat.zero_add _)
    · exact Nat.zero_le _

/-- The children of a collection put off no more than they weigh. -/
theorem sum_contentWeight_add_sum_keyWeight_le (children : List Element) :
    (children.map contentWeight).sum + (children.map keyWeight).sum ≤ weightAll children := by
  induction children with
  | nil => exact Nat.le_refl 0
  | cons node rest ih =>
    have hnode := node.contentWeight_add_keyWeight_le
    rw [weightAll, List.map_cons, List.map_cons, List.sum_cons, List.sum_cons]
    omega

end Element

/-- Every pass has something to bind. -/
theorem DeferredPass.weight_pos (pass : DeferredPass) : 0 < pass.weight := by
  cases pass with
  | contents kind pass =>
    rw [weight, pass.node.weight_eq]
    exact Nat.succ_pos _
  | propertyRef pass => exact Nat.one_pos

/-! ## Properties, collections and components -/

/-- The number of passes that recording what a value refers to may queue. -/
def Value.deferrals : Value → Nat
  | .manyToOne _ => 1
  | _ => 0

theorem Value.deferrals_le_one (v : Value) : v.deferrals ≤ 1 := by
  cases v <;> simp [Value.deferrals]

/-- Completing a value from the backing class does not change its shape. -/
theorem Value.deferrals_reflected (reflection : Reflection) (className name : String)
    (v : Value) : (v.reflected reflection className name).deferrals = v.deferrals := by
  cases v <;> rfl

/-- Quiet writes add nothing. -/
theorem workload_of_quietWrites {r r' : Registry} (h : QuietWrites r r') :
    workload r' = workload r := by
  rw [workload_eq_sum, workload_eq_sum, h.alike.passes]

/-- Putting off the foreign key of an association queues one pass at most. -/
theorem workload_queuePropertyRef (r : Registry) (v : ManyToOne) :
    workload (r.queuePropertyRef v) ≤ workload r + 1 := by
  unfold Registry.queuePropertyRef
  split
  · split
    · exact Nat.le_succ _
    · exact Nat.le_of_eq (workload_addPass r _)
  · exact Nat.le_succ _

/-- Recording what a value refers to queues a pass for many-to-ones at most. -/
theorem workload_recordReferences (r : Registry) (owner : String) (isManyToMany : Bool)
    (v : Value) :
    workload (r.recordReferences owner isManyToMany v) ≤ workload r + v.deferrals := by
  have hrefer : ∀ toOne, workload (r.referTo toOne) = workload r := fun toOne =>
    workload_of_quietWrites (quietWrites_referTo r toOne)
  unfold Registry.recordReferences
  split
  · next v =>
    split
    · rw [hrefer]
      exact Nat.le_add_right _ _
    · have hqueued := workload_queuePropertyRef (r.referTo v.toOne) v
      rwa [hrefer] at hqueued
  · rw [hrefer]
    exact Nat.le_add_right _ _
  · split
    · exact Nat.le_refl _
    · exact Nat.le_refl _
  · exact Nat.le_add_right _ _

/-- A property adds what its value puts off. -/
theorem adds_createProperty (scope : Scope) (node : Element) (value : Value)
    (className : Option String) (owner : String) :
    Adds value.deferrals (createProperty scope node value className owner) := by
  unfold createProperty
  refine .next (.ofExcept _) fun name => .next .get fun r => .last (.modify fun r => ?_)
    fun _ => .bind (.modify fun r => quietWrites_constrainValue r _) fun _ => .ofExcept _
  refine Nat.le_trans (workload_recordReferences r _ _ _) (Nat.add_le_add_left ?_ _)
  cases className with
  | none => exact Nat.le_refl _
  | some className => exact Nat.le_of_eq (Value.deferrals_reflected _ _ _ _)

/-- A collection adds the pass for its contents. -/
theorem adds_bindCollection (scope : Scope) (node : Element) (kind : CollectionKind)
    (role : String) (owner : Owner) :
    Adds node.weight (bindCollection scope node kind role owner) := by
  unfold bindCollection
  refine .next (.ofExcept _) fun batchSize => ?_
  refine Adds.optional (.modify fun r => Nat.le_refl _) fun _ => ?_
  refine .next (steady_openElement _ _ _ _).quiet fun ⟨element, table⟩ => ?_
  refine .next (.mapM (fun _ => (steady_bindFilterUse _).quiet) _) fun filters => ?_
  split
  refine .after (.register fun _ _ h => ?_) fun _ => .last (.modify fun r => ?_) fun _ => .pure _
  · rw [(addCollection_eq_ok.mp h).2]
  · exact Nat.le_of_eq (workload_addPass r _)

/-- What a collection is bound to is a reference to its role. -/
theorem yields_bindCollection (scope : Scope) (node : Element) (kind : CollectionKind)
    (role : String) (owner : Owner) :
    Yields (bindCollection scope node kind role owner) (· = .collection role) := by
  unfold bindCollection
  refine .next fun batchSize => ?_
  have hrest : ∀ k : Unit → Binding Value, (∀ u, Yields (k u) (· = .collection role)) →
      ∀ (c : Prop) [Decidable c] (m : Binding Unit),
        Yields (if c then m >>= k else k ()) (· = .collection role) :=
    fun k hk c _ m => .ite (fun _ => .next hk) fun _ => hk ()
  refine hrest _ (fun _ => .next fun ⟨element, table⟩ => .next fun filters => ?_) _ _
  split
  exact .next fun _ => .next fun _ => .pure rfl

mutual

/-- A component adds no more than it weighs. -/
theorem adds_bindComponent (scope : Scope) (site : ComponentSite) :
    ∀ node, Adds node.weight (bindComponent scope site node)
  | ⟨name, attributes, children, text⟩ => by
    rw [bindComponent]
    refine .next .get fun r => ?_
    split
    refine .last ((adds_bindMembers _ _ _ children).mono (Nat.le_succ _)) fun properties => ?_
    exact .optional (quiet_changeTable _ fun t => .createUniqueKey t _) fun _ => .pure _

/-- The members of a component add no more than they weigh. -/
theorem adds_bindMembers (scope : Scope) (site : ComponentSite) (className : Option String) :
    ∀ children, Adds (Element.weightAll children) (bindMembers scope site className children)
  | [] => by
    rw [bindMembers]
    exact .pure _
  | node :: rest => by
    unfold bindMembers
    extract_lets name rest'
    have hnone : Adds (Element.weightAll rest) (rest' none) :=
      adds_bindMembers _ _ _ rest
    have hsome : ∀ value : Value,
        Adds (value.deferrals + Element.weightAll rest) (rest' (some value)) := fun value =>
      .bind (adds_createProperty _ _ _ _ _) fun _ =>
        .last (adds_bindMembers _ _ _ rest) fun _ => .pure _
    have hplain : ∀ value : Value, value.deferrals = 0 →
        Adds (Element.weightAll rest) (rest' (some value)) := fun value hvalue => by
      have := hsome value
      rwa [hvalue, Nat.zero_add] at this
    have hany : ∀ value, Adds (Element.weightAll (node :: rest)) (rest' value) := by
      intro value
      have hpositive : node.weight = _ := node.weight_eq
      cases value with
      | none => exact hnone.mono (Nat.le_add_left _ _)
      | some value =>
        refine (hsome value).mono (Nat.add_le_add_right ?_ _)
        have hone := value.deferrals_le_one
        omega
    clear_value rest'
    rw [Element.weightAll] at hany ⊢
    split
    · exact .bindOf (adds_bindCollection _ _ _ _ _) (yields_bindCollection _ _ _ _ _)
        fun v hv => .pure_bind (hplain v (by rw [hv]; rfl))
    · exact .bind (adds_bindComponent _ _ node) fun _ => .pure_bind (hplain _ rfl)
    · exact .bind (adds_bindComponent _ _ node) fun _ => .pure_bind (hplain _ rfl)
    · exact .bind (adds_bindComponent _ _ node) fun _ => .pure_bind (hplain _ rfl)
    · exact .next (steady_bindOneToOne _ _ _ _).quiet fun _ => .pure_bind (hany _)
    · exact .next (steady_bindSimpleMember _ _ _ _).quiet hany
    · exact .pure_bind (hany _)

end

/-! ## Contents of collections -/

/-- A child of a collection puts off its own elements at most, if it is a composite element. -/
theorem adds_bindContent (scope : Scope) (owner : Owner) (c : Collection) (node : Element) :
    Adds node.contentWeight (bindContent scope owner c node) := by
  unfold bindContent
  dsimp only
  split
  · exact .next (steady_bindCollectionKey _ _ _).quiet fun _ => .pure _
  · exact .next (steady_bindSimpleValue _ _).quiet fun _ => .pure _
  · exact .next (quiet_bindManyToMany _ _ _) fun _ => .pure _
  · next htag =>
    rw [Element.contentWeight, if_pos htag]
    exact .last (adds_bindComponent _ _ _) fun _ => .pure _
  · exact .next (steady_bindAny _ _ _).quiet fun _ => .pure _
  · exact .next (.ofExcept _) fun _ => .pure _
  · exact .pure _

/-- By induction on the children; each of them adds what it weighs itself. -/
theorem adds_bindContentsOf (scope : Scope) (owner : Owner) (c : Collection)
    (children : List Element) :
    Adds (children.map Element.contentWeight).sum (bindContentsOf scope owner c children) := by
  induction children generalizing c with
  | nil => exact .pure _
  | cons node rest ih =>
    rw [List.map_cons, List.sum_cons]
    exact .bind (adds_bindContent _ _ _ _) fun c => ih c

/-- Showing a collection to the entity of its elements adds nothing. -/
theorem adds_addBackref (node : Element) (c : Collection) (kind : BackrefKind) :
    Adds 0 (addBackref node c kind) := by
  unfold addBackref
  split
  · exact .pure _
  · exact .next .get fun _ => .ite (.modify fun r => Nat.le_refl _) (.throw _)

/-- The key and the element of a collection add what the children put off. -/
theorem adds_bindContents (pass : CollectionPass) :
    Adds (pass.node.children.map Element.contentWeight).sum (bindContents pass) := by
  unfold bindContents
  refine .next .get fun _ => .next (.require _ _) fun c =>
    .next (steady_find _).quiet fun owner => ?_
  refine .next .get fun _ => .next (.ofExcept _) fun c => ?_
  refine .next (steady_bindCollectionCheck _ _).quiet fun c => ?_
  refine .bind (k := 0) (adds_bindContentsOf _ _ _ _) fun c => ?_
  refine .next (.modify fun r => quietWrites_constrainContents r _ _) fun _ => ?_
  exact .last (adds_addBackref _ _ _) fun _ => .pure _

/-- Showing the index of a collection adds nothing. -/
theorem adds_addIndexBackref (node : Element) (c : Collection) :
    Adds 0 (addIndexBackref node c) := by
  unfold addIndexBackref
  exact .ite (.pure _) (adds_addBackref _ _ _)

/-- A child of a map puts off its own elements at most, if it is a key of several columns or
another entity. -/
theorem adds_bindMapKey (scope : Scope) (c : Collection) (node : Element) :
    Adds node.keyWeight (bindMapKey scope c node) := by
  unfold bindMapKey
  dsimp only
  split
  · exact .next (steady_bindSimpleValue _ _).quiet fun _ => .ite (.throw_bind _ _) (.pure _)
  · next htag =>
    have hone : 1 ≤ node.keyWeight := by
      rw [Element.keyWeight, if_pos (.inr htag), node.weight_eq]
      exact Nat.le_add_left 1 _
    refine .next (steady_bindManyToOne _ _ _).quiet fun v => ?_
    refine .next (.modify fun r => quietWrites_referTo r _) fun _ => ?_
    refine .last ((Adds.modify fun r => workload_queuePropertyRef r v).mono hone) fun _ => ?_
    exact .bind (.modify fun r => quietWrites_constrainValue r _) fun _ => .pure _
  · next htag =>
    rw [Element.keyWeight, if_pos (.inl htag)]
    exact .next (steady_find _).quiet fun _ => .last (adds_bindComponent _ _ _) fun _ => .pure _
  · exact .next (steady_bindAny _ _ _).quiet fun _ => .pure _
  · exact .pure _

/-- By induction on the children; each of them adds what it weighs itself. -/
theorem adds_bindMapKeys (scope : Scope) (c : Collection) (children : List Element) :
    Adds (children.map Element.keyWeight).sum (bindMapKeys scope c children) := by
  induction children generalizing c with
  | nil => exact .pure _
  | cons node rest ih =>
    rw [List.map_cons, List.sum_cons]
    exact .bind (adds_bindMapKey _ _ _) fun c => ih c

/-- Only the keys of a map add anything besides the key and element of a collection. -/
theorem adds_bindIndexing (kind : PassKind) (pass : CollectionPass) (c : Collection) :
    Adds (pass.node.children.map Element.keyWeight).sum (bindIndexing kind pass c) := by
  cases kind with
  | plain => exact .pure _
  | identifierBag => exact (steady_bindBagIdentifier _ _).quiet.adds _
  | list =>
    refine .next (.require _ _) fun node => .next (steady_bindSimpleValue _ _).quiet fun v => ?_
    refine .next (.ofExcept _) fun base => ?_
    exact .after (adds_addIndexBackref _ _) fun _ => .pure _
  | map =>
    refine .bind (k := 0) (adds_bindMapKeys _ _ _) fun c => ?_
    refine .ite (.throw_bind _ _) ?_
    exact .last (adds_addIndexBackref _ _) fun _ => .pure _

/-- Writing a collection back adds nothing. -/
theorem adds_storeCollection (c : Collection) : Adds 0 (storeCollection c) := by
  unfold storeCollection
  exact .next .get fun _ => .ite (.modify fun r => Nat.le_refl _) (.throw _)

/-- A pass adds less than it weighs: what a pass for the contents of a collection queues belongs
to the children of its element. -/
theorem adds_run (pass : DeferredPass) : Adds (pass.weight - 1) pass.run := by
  cases pass with
  | contents kind pass =>
    have hbound := Element.sum_contentWeight_add_sum_keyWeight_le pass.node.children
    have hall : Adds ((pass.node.children.map Element.contentWeight).sum
        + ((pass.node.children.map Element.keyWeight).sum + 0)) (bindCollectionPass kind pass) :=
      .bind (adds_bindContents pass) fun c =>
        .bind (adds_bindIndexing kind pass c) fun c => adds_storeCollection c
    refine hall.mono ?_
    rw [DeferredPass.weight, pass.node.weight_eq]
    omega
  | propertyRef pass => exact (quiet_bindPropertyRef pass).adds _

namespace Session

/-- A pass that is taken off the queue and ends well leaves less work than before. -/
theorem workload_lt_of_run {r rest r' : Registry} {pass : DeferredPass}
    (hnext : r.nextPass? = some (pass, rest)) (hrun : pass.run.run rest = .ok () r') :
    workload r' < workload r := by
  have hadded := adds_run pass rest () r' hrun
  have htaken := workload_nextPass hnext
  have hpositive := pass.weight_pos
  omega

/-! ## The loop over the passes -/

/-- A run of the loop over the deferred passes: where it starts, which passes it runs, and how
it ends. -/
inductive PassRun : Registry → List DeferredPass → EStateM.Result MappingError Registry Unit →
    Prop
  /-- No pass is left. -/
  | done {r : Registry} (hnext : r.nextPass? = none) : PassRun r [] (.ok () r)
  /-- The oldest pass fails, and the loop with it. -/
  | failure {r rest r' : Registry} {pass : DeferredPass} {e : MappingError}
      (hnext : r.nextPass? = some (pass, rest)) (hrun : pass.run.run rest = .error e r') :
      PassRun r [pass] (.error e r')
  /-- The oldest pass ends well, and the loop goes on. -/
  | step {r rest r' : Registry} {pass : DeferredPass} {log : List DeferredPass}
      {result : EStateM.Result MappingError Registry Unit}
      (hnext : r.nextPass? = some (pass, rest)) (hrun : pass.run.run rest = .ok () r')
      (hrest : PassRun r' log result) : PassRun r (pass :: log) result

namespace PassRun

variable {r : Registry} {log log' : List DeferredPass}
  {result result' : EStateM.Result MappingError Registry Unit}

/-- The loop can run in one way only. -/
theorem unique (h : PassRun r log result) (h' : PassRun r log' result') :
    log' = log ∧ result' = result := by
  induction h generalizing log' result' with
  | done hnext =>
    cases h' with
    | done => exact ⟨rfl, rfl⟩
    | failure hnext' => cases hnext.symm.trans hnext'
    | step hnext' => cases hnext.symm.trans hnext'
  | failure hnext hrun =>
    cases h' with
    | done hnext' => cases hnext.symm.trans hnext'
    | failure hnext' hrun' =>
      cases hnext.symm.trans hnext'
      cases hrun.symm.trans hrun'
      exact ⟨rfl, rfl⟩
    | step hnext' hrun' =>
      cases hnext.symm.trans hnext'
      cases hrun.symm.trans hrun'
  | step hnext hrun _ ih =>
    cases h' with
    | done hnext' => cases hnext.symm.trans hnext'
    | failure hnext' hrun' =>
      cases hnext.symm.trans hnext'
      cases hrun.symm.trans hrun'
    | step hnext' hrun' hrest' =>
      cases hnext.symm.trans hnext'
      cases hrun.symm.trans hrun'
      obtain ⟨rfl, rfl⟩ := ih hrest'
      exact ⟨rfl, rfl⟩

/-- Induction along a loop that ends well: no pass is left at its end, and each of its passes ends
well. -/
@[elab_as_elim]
theorem inductionOn_ok {r' : Registry}
    {motive : ∀ r log, PassRun r log (.ok () r') → Prop} {r : Registry} {log : List DeferredPass}
    (h : PassRun r log (.ok () r'))
    (done : ∀ (hnext : r'.nextPass? = none), motive r' [] (.done hnext))
    (step : ∀ {r rest r₁ : Registry} {pass : DeferredPass} {log : List DeferredPass}
      (hnext : r.nextPass? = some (pass, rest)) (hrun : pass.run.run rest = .ok () r₁)
      (hrest : PassRun r₁ log (.ok () r')), motive r₁ log hrest →
      motive r (pass :: log) (.step hnext hrun hrest)) : motive r log h := by
  -- The end of the loop is an index, and has to be a variable for the induction.
  have hall : ∀ {r log result}, PassRun r log result →
      ∀ hresult : result = .ok () r', ∀ h : PassRun r log (.ok () r'), motive r log h := by
    intro r log result hrun hresult
    induction hrun with
    | done hnext =>
      cases hresult
      exact fun _ => done hnext
    | failure => cases hresult
    | step hnext hrun hrest ih =>
      subst hresult
      exact fun _ => step hnext hrun hrest (ih rfl hrest)
  exact hall h rfl h

/-- Running the deferred passes is a finite run of the loop, with no more passes than the
workload says.  By induction along `runPasses`, whose guard always lets it go on. -/
theorem exists_of_runPasses (r : Registry) :
    ∃ log, PassRun r log (runPasses r) ∧ log.length ≤ workload r := by
  fun_induction runPasses r with
  | case1 r hnext => exact ⟨[], .done hnext, Nat.zero_le _⟩
  | case2 r pass rest hnext e r' hrun =>
    refine ⟨[pass], .failure hnext hrun, ?_⟩
    have htaken := workload_nextPass hnext
    have hpositive := pass.weight_pos
    rw [List.length_singleton]
    omega
  | case3 r pass rest hnext r' hrun hless ih =>
    obtain ⟨log, hlog, hlength⟩ := ih
    exact ⟨pass :: log, .step hnext hrun hlog, Nat.lt_of_le_of_lt hlength hless⟩
  | case4 r pass rest hnext r' hrun hless =>
    exact absurd (workload_lt_of_run hnext hrun) hless

end PassRun

end Session

end ObjectMapping
