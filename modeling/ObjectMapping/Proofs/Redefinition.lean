import ObjectMapping.Proofs.Exactness
import ObjectMapping.Proofs.Writes

/-!
# Redefinitions

A type alias or a filter may be defined again, by the same document or by a later one, and the last
definition counts.  Values that are bound along with their class have looked their aliases up by
then, but the contents of collections are bound when the session is ended.  So they are bound by the
definitions that are in force in the end, and these are the ones of their own document only as long
as no later document defines one of the names once more.
-/

namespace ObjectMapping

open Binding Registry

/-- Functions that agree on the members of a list have the same results along it. -/
theorem mapM_congr_of_mem {α β ε : Type} {f g : α → Except ε β} {l : List α}
    (h : ∀ a ∈ l, f a = g a) : l.mapM f = l.mapM g := by
  induction l with
  | nil => rfl
  | cons a l ih =>
    rw [List.forall_mem_cons] at h
    rw [List.mapM_cons, List.mapM_cons, h.1, ih h.2]

/-- Steps that agree on the members of a list lead to the same result along it. -/
theorem foldlM_congr_of_mem {α β ε : Type} {f g : β → α → Except ε β} {l : List α}
    (h : ∀ a ∈ l, ∀ b, f b a = g b a) (b : β) : l.foldlM f b = l.foldlM g b := by
  induction l generalizing b with
  | nil => rfl
  | cons a l ih =>
    rw [List.forall_mem_cons] at h
    rw [List.foldlM_cons, List.foldlM_cons, h.1 b]
    exact congrArg _ (funext fun b' => ih h.2 b')

/-! ## Names that are looked up -/

namespace Element

/-- The key, the element or the index of a collection names a type. -/
def ReadsType (node : Element) (name : String) : Prop :=
  ∃ child ∈ node.children, (child.tag? ∈ [some .key, some .element, some .index] ∨
    child.name = "list-index") ∧ (DeclaredType.ofElement child).name = some name

/-- A many-to-many of a collection applies a filter without saying under which condition. -/
def ReadsFilter (node : Element) (name : String) : Prop :=
  ∃ child ∈ node.children, child.tag? = some .manyToMany ∧
    ∃ filter ∈ child.childrenNamed "filter",
      filter.attribute? "name" = some name ∧ conditionOf filter = none

end Element

namespace Registry

variable {r r' r'' : Registry} {node : Element}

/-- The names that an element looks up are defined alike. -/
structure AgreesOn (r r' : Registry) (node : Element) : Prop where
  types : ∀ name, node.ReadsType name → r'.typeDefinition? name = r.typeDefinition? name
  filters : ∀ name, node.ReadsFilter name → r'.filterDefinition? name = r.filterDefinition? name

namespace AgreesOn

theorem refl (r : Registry) (node : Element) : AgreesOn r r node :=
  ⟨fun _ _ => rfl, fun _ _ => rfl⟩

theorem trans (h : AgreesOn r r' node) (h' : AgreesOn r' r'' node) : AgreesOn r r'' node :=
  ⟨fun name hname => (h'.types name hname).trans (h.types name hname),
    fun name hname => (h'.filters name hname).trans (h.filters name hname)⟩

/-- A type is resolved alike if its name is one that is looked up. -/
theorem declaredType (h : AgreesOn r r' node) {child : Element}
    (hchild : ∀ name, (DeclaredType.ofElement child).name = some name → node.ReadsType name) :
    r'.declaredType child = r.declaredType child := by
  unfold Registry.declaredType DeclaredType.resolve
  cases hname : (DeclaredType.ofElement child).name with
  | none => rfl
  | some name => rw [Option.bind_some, Option.bind_some, h.types name (hchild name hname)]

/-- So is the condition of a filter. -/
theorem filterUse (h : AgreesOn r r' node) {filter : Element}
    (hfilter : ∀ name, filter.attribute? "name" = some name → conditionOf filter = none →
      node.ReadsFilter name) : r'.filterUse filter = r.filterUse filter := by
  unfold Registry.filterUse
  cases hname : filter.attribute? "name" with
  | none => rfl
  | some name =>
    cases hcondition : conditionOf filter with
    | some condition => rfl
    | none => simp only [h.filters name (hfilter name hname hcondition)]

theorem readContent (h : AgreesOn r r' node) {child : Element} (hchild : child ∈ node.children)
    (t : ContentReading) : r'.readContent t child = r.readContent t child := by
  have htype : child.tag? ∈ [some .key, some .element, some .index] →
      r'.declaredType child = r.declaredType child := fun htag =>
    h.declaredType fun name hname => ⟨child, hchild, .inl htag, hname⟩
  unfold Registry.readContent
  split
  · next htag => rw [htype (by simp [htag])]
  · next htag => rw [htype (by simp [htag])]
  · next htag =>
    have hfilters : (child.childrenNamed "filter").mapM r'.filterUse
        = (child.childrenNamed "filter").mapM r.filterUse := by
      refine mapM_congr_of_mem fun filter hfilter => h.filterUse fun name hname hcondition => ?_
      exact ⟨child, hchild, htag, filter, hfilter, hname, hcondition⟩
    rw [hfilters]
  · rfl
  · rfl
  · rfl

theorem readMapKey (h : AgreesOn r r' node) {child : Element} (hchild : child ∈ node.children)
    (t : ContentReading) : r'.readMapKey t child = r.readMapKey t child := by
  unfold Registry.readMapKey
  split
  · next htag =>
    rw [h.declaredType fun name hname => ⟨child, hchild, .inl (by simp [htag]), hname⟩]
  all_goals rfl

theorem readIndex (h : AgreesOn r r' node) (t : ContentReading) (kind : PassKind) :
    r'.readIndex t node kind = r.readIndex t node kind := by
  cases kind with
  | plain | identifierBag => rfl
  | list =>
    have hposition : ∀ child, (node.child? "list-index").or (node.child? "index") = some child →
        r'.declaredType child = r.declaredType child := by
      intro child hchild
      refine h.declaredType fun name hname => ?_
      rcases Option.or_eq_some_iff.mp hchild with hfound | ⟨-, hfound⟩
      · have hlabel : child.name = "list-index" := by simpa using List.find?_some hfound
        exact ⟨child, Element.mem_children_of_child? hfound, .inr hlabel, hname⟩
      · have hlabel : child.name = "index" := by simpa using List.find?_some hfound
        have htag : child.tag? = some .index := by rw [Element.tag?, hlabel]; rfl
        exact ⟨child, Element.mem_children_of_child? hfound, .inl (by simp [htag]), hname⟩
    unfold Registry.readIndex
    cases hchild : (node.child? "list-index").or (node.child? "index") with
    | none => rfl
    | some child => simp only [Option.map_some, hposition child hchild]
  | map => exact List.foldl_ext _ _ _ fun t child hchild => h.readMapKey hchild t

/-- The contents of a collection read alike if the names that they look up are defined alike. -/
theorem readContents (h : AgreesOn r r' node) (kind : PassKind) :
    r'.readContents kind node = r.readContents kind node := by
  unfold Registry.readContents
  rw [foldlM_congr_of_mem fun child hchild t => h.readContent hchild t]
  exact congrArg _ (funext fun t => congrArg _ (h.readIndex t kind))

end AgreesOn

/-- Registries with the same definitions agree on every element. -/
theorem SameDefinitions.agreesOn (h : SameDefinitions r r') (node : Element) :
    AgreesOn r r' node :=
  ⟨fun name _ => by rw [typeDefinition?, typeDefinition?, h.types],
    fun name _ => by rw [filterDefinition?, filterDefinition?, h.filters]⟩

/-- An alias that is not looked up may be defined. -/
theorem agreesOn_addTypeDefinition (r : Registry) {d : TypeDefinition}
    (hd : ¬ node.ReadsType d.name) : AgreesOn r (r.addTypeDefinition d) node := by
  refine ⟨fun name hname => ?_, fun _ _ => rfl⟩
  rw [typeDefinition?, addTypeDefinition, KeyedList.get?_insert, if_neg]
  · rfl
  · rintro rfl
    exact hd hname

/-- So may a filter. -/
theorem agreesOn_addFilterDefinition (r : Registry) {d : FilterDefinition}
    (hd : ¬ node.ReadsFilter d.name) : AgreesOn r (r.addFilterDefinition d) node := by
  refine ⟨fun _ _ => rfl, fun name hname => ?_⟩
  rw [filterDefinition?, addFilterDefinition, KeyedList.get?_insert, if_neg]
  · rfl
  · rintro rfl
    exact hd hname

end Registry

/-! ## Documents -/

/-- A document defines a name that an element looks up. -/
def Document.Redefines (document : Document) (node : Element) : Prop :=
  (∃ d ∈ document.root.childrenNamed "typedef", ∃ name,
    d.attribute? "name" = some name ∧ node.ReadsType name) ∨
  ∃ d ∈ document.root.childrenNamed "filter-def", ∃ name,
    d.attribute? "name" = some name ∧ node.ReadsFilter name

variable {r r' : Registry}

/-- Classes are bound without defining anything, and no document starts to wait. -/
theorem Enrollment.frame (h : Enrollment r r') :
    SameDefinitions r r' ∧ r'.waiting = r.waiting := by
  cases h with
  | elaborate h =>
    cases h with
    | prepare h => exact ⟨h.sameDefinitions, h.sideWrites.waiting⟩
    | change => exact ⟨⟨rfl, rfl⟩, rfl⟩
  | entity h =>
    obtain ⟨-, rfl⟩ := addEntity_eq_ok.mp h
    exact ⟨⟨rfl, rfl⟩, rfl⟩

/-- Nor does one while the contents of a document are bound. -/
theorem waiting_bindRoot (root : Element) (metas : MetaMap) (r : Registry) :
    ((bindRoot root metas).after r).waiting = r.waiting := by
  have hsteps := entering_bindRoot root metas r
  generalize (bindRoot root metas).after r = r' at hsteps
  induction hsteps with
  | refl => rfl
  | tail _ hstep ih =>
    cases hstep with
    | enroll h => exact h.frame.2.trans ih
    | define h => cases h <;> exact ih

/-- Agreement on the names that an element looks up is kept. -/
def agreement (node : Element) : Upkeep where
  invariant _ := True
  keeps r r' := r.AgreesOn r' node
  refl r := .refl r node
  trans := .trans

/-- A document that defines none of the names that an element looks up leaves them as they are. -/
theorem agreesOn_bindRoot (r : Registry) {document : Document} (metas : MetaMap) {node : Element}
    (h : ¬ document.Redefines node) :
    r.AgreesOn ((bindRoot document.root metas).after r) node := by
  have hwalked : Walked (agreement node) fun _ _ => True :=
    walked_of_enrollment fun _ _ hstep _ => ⟨hstep.frame.1.agreesOn node, trivial⟩
  have hdefined : DefinesKept (agreement node) document.root := by
    refine ⟨fun d hd r => ?_, fun d hd r => ?_⟩
    · unfold bindFilterDefinition
      refine .require_bind fun name hname => .write fun _ => ⟨?_, trivial⟩
      exact agreesOn_addFilterDefinition r fun hread => h (.inr ⟨d, hd, name, hname, hread⟩)
    · unfold bindTypeDefinition
      refine .require_bind fun name hname => .require_bind fun _ _ => .write fun _ => ⟨?_, trivial⟩
      exact agreesOn_addTypeDefinition r fun hread => h (.inl ⟨d, hd, name, hname, hread⟩)
  have hbinds := hwalked.upholds_bindRoot (r := r) metas (fun _ _ => trivial) hdefined
  exact (hbinds.advances trivial).keeps

/-- Nor is anything defined by a deferred pass, and no document starts to wait. -/
theorem frame_pass {rest : Registry} {pass : DeferredPass}
    (hnext : r.nextPass? = some (pass, rest)) :
    SameDefinitions r (pass.run.after rest) ∧ (pass.run.after rest).waiting = r.waiting := by
  obtain ⟨passes, -, rfl⟩ := nextPass?_eq_some_iff.mp hnext
  have hsteps := passing_run pass { r with passes }
  generalize pass.run.after { r with passes } = r' at hsteps
  induction hsteps with
  | refl => exact ⟨⟨rfl, rfl⟩, rfl⟩
  | tail _ hstep ih =>
    cases hstep with
    | prepare h => exact ⟨ih.1.trans h.sameDefinitions, h.sideWrites.waiting.trans ih.2⟩
    | reveal | store => exact ⟨ih.1.trans ⟨rfl, rfl⟩, ih.2⟩

namespace Session

/-! ## Stages of a session -/

/-- One stage of a session, in which at most one document is bound, and that one is one of the
given documents. -/
inductive Stage (documents : Document → Prop) : Registry → Registry → Prop
  /-- A document is bound, whether that ends well or in an error. -/
  | bind (r : Registry) {document : Document} (metas : MetaMap) (h : documents document) :
      Stage documents r ((bindRoot document.root metas).after r)
  /-- The queue of waiting documents is changed. -/
  | waiting (r : Registry) (waiting : List PendingDocument) :
      Stage documents r { r with waiting }
  /-- The oldest deferred pass is run, whether that ends well or in an error. -/
  | pass {r rest : Registry} {pass : DeferredPass} (h : r.nextPass? = some (pass, rest)) :
      Stage documents r (pass.run.after rest)
  /-- The recorded references are applied. -/
  | references {r r' : Registry} (h : r.applyPropertyReferences = .ok r') : Stage documents r r'

variable {documents : Document → Prop}

/-- The stages of a session whose waiting documents are among the given ones. -/
def stages (documents : Document → Prop) : Upkeep where
  invariant r := ∀ pending ∈ r.waiting, documents pending.document
  keeps := Relation.ReflTransGen (Stage documents)
  refl _ := .refl
  trans := .trans

/-- Sessions go from stage to stage. -/
theorem upkept_stages : Upkept (stages documents) fun arrival => documents arrival.document where
  waiting hr := hr
  setWaiting _ hwaiting := ⟨.single (.waiting _ _), hwaiting⟩
  upholds_bindRoot {r document} metas hdocument hr := by
    refine ⟨⟨.single (.bind r metas hdocument), fun pending hpending => ?_⟩, fun _ _ _ => trivial⟩
    rw [waiting_bindRoot] at hpending
    exact hr pending hpending
  nextPass hr hnext := by
    refine ⟨.single (.pass hnext), fun pending hpending => ?_⟩
    rw [(frame_pass hnext).2] at hpending
    exact hr pending hpending
  applyPropertyReferences hr happlied := by
    refine ⟨.single (.references happlied), ?_⟩
    obtain ⟨entities, rfl⟩ := (marks_of_applyPropertyReferences happlied).1.frame
    exact hr

/-- Every call goes from stage to stage, and binds its own document and those that wait at most. -/
theorem stages_of_call {c : Call}
    (hdocument : ∀ document, c.document? = some document → documents document)
    (hwaiting : ∀ pending ∈ r.waiting, documents pending.document) :
    (stages documents).Advances r (c.run.after r) :=
  have hcall := upkept_stages.upholds_call (r := r) (c := c) fun arrival harrival =>
    hdocument arrival.document (Call.document?_of_arrival? harrival)
  hcall.advances hwaiting

/-- A stage in which no name is redefined that an element looks up. -/
theorem Stage.agreesOn {node : Element} (h : Stage documents r r')
    (hdocuments : ∀ document, documents document → ¬ document.Redefines node) :
    r.AgreesOn r' node := by
  cases h with
  | bind metas h => exact agreesOn_bindRoot r metas (hdocuments _ h)
  | waiting => exact ⟨fun _ _ => rfl, fun _ _ => rfl⟩
  | pass hnext => exact (frame_pass hnext).1.agreesOn node
  | references h => exact (sameDefinitions_applyPropertyReferences h).agreesOn node

/-- Any number of such stages. -/
theorem agreesOn_of_stages {node : Element} (h : Relation.ReflTransGen (Stage documents) r r')
    (hdocuments : ∀ document, documents document → ¬ document.Redefines node) :
    r.AgreesOn r' node := by
  induction h with
  | refl => exact .refl r node
  | tail _ hstage ih => exact ih.trans (hstage.agreesOn hdocuments)

/-! ## Ended sessions -/

/-- Once an open session is ended well, the contents of every collection are what its element reads
in the end.  It read the same at any earlier stage after which no document was bound that defines a
name that it looks up; in particular, when its own document was bound, unless a later one
redefines such a name. -/
theorem contents_read_at_end {options : RegistryOptions} {r r' : Registry} (h : Open options r)
    (hfinish : finish.run r = .ok () r') :
    ∃ log r₁, PassRun (processQueue.after r) log (.ok () r₁) ∧
      ∀ c ∈ r'.collections.values, ∃ pass, PassOf log c pass ∧
        r'.readContents c.kind.passKind pass.node = .ok c.reading ∧
        ∀ earlier later, Relation.ReflTransGen (Stage later) earlier r' →
          (∀ document, later document → ¬ document.Redefines pass.node) →
          earlier.readContents c.kind.passKind pass.node = .ok c.reading := by
  obtain ⟨log, r₁, hlog, hfinished⟩ := h.finished hfinish
  refine ⟨log, r₁, hlog, fun c hc => ?_⟩
  obtain ⟨pass, hpass, hreads⟩ := hfinished.reads hc
  refine ⟨pass, hpass, hreads, fun earlier later hstages hlater => ?_⟩
  rw [← (agreesOn_of_stages hstages hlater).readContents]
  exact hreads

/-- A type alias. -/
def aliasElement (name typeClass : String) : Element where
  name := "typedef"
  attributes := .ofList [("name", name), ("class", typeClass)]

/-- An order with a total and a set of prices, the types of which are named by an alias. -/
def pricedOrders : Document := documentOf [
  aliasElement "money" "CentsType",
  identifiedClass "Order" [
    { name := "property", attributes := .ofList [("name", "total"), ("type", "money")] },
    namedElement "set" "prices" [
      { name := "key", attributes := .ofList [("column", "order_id"), ("type", "long")] },
      { name := "element", attributes := .ofList [("column", "price"), ("type", "money")] }]]]

/-- Invoices, which define no alias. -/
def invoices : Document := documentOf [identifiedClass "Invoice" []]

/-- The session after the orders were bound. -/
def orderSession : Registry := (Call.bind pricedOrders .empty).run.after { options := {} }

/-- The session after the invoices were added, too. -/
def invoiceSession : Registry := (Call.add invoices .empty).run.after orderSession

/-- The type of the prices of an order. -/
def priceType (r : Registry) : Option DeclaredType :=
  (r.collection? "Order.prices").bind fun c => c.reading.element

/-- The invoices define nothing, so all contents are bound as they read before. -/
theorem contents_read_at_end_invoices : Open {} invoiceSession ∧
    ∃ r', finish.run invoiceSession = .ok () r' ∧
      priceType r' = some { name := some "CentsType" } ∧
      ∃ log r₁, PassRun (processQueue.after invoiceSession) log (.ok () r₁) ∧
        ∀ c ∈ r'.collections.values, ∃ pass, PassOf log c pass ∧
          orderSession.readContents c.kind.passKind pass.node = .ok c.reading := by
  have hopen : Open {} orderSession := .call .start _ (fun hfinish => nomatch hfinish)
  have hlater : Open {} invoiceSession := hopen.call _ (fun hfinish => nomatch hfinish)
  obtain ⟨⟨⟩, hrun⟩ := exists_run_of_succeeds (m := finish) (r := invoiceSession)
    (by decide +kernel)
  obtain ⟨log, r₁, hlog, hreads⟩ := contents_read_at_end hlater hrun
  have hsettled : orderSession.waiting = [] := by decide +kernel
  have hadded : (stages (· = invoices)).Advances orderSession invoiceSession :=
    stages_of_call (fun _ hsome => (Option.some.inj hsome).symm) (by simp [hsettled])
  have hended : (stages (· = invoices)).Advances invoiceSession (finish.after invoiceSession) :=
    stages_of_call (c := .finish) nofun hadded.invariant
  refine ⟨hlater, _, hrun, by decide +kernel, log, r₁, hlog, fun c hc => ?_⟩
  obtain ⟨pass, hpass, -, hearlier⟩ := hreads c hc
  refine ⟨pass, hpass, hearlier orderSession _ (hadded.trans hended).keeps ?_⟩
  rintro document rfl (⟨d, hd, -⟩ | ⟨d, hd, -⟩)
  · exact List.not_mem_nil hd
  · exact List.not_mem_nil hd

/-- A document that gives the alias of the prices another type. -/
def changedCurrency : Arrival := ⟨documentOf [aliasElement "money" "EurosType"], .empty⟩

/-- A pass left a collection behind whose contents are not what its element read in an earlier
registry. -/
def misread (earlier r : Registry) : DeferredPass → Bool
  | .contents kind pass => (r.collection? pass.role).all fun c =>
      decide (earlier.readContents kind pass.node ≠ .ok c.reading)
  | .propertyRef _ => false

/-- The contents of a collection need not be what its element read when its document was bound: if
the currency is changed later, the prices are bound with the new one. -/
theorem contents_redefined : ¬ ∀ (options : RegistryOptions) (r₀ : Registry) (document : Document)
    (metas : MetaMap) (later : List Arrival) (r' : Registry), Open options r₀ →
      let r₁ := (Call.bind document metas).run.after r₀
      finish.run ((addAll later).after r₁) = .ok () r' →
      ∀ kind pass, .contents kind pass ∈ r₁.passes → .contents kind pass ∉ r₀.passes →
        ∃ c, r'.collection? pass.role = some c ∧
          r₁.readContents kind pass.node = .ok c.reading := by
  intro hclaim
  obtain ⟨⟨⟩, hrun⟩ := exists_run_of_succeeds (m := finish)
    (r := (addAll [changedCurrency]).after orderSession) (by decide +kernel)
  have hmisread : orderSession.passes.any (misread orderSession
      (finish.after ((addAll [changedCurrency]).after orderSession))) = true := by decide +kernel
  obtain ⟨queued, hqueued, hother⟩ := List.any_eq_true.mp hmisread
  cases queued with
  | propertyRef pass => cases hother
  | contents kind pass =>
    obtain ⟨c, hfound, hreads⟩ := hclaim {} _ pricedOrders .empty [changedCurrency] _ .start hrun
      kind pass hqueued List.not_mem_nil
    rw [misread, hfound, Option.all_some] at hother
    exact of_decide_eq_true hother hreads

end Session

end ObjectMapping
