import ObjectMapping.Binding.Contents
import ObjectMapping.Binding.Document

/-!
# Sessions

A session builds one registry from documents that may arrive in any order.  Binding a
document may end the waiting of others, so the queue is worked off after each; when all
documents are there, `finish` runs the deferred passes.

Two loops have no bound in the data they run over.  `workOff` binds the documents that are
ready, round after round: a round that binds a document makes the queue shorter, and after
one that binds none nothing more can become ready.  `runPasses` runs passes that queue
further passes: what a pass queues belongs to proper parts of its own element, so the number
of elements still to be bound falls.
-/

namespace ObjectMapping

namespace Session

/-- Binds documents one after another, and counts those that did not have to wait again. -/
def bindAll : List PendingDocument → Binding Nat
  | [] => return 0
  | pending :: rest => do
    let outcome ← bindDocument pending.document pending.metas
    let others ← bindAll rest
    return others + (if outcome = .bound then 1 else 0)

/-- The number of documents that wait for superclasses. -/
def backlog (r : Registry) : Nat := r.waiting.length

/-- Binds the waiting documents whose superclasses are registered, until none is left, and
counts them, from a number of documents bound before. -/
def workOff (bound : Nat) (r : Registry) : EStateM.Result MappingError Registry Nat :=
  let (ready, rest) := r.takeReady
  if ready.isEmpty then .ok bound rest
  else
    match (bindAll ready).run rest with
    | .error e r' => .error e r'
    | .ok n r' => if backlog r' < backlog r then workOff (bound + n) r' else .ok (bound + n) r'
termination_by backlog r

/-- Binds the waiting documents whose superclasses are registered, until none is left, and
counts them. -/
def processQueue : Binding Nat := workOff 0

/-- Binds a document, and then those that waited for it. -/
def addDocument (document : Document) (metas : MetaMap := .empty) : Binding BindOutcome := do
  let outcome ← bindDocument document metas
  if outcome = .bound then discard processQueue
  return outcome

/-- The number of elements that the queued passes may still bind. -/
def workload (r : Registry) : Nat := r.passes.foldr (fun pass n => pass.weight + n) 0

/-- Runs the deferred passes, oldest first, until none is left. -/
def runPasses (r : Registry) : EStateM.Result MappingError Registry Unit :=
  match r.nextPass? with
  | none => .ok () r
  | some (pass, rest) =>
    match pass.run.run rest with
    | .error e r' => .error e r'
    | .ok () r' => if workload r' < workload r then runPasses r' else .ok () r'
termination_by workload r

/-- Ends a session: no document may be left waiting, every deferred pass is run, and every
property that is referred to must exist. -/
def finish : Binding Unit := do
  discard processQueue
  let r ← get
  unless r.waiting.isEmpty do throw (.superclassesNotFound r.awaitedNames)
  runPasses
  Binding.register Registry.applyPropertyReferences

end Session

end ObjectMapping
