import CallTree.Record.Basic
import CallTree.Tracer.Observe

/-!
# Tracing a transaction

A session starts from a tracer that has seen nothing, takes in the steps until one is refused,
and then lets the transaction describe the root (`Tracer.finish`). The result is the list of
records. After a refusal the tracer is left as the refused step left it, and the root is not
described.

A root that failed keeps its own message rather than that of the transaction.
-/

namespace CallTree

/-- Describes the root by its transaction. -/
def Frame.describe (tx : Transaction) (frame : Frame) : Frame :=
  let error := frame.error.or tx.error
  { frame with
    action := tx.action
    gas := some tx.gas
    gasUsed := some tx.gasUsed
    output := if Failure.retainsOutput error tx.output then some tx.output else none
    error := error
    opening := none }

/-- Takes in one more step, unless a step was refused before. -/
def Outcome.next (state : ChainState) (outcome : Outcome Unit) (step : Step) : Outcome Unit :=
  match outcome.result with
  | .error _ => outcome
  | .ok () =>
    let observed := outcome.tracer.observe step state
    { observed with warnings := outcome.warnings ++ observed.warnings }

namespace Tracer

/-- Takes in the end of the transaction. -/
def finish (t : Tracer) (tx : Transaction) : Tracer :=
  { t with
    forest := t.forest.modify rootId (Frame.describe tx)
    transaction := some tx }

/-- The records of all frames that hang together with the root. -/
def records (t : Tracer) : List Record :=
  t.forest.records t.transaction

/-- The frame in which the failure of the transaction began, if its root failed. -/
def failureOrigin (t : Tracer) : Option Visit :=
  t.forest.failureOrigin

/-- The path to the frame in which the failure of the transaction began. -/
def failurePath (t : Tracer) : Option (List Nat) :=
  t.failureOrigin.map (·.path)

/-- Takes in steps until one is refused. -/
def observeAll (t : Tracer) (steps : List Step) (state : ChainState) : Outcome Unit :=
  steps.foldl (Outcome.next state) (.accepted t)

/-- Traces a transaction from its beginning to its end. -/
def trace (t : Tracer) (steps : List Step) (state : ChainState) (tx : Transaction) :
    Outcome (List Record) :=
  let outcome := t.reset.observeAll steps state
  match outcome.result with
  | .error e => ⟨outcome.tracer, outcome.warnings, .error e⟩
  | .ok () =>
    let finished := outcome.tracer.finish tx
    ⟨finished, outcome.warnings, .ok finished.records⟩

end Tracer

end CallTree
