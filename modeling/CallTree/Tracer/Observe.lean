import CallTree.Tracer.Closing
import CallTree.Tracer.Entering

/-!
# Observing steps

Each step is one of four things, looked for in this order.
1. A report that the instruction cannot be executed: the top fails and is closed.
2. One of the instructions that add a frame (`Tracer.enter`).
3. The instruction that gives back the changes of the top: the top fails, but stays open.
4. Any other instruction. Where its depth is that of the frame below the top, the top is closed.

In the last two cases the step is also the one that tells the allowance of a frame just opened.
If the step does not belong to that frame, the frame ran no step and its allowance stays unknown.
-/

namespace CallTree

namespace Tracer

/-- Takes the gas of a step as the allowance of the top, if it is awaited and the step belongs to
the top. -/
def sampleAllowance (t : Tracer) (step : Step) : Tracer :=
  if t.awaitsAllowance then
    let forest :=
      if t.openCount ≤ step.depth then
        t.forest.modify t.top fun frame => { frame with gas := frame.gas.or (some step.gas) }
      else t.forest
    { t with forest := forest, awaitsAllowance := false }
  else t

/-- The top gives back its changes. -/
def revertTop (t : Tracer) : Tracer :=
  { t with
    forest := t.forest.modify t.top fun frame =>
      { frame with error := some Failure.revertedMessage } }

/-- Takes in one step. -/
def observe (t : Tracer) (step : Step) (state : ChainState) : Outcome Unit :=
  match step.error with
  | some message => .accepted (t.fail message)
  | none =>
    match FrameKind.ofOpcode? step.opcode with
    | some kind => t.enter kind step state
    | none =>
      let sampled := t.sampleAllowance step
      if step.opcode = revertOpcode then .accepted sampled.revertTop
      else if step.depth + 1 = sampled.openCount then sampled.close step state
      else .accepted sampled

end Tracer

end CallTree
