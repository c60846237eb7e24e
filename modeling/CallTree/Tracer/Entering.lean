import CallTree.ChainState
import CallTree.Step.Operands
import CallTree.Tracer.Basic

/-!
# Entering frames

A creation opens a frame, and so does a call, except that a call of an account built into the
machine runs no steps and is passed over. A self-destruction is over at once: it is recorded as a
child of the top and opens nothing.

An input that reaches too far beyond memory is recorded as empty, with a warning. A step that is
refused leaves the tracer as it was.

The gas of a new frame is unknown, except that a call that takes a value and names no input is
granted the stipend.
-/

namespace CallTree

namespace Tracer

/-- The input that a step names, and the warning if it is out of reach. -/
def recordInput (t : Tracer) (step : Step) (region : Region) : Bytes × List Warning :=
  match region.read step.memory t.settings.paddingLimit with
  | .ok input => (input, [])
  | .error cause => ([], [.emptyInput cause step.opcode])

/-- Opens the frame of a creation. -/
def enterCreation (t : Tracer) (kind : FrameKind) (step : Step) : Outcome Unit :=
  match step.creationOperands with
  | .error e => .refused t e
  | .ok (value, region) =>
    let recorded := t.recordInput step region
    let frame : Frame :=
      { action := .create kind step.address none recorded.1 value
        opening := some ⟨step.gas, step.cost, none⟩ }
    ⟨t.push frame, recorded.2, .ok ()⟩

/-- The gas that a call is granted whatever its steps show. -/
def grantedStipend (t : Tracer) (kind : FrameKind) (input : Region) : Option Gas :=
  if kind.takesValue && input.len == 0 then some t.settings.stipend else none

/-- Opens the frame of a call. -/
def enterCall (t : Tracer) (kind : FrameKind) (step : Step) (state : ChainState) :
    Outcome Unit :=
  match step.callee with
  | .error e => .refused t e
  | .ok recipient =>
    if state.isBuiltIn recipient then .accepted t
    else match step.inputRegion kind with
      | .error e => .refused t e
      | .ok region =>
        let recorded := t.recordInput step region
        match step.returnRegion kind with
        | .error e => ⟨t, recorded.2, .error e⟩
        | .ok returnRegion =>
          let frame : Frame :=
            { action := .call kind step.address recipient recorded.1 (step.callValue kind)
              gas := t.grantedStipend kind region
              opening := some ⟨step.gas, step.cost, some returnRegion⟩ }
          ⟨t.push frame, recorded.2, .ok ()⟩

/-- Records a self-destruction. -/
def addSelfDestruct (t : Tracer) (step : Step) (state : ChainState) : Outcome Unit :=
  match step.operand 0 with
  | .error e => .refused t e
  | .ok beneficiary =>
    match state.balance step.address with
    | .error e => .refused t (.lookup e)
    | .ok balance =>
      .accepted <| t.pushLeaf
        { action := .selfDestruct step.address (Word.toAddress beneficiary) balance }

/-- Does what an instruction of a kind asks for. -/
def enter (t : Tracer) (kind : FrameKind) (step : Step) (state : ChainState) : Outcome Unit :=
  match kind with
  | .create | .create2 => t.enterCreation kind step
  | .selfDestruct => t.addSelfDestruct step state
  | .call | .callCode | .delegateCall | .staticCall => t.enterCall kind step state

end Tracer

end CallTree
