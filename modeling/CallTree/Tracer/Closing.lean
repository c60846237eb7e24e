import CallTree.ChainState
import CallTree.Failure
import CallTree.Step
import CallTree.Tracer.Basic

/-!
# Closing frames

A frame is closed by the first step back in its caller. The outcome then lies on top of the
stack: for a call a flag, for a creation the new account, and zero for a failure of either. The
close settles what the frame used and what came of it (`Frame.settle`), and makes the frame the
last child of its caller. That happens even where the step is refused in the middle of it.

A frame that fails without having said why carries the message `internal failure`.

A report of failure closes the top at once: all gas that it was granted is used up. A report about
a frame that has failed already says nothing new. The root stays open whatever happens.
-/

namespace CallTree

/-- What comes of settling a frame. -/
structure Settlement where
  frame : Frame
  warnings : List Warning
  result : Except Refusal Unit

namespace Frame

/-- Charges a creation, where the caller has `remaining` after it. -/
def chargeCreation (frame : Frame) (remaining : Gas) : Frame :=
  { frame with
    gasUsed := (frame.opening.map (·.usedByCreation remaining)).or frame.gasUsed
    opening := none }

/-- Charges a call, where the caller has `remaining` after it. Nothing is charged if the gas
granted to the call is unknown. -/
def chargeCall (frame : Frame) (remaining : Gas) : Frame :=
  let used := do
    let granted ← frame.gas
    let opening ← frame.opening
    some (opening.usedByCall granted remaining)
  { frame with gasUsed := used.or frame.gasUsed, opening := none }

/-- Marks a frame as failed, unless it has failed with a message of its own. -/
def failUnexplained (frame : Frame) : Frame :=
  { frame with error := frame.error.or (some Failure.unexplainedMessage) }

/-- Settles the creation of an account, whose code becomes the output. -/
def settleCreated (frame : Frame) (kind : FrameKind) (creator : Address) (init : Bytes)
    (value : Word) (created : Address) (state : ChainState) : Settlement :=
  let known := { frame with action := .create kind creator (some created) init value }
  match state.code created with
  | .ok code => ⟨{ known with output := some code }, [], .ok ()⟩
  | .error e => ⟨known, [], .error (.lookup e)⟩

/-- Settles a call that succeeded, whose output lies in the memory of the caller. -/
def settleReturned (frame : Frame) (id : FrameId) (region : Option Region) (memory : Bytes)
    (limit : UInt64) : Settlement :=
  match region with
  | none => ⟨frame, [], .ok ()⟩
  | some region =>
    match region.read memory limit with
    | .ok output => ⟨{ frame with output := some output }, [], .ok ()⟩
    | .error cause => ⟨frame, [.outputUnset cause id], .ok ()⟩

/-- Settles a frame at the first step back in its caller. -/
def settle (frame : Frame) (id : FrameId) (step : Step) (state : ChainState) (limit : UInt64) :
    Settlement :=
  match step.operand 0 with
  | .error e => ⟨frame, [], .error e⟩
  | .ok outcome =>
    match frame.action with
    | .create kind creator _ init value =>
      let charged := frame.chargeCreation step.gas
      if outcome = 0 then ⟨charged.failUnexplained, [], .ok ()⟩
      else charged.settleCreated kind creator init value (Word.toAddress outcome) state
    | .call .. =>
      let charged := frame.chargeCall step.gas
      if outcome = 0 then ⟨charged.failUnexplained, [], .ok ()⟩
      else charged.settleReturned id (frame.opening.bind (·.returnRegion)) step.memory limit
    | .selfDestruct .. => ⟨{ frame with opening := none }, [], .ok ()⟩

/-- The frame failed with a message and used up what it was granted. -/
def fail (message : String) (frame : Frame) : Frame :=
  { frame with
    error := some message
    gasUsed := frame.gas.or frame.gasUsed
    opening := none }

end Frame

namespace Tracer

/-- Closes the top and makes it a child of the frame below it. The root is not closed. The outcome
is looked for even if the frame is unknown. -/
def close (t : Tracer) (step : Step) (state : ChainState) : Outcome Unit :=
  match t.inner with
  | [] => ⟨t, [.rootClose step.depth], .ok ()⟩
  | id :: rest =>
    match t.forest.get? id with
    | none =>
      ⟨{ t with inner := rest, forest := t.forest.addChild (topOf rest) id }, [],
        (step.operand 0).map fun _ => ()⟩
    | some frame =>
      let settled := frame.settle id step state t.settings.paddingLimit
      let forest := (t.forest.modify id fun _ => settled.frame).addChild (topOf rest) id
      ⟨{ t with inner := rest, forest := forest }, settled.warnings, settled.result⟩

/-- Takes a report that the top failed. -/
def fail (t : Tracer) (message : String) : Tracer :=
  if (t.forest.get? t.top).any Frame.failed then t
  else
    let forest := t.forest.modify t.top (Frame.fail message)
    match t.inner with
    | [] => { t with forest := forest }
    | id :: rest => { t with inner := rest, forest := forest.addChild (topOf rest) id }

end Tracer

end CallTree
