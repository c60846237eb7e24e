import CallTree.Forest.Basic
import CallTree.Settings
import CallTree.Transaction

/-!
# The tracer

A tracer rebuilds the call tree of one transaction from its steps. It holds the frames seen so
far and remembers which of them are open: the root always is, and `inner` lists the others, the
innermost first. The innermost open frame is the top.

After a frame has been opened, the next step tells how much gas it was granted, if that step is
its own. Until then the tracer awaits the allowance.

An operation on the tracer has an `Outcome`: the tracer after it, the warnings it gave, and
either a result or the reason for which the step was refused. A refused step may still have
changed the tracer, and the host may go on after it.
-/

namespace CallTree

/-- What the tracer notes about something that it could not record. -/
inductive Warning
  /-- The input of a new frame was out of reach and is recorded as empty. -/
  | emptyInput (cause : Refusal) (opcode : UInt8)
  /-- The output of a closed frame was out of reach and is not recorded. -/
  | outputUnset (cause : Refusal) (id : FrameId)
  /-- A step would have closed the root. -/
  | rootClose (depth : Nat)
  deriving DecidableEq, Repr

/-- The text of a warning. -/
def Warning.text : Warning → String
  | emptyInput cause opcode =>
    cause.message ++ ", recording empty input for opcode " ++ opcodeText opcode
  | outputUnset cause id =>
    cause.message ++ ", leaving output of FrameId(" ++ Nat.repr id ++ ") unset"
  | rootClose depth =>
    "depth " ++ Nat.repr depth ++ " would close the root frame, ignoring"

/-- The state of the reconstruction. -/
structure Tracer where
  settings : Settings
  forest : Forest
  /-- The open frames apart from the root, the innermost first. -/
  inner : List FrameId
  /-- The next step may tell the allowance of the top. -/
  awaitsAllowance : Bool
  /-- The transaction, once it is over. -/
  transaction : Option Transaction
  deriving DecidableEq, Repr

/-- What an operation leads to. -/
structure Outcome (α : Type) where
  tracer : Tracer
  warnings : List Warning
  result : Except Refusal α

/-- The step was accepted without a warning. -/
def Outcome.accepted (tracer : Tracer) : Outcome Unit :=
  ⟨tracer, [], .ok ()⟩

/-- The step was refused without a warning. -/
def Outcome.refused (tracer : Tracer) (e : Refusal) : Outcome Unit :=
  ⟨tracer, [], .error e⟩

namespace Tracer

/-- The root before anything is known about it. -/
def unknownRoot : Frame where
  action := .call .call 0 0 [] none

/-- A tracer that has seen nothing. -/
def fresh (settings : Settings) : Tracer where
  settings := settings
  forest := .ofRoot unknownRoot
  inner := []
  awaitsAllowance := false
  transaction := none

/-- Forgets the transaction, but not the settings. -/
def reset (t : Tracer) : Tracer :=
  fresh t.settings

/-! ## Open frames -/

/-- The innermost of some frames that are open above the root, or the root. -/
def topOf (inner : List FrameId) : FrameId :=
  inner.headD rootId

/-- The innermost open frame. -/
def top (t : Tracer) : FrameId :=
  topOf t.inner

/-- The open frames, the innermost first and the root last. -/
def openIds (t : Tracer) : List FrameId :=
  t.inner ++ [rootId]

/-- The number of open frames. -/
def openCount (t : Tracer) : Nat :=
  t.inner.length + 1

theorem length_openIds (t : Tracer) : t.openIds.length = t.openCount := by
  simp [openIds, openCount]

theorem head?_openIds (t : Tracer) : t.openIds.head? = some t.top := by
  cases h : t.inner <;> simp [openIds, top, topOf, h]

/-- Opens a frame above the others. -/
def push (t : Tracer) (frame : Frame) : Tracer :=
  { t with
    forest := t.forest.push frame
    inner := t.forest.size :: t.inner
    awaitsAllowance := true }

/-- Records a frame that ends at once as a child of the top. -/
def pushLeaf (t : Tracer) (frame : Frame) : Tracer :=
  { t with forest := (t.forest.push frame).addChild t.top t.forest.size }

end Tracer

end CallTree
