import CallTree.FrameKind
import CallTree.Gas
import CallTree.Memory

/-!
# Frames

A frame is one node of the call tree: an execution of code, a creation, or a self-destruction.
What it does is fixed when it is opened (`Action`); what came of it is filled in later. While it
is open, it also keeps what its opening instruction left to be settled at its close (`Opening`).

The gas that a frame used is found at its close from three amounts: what the caller kept at the
opening, what was granted to the frame, and what the caller has after it.
-/

namespace CallTree

/-- The name of a frame: its place in the order of opening. -/
abbrev FrameId := Nat

/-- The outermost frame, opened before all others. -/
def rootId : FrameId := 0

/-- What a frame does. -/
inductive Action
  /-- Runs the code of an account. -/
  | call (kind : FrameKind) (sender recipient : Address) (input : Bytes) (value : Option Word)
  /-- Creates an account, which is known once the creation has succeeded. -/
  | create (kind : FrameKind) (creator : Address) (created : Option Address) (init : Bytes)
      (value : Word)
  /-- Gives up an account in favour of another. -/
  | selfDestruct (address beneficiary : Address) (balance : Word)
  deriving DecidableEq, Repr

/-- The kind of instruction behind an action. -/
def Action.kind : Action → FrameKind
  | call kind .. => kind
  | create kind .. => kind
  | selfDestruct .. => .selfDestruct

/-- What an opening instruction leaves to be settled at the close of its frame. -/
structure Opening where
  /-- The caller's gas before the instruction. -/
  gas : Gas
  /-- The gas that the instruction takes. -/
  cost : Gas
  /-- Where the caller wants the output, for calls. -/
  returnRegion : Option Region
  deriving DecidableEq, Repr

namespace Opening

/-- The gas that the caller keeps while the frame is open. -/
def kept (opening : Opening) : Gas :=
  Gas.cutSub opening.gas opening.cost

/-- The gas that a creation used, where the caller has `remaining` after it. -/
def usedByCreation (opening : Opening) (remaining : Gas) : Gas :=
  Gas.cutSub opening.kept remaining

/-- The gas that a call used of the `granted` gas, where the caller has `remaining` after it. -/
def usedByCall (opening : Opening) (granted remaining : Gas) : Gas :=
  Gas.cutSub (Gas.capAdd opening.kept granted) remaining

example : usedByCall ⟨100000, 60000, none⟩ 50000 70000 = 20000 := by decide
example : usedByCreation ⟨100000, 32000, none⟩ 50000 = 18000 := by decide

end Opening

/-- A node of the call tree. -/
structure Frame where
  action : Action
  /-- The gas granted to the frame, once it is known. -/
  gas : Option Gas := none
  gasUsed : Option Gas := none
  output : Option Bytes := none
  /-- The message with which the frame failed. -/
  error : Option String := none
  /-- The frames opened by this one and closed since, the first one first. -/
  children : List FrameId := []
  /-- What is to be settled at the close of the frame. -/
  opening : Option Opening := none
  deriving DecidableEq, Repr

/-- The kind of instruction that opened a frame. -/
def Frame.kind (frame : Frame) : FrameKind :=
  frame.action.kind

/-- The frame failed. -/
def Frame.failed (frame : Frame) : Bool :=
  frame.error.isSome

end CallTree
