import CallTree.FrameKind
import CallTree.Memory
import CallTree.Step

/-!
# Where operands lie

A creation has its value on top of the stack and its code in the region named below it. A call
has its gas on top and the callee below it; then comes its value if it takes one, the region of
its input and the region for its output.

An operand that is missing is reported by its position. Of two missing operands the one that is
looked at first is reported: of an input region that is its length.
-/

namespace CallTree

namespace Step

/-- The value of a creation and the region of its code. -/
def creationOperands (step : Step) : Except Refusal (Word × Region) := do
  let value ← step.operand 0
  let offset ← step.operand 1
  let len ← step.operand 2
  return (value, ⟨offset, len⟩)

/-- The callee of a call. -/
def callee (step : Step) : Except Refusal Address := do
  let word ← step.operand 1
  return Word.toAddress word

/-- The value that a call takes. -/
def callValue (step : Step) (kind : FrameKind) : Option Word :=
  if kind.takesValue then step.operand? 2 else none

/-- The region of a call's input. -/
def inputRegion (step : Step) (kind : FrameKind) : Except Refusal Region := do
  let len ← step.operand (3 + kind.valueOperands)
  let offset ← step.operand (2 + kind.valueOperands)
  return ⟨offset, len⟩

/-- The region for a call's output. -/
def returnRegion (step : Step) (kind : FrameKind) : Except Refusal Region := do
  let offset ← step.operand (4 + kind.valueOperands)
  let len ← step.operand (5 + kind.valueOperands)
  return ⟨offset, len⟩

end Step

end CallTree
