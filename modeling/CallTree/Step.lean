import CallTree.Gas
import CallTree.Refusal

/-!
# Steps

The interpreter reports one step for each instruction, just before it executes. A step shows the
machine as the instruction finds it, and the interpreter's report if the instruction cannot be
executed.
-/

namespace CallTree

/-- One instruction about to be executed. -/
structure Step where
  opcode : UInt8
  /-- The operands on the stack, the topmost first. -/
  operands : List Word := []
  memory : Bytes := []
  /-- The gas left before the instruction. -/
  gas : Gas := 0
  /-- The gas that the instruction takes, what it hands to a callee included. -/
  cost : Gas := 0
  /-- How deeply the executing frame is nested, the outermost being at depth 1. -/
  depth : Nat
  /-- The executing account. -/
  address : Address := 0
  /-- Why the instruction cannot be executed, if it cannot. -/
  error : Option String := none
  deriving DecidableEq, Repr

namespace Step

/-- The word at a position of the stack, the top being position 0. -/
def operand? (step : Step) (position : Nat) : Option Word :=
  step.operands[position]?

/-- The word at a position of the stack, which the instruction needs. -/
def operand (step : Step) (position : Nat) : Except Refusal Word :=
  match step.operand? position with
  | some word => .ok word
  | none => .error (.missingOperand step.opcode position)

theorem operand_eq_ok_iff {step : Step} {position : Nat} {word : Word} :
    step.operand position = .ok word ↔ step.operands[position]? = some word := by
  unfold operand operand?
  cases step.operands[position]? <;> simp

theorem operand_eq_error_iff {step : Step} {position : Nat} {e : Refusal} :
    step.operand position = .error e ↔
    step.operands.length ≤ position ∧ e = .missingOperand step.opcode position := by
  unfold operand operand?
  cases h : step.operands[position]? with
  | none => simpa [eq_comm] using fun _ => h
  | some word =>
    have : position < step.operands.length := (List.getElem?_eq_some_iff.mp h).1
    simp
    omega

end Step

end CallTree
