/-!
# Labels of failures

A frame keeps the message with which it failed. In records the message is replaced by a label,
and for the messages that have one the record shows no result. A message without a label is shown
as it is, and its record keeps its result.

Five messages have a label of their own, compared as a whole. Any other message that contains
`invalid opcode:` is a bad instruction.
-/

namespace CallTree

namespace Failure

/-- The message of a frame that gave back its changes. -/
def revertedMessage : String := "execution reverted"

/-- The message of a frame whose caller saw it fail without any report. -/
def unexplainedMessage : String := "internal failure"

/-- What marks a message as being about an unknown instruction. -/
def badInstructionMarker : String := "invalid opcode:"

/-- The messages with labels of their own. -/
def labels : List (String × String) :=
  [("contract creation code storage out of gas", "Out of gas"),
    ("out of gas", "Out of gas"),
    ("invalid jump destination", "Bad jump destination"),
    (revertedMessage, "Reverted"),
    (unexplainedMessage, unexplainedMessage)]

/-- The message is about an unknown instruction. -/
def isBadInstruction (message : String) : Bool :=
  @decide (badInstructionMarker.toList <:+: message.toList)
    (List.instDecidableIsInfixOfDecidableEq _ _)

theorem isBadInstruction_iff {message : String} :
    isBadInstruction message ↔ badInstructionMarker.toList <:+: message.toList :=
  @decide_eq_true_iff _ (List.instDecidableIsInfixOfDecidableEq _ _)

/-- The label of a message, if it has one. -/
def label? (message : String) : Option String :=
  match labels.lookup message with
  | some label => some label
  | none => if isBadInstruction message then some "Bad instruction" else none

/-- How a failure is shown. -/
structure Shown where
  label : String
  /-- The record of the frame shows no result. -/
  hidesResult : Bool
  deriving DecidableEq, Repr

/-- How the failure with a message is shown. -/
def shown (message : String) : Shown :=
  match label? message with
  | some label => ⟨label, true⟩
  | none => ⟨message, false⟩

/-- A root retains the output of its transaction if it did not fail, or if it gave back its
changes and there is an output. -/
def retainsOutput (failure : Option String) (output : List UInt8) : Bool :=
  match failure with
  | none => true
  | some message => message == revertedMessage && !output.isEmpty

theorem hidesResult_shown (message : String) :
    (shown message).hidesResult = (label? message).isSome := by
  unfold shown
  cases label? message <;> rfl

/-- A message with which a failed root retains its output also hides the result. -/
theorem hidesResult_of_retainsOutput {message : String} {output : List UInt8}
    (h : retainsOutput (some message) output) : (shown message).hidesResult := by
  simp only [retainsOutput, Bool.and_eq_true, beq_iff_eq] at h
  rw [h.1]
  decide

example : shown "out of gas" = ⟨"Out of gas", true⟩ := by decide
example : shown "invalid opcode: 0xfe" = ⟨"Bad instruction", true⟩ := by decide +kernel
example : shown "out of gas: no more" = ⟨"out of gas: no more", false⟩ := by
  decide +kernel
example : retainsOutput (some revertedMessage) [] = false := by decide

end Failure

end CallTree
