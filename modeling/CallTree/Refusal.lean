import CallTree.Address.Checksum

/-!
# Refusals

A step is refused for one of three reasons: an operand is missing from the stack, a region reaches
too far beyond memory, or the chain state cannot be looked up. Each reason has its message.
-/

namespace CallTree

/-- A failed look-up in the chain state. -/
inductive LookupError
  /-- The account itself is out of reach. -/
  | account (address : Address) (cause : String)
  /-- The account is known, but not its code. -/
  | code (address : Address) (cause : String)
  /-- The chain state says in its own words what went wrong. -/
  | reported (cause : String)
  deriving DecidableEq, Repr

/-- The message of a failed look-up. -/
def LookupError.message : LookupError → String
  | account address cause =>
    "Failed to get account info for " ++ Address.checksumText address ++ ": " ++ cause
  | code address cause =>
    "Failed to get code for " ++ Address.checksumText address ++ ": " ++ cause
  | reported cause => cause

/-- The reason for which a step is refused. -/
inductive Refusal
  /-- The instruction lacks the operand at a position, the top of the stack being position 0. -/
  | missingOperand (opcode : UInt8) (position : Nat)
  /-- The region has more bytes beyond the end of memory than are allowed. -/
  | outOfReach (offset len limit : UInt64)
  /-- The chain state could not be looked up. -/
  | lookup (cause : LookupError)
  deriving DecidableEq, Repr

/-- The text of an instruction: its code in two digits. -/
def opcodeText (opcode : UInt8) : String :=
  String.ofList (Hex.marked (Hex.digits 2 opcode.toNat))

/-- The message of a refusal. -/
def Refusal.message : Refusal → String
  | missingOperand opcode position =>
    "Stack underflow reading operand " ++ Nat.repr position ++ " of opcode " ++ opcodeText opcode
  | outOfReach offset len limit =>
    "Memory read at offset " ++ Nat.repr offset.toNat ++ " of " ++ Nat.repr len.toNat
      ++ " bytes exceeds padding limit of " ++ Nat.repr limit.toNat ++ " bytes"
  | lookup cause => "State access error: " ++ cause.message

example : Refusal.message (.missingOperand 0xf1 6) =
    "Stack underflow reading operand 6 of opcode 0xf1" := by decide +kernel

end CallTree
