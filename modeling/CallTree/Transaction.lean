import CallTree.Duration
import CallTree.Frame

/-!
# Transactions

When a transaction is over, its outermost frame is not described by any step. Its description
comes from the transaction itself: who sent it where, with what, and how it ended.
-/

namespace CallTree

namespace Transaction

/-- What a transaction does with its recipient. -/
inductive Kind
  | call
  | create
  deriving DecidableEq, Repr

/-- The word for a kind in stored transactions. -/
def Kind.label : Kind → String
  | call => "Call"
  | create => "Create"

/-- The kind that a label stands for. -/
def Kind.ofLabel? (text : String) : Option Kind :=
  [call, create].find? (·.label == text)

theorem Kind.ofLabel?_label (kind : Kind) : ofLabel? kind.label = some kind := by
  cases kind <;> decide

end Transaction

/-- A finished transaction. -/
structure Transaction where
  kind : Transaction.Kind
  sender : Address
  /-- The account called or created. -/
  recipient : Address
  value : Word
  gas : Gas
  gasUsed : Gas
  input : Bytes
  output : Bytes
  /-- How long the execution took. -/
  time : Option Duration
  blockHash : Option Hash
  blockNumber : Option UInt64
  transactionHash : Option Hash
  /-- The place of the transaction in its block. -/
  transactionPosition : Option UInt64
  /-- The message with which the transaction failed. -/
  error : Option String
  deriving DecidableEq, Repr

/-- What the outermost frame of a transaction does. -/
def Transaction.action (tx : Transaction) : Action :=
  match tx.kind with
  | .call => .call .call tx.sender tx.recipient tx.input (some tx.value)
  | .create => .create .create tx.sender (some tx.recipient) tx.input tx.value

end CallTree
