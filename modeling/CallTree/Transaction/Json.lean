import CallTree.Json.Fields
import CallTree.Json.Scalar
import CallTree.Json.Text
import CallTree.Transaction

/-!
# Transactions as JSON values

A transaction is an object of fourteen members. Those that describe what is known of every
transaction must be there; the others may be missing or `null`. Members by other names are
ignored. The fourteen values in their order, as an array, are read as well.

In the text of a transaction the addresses and hashes may be written as rows of bytes (`rows`).

`ofItems?_items` says that the fourteen values determine the transaction.
-/

namespace CallTree

namespace Transaction

open Json

/-- The names of the members that every transaction has. -/
def requiredNames : List String :=
  ["kind", "from", "to", "value", "gas", "gas_used", "input", "output"]

/-- The names of the members that may be missing. -/
def optionalNames : List String :=
  ["time", "block_hash", "block_number", "transaction_hash", "transaction_position", "error"]

/-- The values of a transaction in the order of the names. -/
def items (tx : Transaction) : List Value :=
  [.ofString tx.kind.label, .ofAddress tx.sender, .ofAddress tx.recipient, .ofWord tx.value,
    .ofNat tx.gas.toNat, .ofNat tx.gasUsed.toNat, .ofBytes tx.input, .ofBytes tx.output,
    .ofOption .ofDuration tx.time, .ofOption .ofHash tx.blockHash,
    .ofOption (fun n => .ofNat n.toNat) tx.blockNumber, .ofOption .ofHash tx.transactionHash,
    .ofOption (fun n => .ofNat n.toNat) tx.transactionPosition, .ofOption .ofString tx.error]

/-- The transaction with the given values. -/
def ofItems? : List Value → Option Transaction
  | [kind, sender, recipient, value, gas, gasUsed, input, output, time, blockHash, blockNumber,
      transactionHash, transactionPosition, error] => do
    return {
      kind := ← kind.labelled? Kind.ofLabel?
      sender := ← sender.address?
      recipient := ← recipient.address?
      value := ← value.word?
      gas := ← gas.number64?
      gasUsed := ← gasUsed.number64?
      input := ← input.bytes?
      output := ← output.bytes?
      time := ← time.option? Value.duration?
      blockHash := ← blockHash.option? Value.hash?
      blockNumber := ← blockNumber.option? Value.number64?
      transactionHash := ← transactionHash.option? Value.hash?
      transactionPosition := ← transactionPosition.option? Value.number64?
      error := ← error.option? Value.string? }
  | _ => none

/-- A transaction as an object with all its members. -/
def toJson (tx : Transaction) : Value :=
  .ofMembers ((requiredNames ++ optionalNames).zip tx.items)

/-- The transaction whose members are given. -/
def ofFields? (fields : Fields) : Option Transaction := do
  let required ← requiredNames.mapM fields.required?
  let optional ← optionalNames.mapM fields.optional?
  ofItems? (required ++ optional)

/-- The transaction that a value stands for. -/
def ofJson? : Value → Option Transaction
  | .array items => ofItems? items
  | v => v.fields?.bind ofFields?

/-- The number of bytes in the row that a member may be written as. -/
def rowLength? (name : String) : Option Nat :=
  if name ∈ ["from", "to"] then some 20
  else if name ∈ ["block_hash", "transaction_hash"] then some 32
  else none

/-- The arrays in a transaction that have to be rows of bytes. -/
def rows : Rows where
  items := (requiredNames ++ optionalNames).map rowLength?
  member name := name.bind rowLength?

/-- The transaction that a text stands for. -/
def parse? (s : String) : Option Transaction :=
  (Value.parseRows? rows s).bind ofJson?

example : rows.items[2]? = some (some 20) := by decide
example : rows.member (some "input") = none := by decide

theorem ofItems?_items (tx : Transaction) : ofItems? tx.items = some tx := by
  have htime := Value.option?_ofOption Value.duration?_ofDuration
    (fun _ h => by cases h) tx.time
  have hblock := Value.option?_ofOption Value.hash?_ofHash (fun _ h => by cases h) tx.blockHash
  have hhash := Value.option?_ofOption Value.hash?_ofHash (fun _ h => by cases h)
    tx.transactionHash
  have hnumber : ∀ n : UInt64, (Value.ofNat n.toNat).number64? = some n := Value.number64?_ofNat
  have hblockNumber := Value.option?_ofOption hnumber (fun _ h => by cases h) tx.blockNumber
  have hposition := Value.option?_ofOption hnumber (fun _ h => by cases h)
    tx.transactionPosition
  have herror := Value.option?_ofOption Value.string?_ofString (fun _ h => by cases h) tx.error
  have hkind : (Value.ofString tx.kind.label).labelled? Kind.ofLabel? = some tx.kind :=
    Kind.ofLabel?_label tx.kind
  simp only [items, ofItems?, hkind, Value.address?_ofAddress, Value.word?_ofWord, hnumber,
    Value.bytes?_ofBytes, htime, hblock, hblockNumber, hhash, hposition, herror,
    Option.bind_eq_bind, Option.bind_some, Option.pure_def]

end Transaction

end CallTree
