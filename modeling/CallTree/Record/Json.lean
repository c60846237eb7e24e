import CallTree.Json.Scalar
import CallTree.Json.Text
import CallTree.Record.Basic

/-!
# Records as JSON values

The members of a record stand in a fixed order, and those that are not known are left out. Words
and amounts of gas are hexadecimal quantities; counts and places are integers. The time is the
text of the duration.
-/

namespace CallTree

namespace Record

open Json

/-- The member with a name, if its value is known. -/
def known {α : Type} (name : String) (write : α → Value) : Option α → List (String × Value)
  | none => []
  | some a => [(name, write a)]

/-- An action as a value. -/
def Action.toJson : Action → Value
  | call kind sender gas input recipient value =>
    .ofMembers ([("callType", .ofString kind.name), ("from", .ofAddress sender)]
      ++ known "gas" .ofQuantity gas
      ++ [("input", .ofBytes input), ("to", .ofAddress recipient)]
      ++ known "value" .ofWord value)
  | create creator gas init value kind =>
    .ofMembers ([("from", .ofAddress creator)]
      ++ known "gas" .ofQuantity gas
      ++ [("init", .ofBytes init), ("value", .ofWord value),
        ("creationMethod", .ofString kind.name)])
  | selfDestruct address beneficiary balance =>
    .ofMembers [("address", .ofAddress address), ("refundAddress", .ofAddress beneficiary),
      ("balance", .ofWord balance)]

/-- A result as a value. -/
def Result.toJson : Result → Value
  | call gasUsed output =>
    .ofMembers (known "gasUsed" .ofQuantity gasUsed ++ known "output" .ofBytes output)
  | create gasUsed address code =>
    .ofMembers (known "gasUsed" .ofQuantity gasUsed ++ known "address" .ofAddress address
      ++ known "code" .ofBytes code)

/-- A record as a value. -/
def toJson (record : Record) : Value :=
  .ofMembers ([("action", record.action.toJson)]
    ++ known "blockHash" .ofHash record.blockHash
    ++ known "blockNumber" (fun n => .ofNat n.toNat) record.blockNumber
    ++ known "error" .ofString record.error
    ++ known "result" Result.toJson record.result
    ++ [("subtraces", .ofNat record.childCount),
      ("traceAddress", .array (record.path.map .ofNat))]
    ++ known "transactionHash" .ofHash record.transactionHash
    ++ known "transactionPosition" (fun n => .ofNat n.toNat) record.transactionPosition
    ++ [("type", .ofString record.kind.recordType)]
    ++ known "time" (fun d => .ofString d.text) record.time)

/-- The text of a record. -/
def render (record : Record) : String :=
  record.toJson.render

/-- The text of a list of records. -/
def renderAll (records : List Record) : String :=
  (Value.array (records.map toJson)).render

end Record

end CallTree
