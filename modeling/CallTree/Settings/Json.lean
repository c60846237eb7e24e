import CallTree.Json.Fields
import CallTree.Settings

/-!
# Settings as JSON values

The settings are an object of two members or an array of at most two values in the same order. A
setting that is missing has its usual value, and members by other names are ignored.
-/

namespace CallTree

namespace Settings

open Json

/-- The settings whose members are given. -/
def ofFields? (fields : Fields) : Option Settings := do
  let usual : Settings := {}
  let stipend ← fields.defaulted? "stipendGas" usual.stipend Value.number64?
  let paddingLimit ← fields.defaulted? "memoryPaddingLimit" usual.paddingLimit Value.number64?
  return ⟨stipend, paddingLimit⟩

/-- The settings whose values are given. -/
def ofItems? : List Value → Option Settings
  | [] => some {}
  | [stipend] => do
    return { stipend := ← stipend.number64? }
  | [stipend, paddingLimit] => do
    return ⟨← stipend.number64?, ← paddingLimit.number64?⟩
  | _ => none

/-- The settings that a value stands for. -/
def ofJson? : Value → Option Settings
  | .array items => ofItems? items
  | v => v.fields?.bind ofFields?

/-- Settings as an object. -/
def toJson (settings : Settings) : Value :=
  .ofMembers [("stipendGas", .ofNat settings.stipend.toNat),
    ("memoryPaddingLimit", .ofNat settings.paddingLimit.toNat)]

end Settings

end CallTree
