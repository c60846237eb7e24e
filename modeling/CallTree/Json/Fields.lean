import CallTree.Json.Value

/-!
# Members of objects

An object is read by the names of its members. The order of the members does not matter, and
neither do members whose names are not asked for. A name that is asked for must not occur twice,
and every name must be a string.
-/

namespace CallTree

namespace Json

/-- The members of an object whose names are strings. -/
abbrev Fields := List (String × Value)

/-- The members of an object, if all its names are strings. -/
def Value.fields? : Value → Option Fields
  | .object members => members.mapM fun (name, value) => name.map fun name => (name, value)
  | _ => none

namespace Fields

/-- The value of the member with a name: `none` if the name occurs twice, `some none` if there is
no such member. -/
def find? (fields : Fields) (name : String) : Option (Option Value) :=
  match fields.filter fun field => field.1 == name with
  | [] => some none
  | [field] => some (some field.2)
  | _ => none

/-- The value of a member that must be there. -/
def required? (fields : Fields) (name : String) : Option Value :=
  match fields.find? name with
  | some (some value) => some value
  | _ => none

/-- The value of a member that is `null` if it is not there. -/
def optional? (fields : Fields) (name : String) : Option Value :=
  match fields.find? name with
  | some (some value) => some value
  | some none => some .null
  | none => none

/-- What a member stands for, which is a given thing if the member is not there. -/
def defaulted? {α : Type} (fields : Fields) (name : String) (missing : α)
    (read : Value → Option α) : Option α :=
  match fields.find? name with
  | some (some value) => read value
  | some none => some missing
  | none => none

end Fields

end Json

end CallTree
