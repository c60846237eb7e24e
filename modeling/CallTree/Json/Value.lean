/-!
# JSON values

A value keeps everything that its reader may ask about: numbers are kept as written, so that an
integer can be told from `1.0` and `1e0`, and objects keep all their members in order, repeated
names included.

A text may contain half of a surrogate pair, written as an escape. Such text is well formed as
JSON but stands for no string of characters; here it is `none`.
-/

namespace CallTree

namespace Json

/-- A number as written: sign, integer, digits behind the point and exponent. -/
structure Number where
  negative : Bool
  whole : Nat
  /-- The digits behind the point, none if there is no point. -/
  fraction : List (Fin 10)
  exponent : Option Int
  deriving DecidableEq, Repr

/-- The content of a text, `none` if it stands for no string. -/
abbrev Text := Option String

/-- A JSON value. -/
inductive Value
  | null
  | bool (value : Bool)
  | number (value : Number)
  | text (value : Text)
  | array (items : List Value)
  | object (members : List (Text × Value))
  deriving Repr

/-- The number written as an integer. -/
def Number.ofNat (n : Nat) : Number := ⟨false, n, [], none⟩

/-- The integer that a number is written as, if it is written as one without a sign. -/
def Number.toNat? (n : Number) : Option Nat :=
  if n.negative then none
  else match n.fraction, n.exponent with
    | [], none => some n.whole
    | _, _ => none

@[simp] theorem Number.toNat?_ofNat (n : Nat) : (ofNat n).toNat? = some n := rfl

namespace Value

/-- A string as a value. -/
def ofString (s : String) : Value := .text (some s)

/-- A natural number as a value. -/
def ofNat (n : Nat) : Value := .number (.ofNat n)

/-- An object with the given members. -/
def ofMembers (members : List (String × Value)) : Value :=
  .object (members.map fun (name, value) => (some name, value))

/-- The string that a value is, if it is one. -/
def string? : Value → Option String
  | .text content => content
  | _ => none

/-- The natural number that a value is, if it is one below `2 ^ 64`. -/
def number64? : Value → Option UInt64
  | .number n => do
    let whole ← n.toNat?
    if whole < UInt64.size then some (UInt64.ofNat whole) else none
  | _ => none

@[simp] theorem string?_ofString (s : String) : (ofString s).string? = some s := rfl

@[simp] theorem number64?_ofNat (n : UInt64) : (ofNat n.toNat).number64? = some n := by
  have h : n.toNat < UInt64.size := n.toNat_lt
  simp only [number64?, ofNat, Number.toNat?_ofNat, Option.bind_eq_bind, Option.bind_some,
    if_pos h, UInt64.ofNat_toNat]

end Value

end Json

end CallTree
