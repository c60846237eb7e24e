import CallTree.Word

/-!
# Durations

A duration is a number of seconds and a number of nanoseconds below one second. Its text names
the greatest of the units `s`, `ms`, `µs` and `ns` in which it is at least one, with the exact
decimal fraction, whose trailing zeros are cut. The duration zero is `0ns`.
-/

namespace CallTree

/-- A length of time: whole seconds and the nanoseconds beyond them. -/
structure Duration where
  secs : UInt64
  nanos : Fin 1000000000
  deriving DecidableEq, Repr

namespace Duration

/-- The duration of some seconds and any number of nanoseconds, whole seconds among them being
carried over. It exists if its seconds fit 64 bits. -/
def ofParts? (secs nanos : Nat) : Option Duration :=
  let carried := secs + nanos / 1000000000
  if carried < UInt64.size then
    some ⟨UInt64.ofNat carried, Fin.ofNat 1000000000 nanos⟩
  else none

theorem ofParts?_self (d : Duration) : ofParts? d.secs.toNat d.nanos.val = some d := by
  have hs : d.secs.toNat < UInt64.size := d.secs.toNat_lt
  have hn : d.nanos.val / 1000000000 = 0 := Nat.div_eq_of_lt d.nanos.isLt
  unfold ofParts?
  rw [hn, Nat.add_zero, if_pos hs, UInt64.ofNat_toNat, Fin.ofNat_val_eq_self]

example : ofParts? 1 2500000000 = some ⟨3, 500000000⟩ := by decide
example : ofParts? 18446744073709551615 1000000000 = none := by decide

/-! ## Text -/

/-- The last `width` decimal digits of a number. -/
def decimals : Nat → Nat → List Char
  | 0, _ => []
  | width + 1, n => decimals width (n / 10) ++ [Nat.digitChar (n % 10)]

/-- The fraction `n / 10 ^ width` behind its point, without trailing zeros; nothing if it is
zero. -/
def fraction (width n : Nat) : List Char :=
  match (decimals width n).reverse.dropWhile (· == '0') with
  | [] => []
  | digits => '.' :: digits.reverse

/-- The number `n / 10 ^ width` followed by a unit. -/
def inUnit (width n : Nat) (unit : List Char) : List Char :=
  Nat.toDigits 10 (n / Nat.pow 10 width) ++ fraction width (n % Nat.pow 10 width) ++ unit

/-- The characters of a duration's text. -/
def chars (d : Duration) : List Char :=
  let nanos := d.nanos.val
  if 0 < d.secs then inUnit 9 (1000000000 * d.secs.toNat + nanos) ['s']
  else if 1000000 ≤ nanos then inUnit 6 nanos ['m', 's']
  else if 1000 ≤ nanos then inUnit 3 nanos ['µ', 's']
  else inUnit 0 nanos ['n', 's']

/-- The text of a duration. -/
def text (d : Duration) : String :=
  String.ofList d.chars

example : chars ⟨0, 1500000⟩ = ['1', '.', '5', 'm', 's'] := by decide
example : chars ⟨2, 1⟩ = ['2', '.', '0', '0', '0', '0', '0', '0', '0', '0', '1', 's'] := by decide
example : chars ⟨0, 20000⟩ = ['2', '0', 'µ', 's'] := by decide
example : chars ⟨0, 0⟩ = ['0', 'n', 's'] := by decide

end Duration

end CallTree
