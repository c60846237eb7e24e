import CallTree.Text.Hex

/-!
# Numerals in four radixes

A numeral is a marker for its radix followed by digits: `0x` for 16, `0o` for 8, `0b` for 2, each
also in upper case, and no marker for 10. Underscores among the digits are ignored, and a numeral
without digits is zero. `Numeral.value?` gives the number that a text stands for.

In particular every hexadecimal quantity is a numeral (`value?_marked_quantity`).
-/

namespace CallTree

namespace Numeral

/-- One more character of a numeral: a digit below the radix, or an ignored underscore. -/
def append? (radix n : Nat) (c : Char) : Option Nat :=
  if c = '_' then some n
  else match Hex.digit? c with
    | some d => if d.val < radix then some (radix * n + d.val) else none
    | none => none

/-- The number that digits in a radix of at most 16 stand for. -/
def digitsValue? (radix : Nat) (digits : List Char) : Option Nat :=
  digits.foldlM (append? radix) 0

/-- The number that a numeral stands for. -/
def value? : List Char → Option Nat
  | '0' :: 'x' :: digits => digitsValue? 16 digits
  | '0' :: 'X' :: digits => digitsValue? 16 digits
  | '0' :: 'o' :: digits => digitsValue? 8 digits
  | '0' :: 'O' :: digits => digitsValue? 8 digits
  | '0' :: 'b' :: digits => digitsValue? 2 digits
  | '0' :: 'B' :: digits => digitsValue? 2 digits
  | digits => digitsValue? 10 digits

/-- On text without underscores the digits in radix 16 are those of hexadecimal text. -/
theorem digitsValue?_sixteen {text : List Char} (h : '_' ∉ text) :
    digitsValue? 16 text = Hex.value? text := by
  unfold digitsValue? Hex.value?
  generalize (0 : Nat) = n
  induction text generalizing n with
  | nil => rfl
  | cons c rest ih =>
    simp only [List.mem_cons, not_or] at h
    have hc : c ≠ '_' := fun e => h.1 e.symm
    have hstep : append? 16 n c = (Hex.digit? c).map (16 * n + ·.val) := by
      unfold append?
      rw [if_neg hc]
      cases hd : Hex.digit? c with
      | none => rfl
      | some d => simp [d.isLt]
    rw [List.foldlM_cons, List.foldlM_cons, hstep]
    cases (Hex.digit? c).map (16 * n + ·.val) with
    | none => rfl
    | some m => exact ih h.2 m

/-- A hexadecimal quantity behind its marker is a numeral for the same number. -/
theorem value?_marked_quantity (width n : Nat) :
    value? (Hex.marked (Hex.quantity width n)) = some (n % Nat.pow 16 width) := by
  have h : '_' ∉ Hex.quantity width n := fun hmem => by
    obtain ⟨d, hd⟩ := Hex.exists_digit_of_mem_quantity hmem
    exact Hex.digit_ne_underscore d hd.symm
  rw [← Hex.value?_quantity, ← digitsValue?_sixteen h]
  rfl

example : value? ['0', 'x', 'F', '_', 'f'] = some 255 := by decide
example : value? ['0', 'b', '1', '0', '2'] = none := by decide
example : value? ['0', '1', '0'] = some 10 := by decide
example : value? ['0', 'x'] = some 0 := by decide
example : value? [] = some 0 := by decide

end Numeral

end CallTree
