import CallTree.Word

/-!
# Hexadecimal text

Digits are written in lower case and read in either case. There are three written forms.
* `digits width n`: the last `width` digits of `n`, leading zeros included. Addresses and hashes
  are written so.
* `quantity width n`: the same digits without their leading zeros, but at least one digit.
  Words and amounts of gas are written so.
* `ofBytes bytes`: two digits a byte.

Each form reads back as what was written: `value?_digits`, `value?_quantity`, `bytes?_ofBytes`.
-/

namespace CallTree

namespace Hex

/-! ## One digit -/

/-- The lower-case digit of a number below 16. -/
def digit (d : Fin 16) : Char :=
  Nat.digitChar d.val

/-- The number that a digit of either case stands for. -/
def digit? (c : Char) : Option (Fin 16) :=
  let n := c.toNat
  if 48 ≤ n ∧ n ≤ 57 then some (Fin.ofNat 16 (n - 48))
  else if 97 ≤ n ∧ n ≤ 102 then some (Fin.ofNat 16 (n - 87))
  else if 65 ≤ n ∧ n ≤ 70 then some (Fin.ofNat 16 (n - 55))
  else none

@[simp] theorem digit?_digit : ∀ d : Fin 16, digit? (digit d) = some d := by decide

theorem digit_ne_zero : ∀ d : Fin 16, d ≠ 0 → digit d ≠ '0' := by decide

theorem digit_ne_underscore : ∀ d : Fin 16, digit d ≠ '_' := by decide

theorem digit_zero : digit 0 = '0' := by decide

example : digit? 'F' = some 15 := by decide
example : digit? 'g' = none := by decide

/-! ## Numbers -/

/-- The number that a row of digits stands for. -/
def value? (text : List Char) : Option Nat :=
  text.foldlM (fun n c => (digit? c).map (16 * n + ·.val)) 0

/-- The last `width` digits of a number. -/
def digits : Nat → Nat → List Char
  | 0, _ => []
  | width + 1, n => digits width (n / 16) ++ [digit (Fin.ofNat 16 n)]

/-- The digits of a number below `16 ^ width` from its first nonzero one on, or a single zero. -/
def quantity (width n : Nat) : List Char :=
  match (digits width n).dropWhile (· == '0') with
  | [] => ['0']
  | c :: rest => c :: rest

@[simp] theorem length_digits (width n : Nat) : (digits width n).length = width := by
  induction width generalizing n with
  | zero => rfl
  | succ width ih => simp [digits, ih]

theorem exists_digit_of_mem_digits {width n : Nat} {c : Char} (h : c ∈ digits width n) :
    ∃ d, c = digit d := by
  induction width generalizing n with
  | zero => cases h
  | succ width ih =>
    rw [digits, List.mem_append, List.mem_singleton] at h
    exact h.elim ih fun hc => ⟨_, hc⟩

theorem exists_digit_of_mem_quantity {width n : Nat} {c : Char} (h : c ∈ quantity width n) :
    ∃ d, c = digit d := by
  unfold quantity at h
  split at h
  next => exact ⟨0, by simpa [digit_zero] using h⟩
  next hcons =>
    rw [← hcons] at h
    exact exists_digit_of_mem_digits (List.dropWhile_subset _ h)

theorem value?_append_digit (text : List Char) (d : Fin 16) :
    value? (text ++ [digit d]) = (value? text).map (16 * · + d.val) := by
  unfold value?
  rw [List.foldlM_append]
  cases text.foldlM (fun n c => (digit? c).map (16 * n + ·.val)) 0 with
  | none => rfl
  | some n => simp [List.foldlM]

theorem value?_digits (width n : Nat) : value? (digits width n) = some (n % Nat.pow 16 width) := by
  induction width generalizing n with
  | zero => simp [digits, value?, Nat.mod_one]
  | succ width ih =>
    have hd : (Fin.ofNat 16 n).val = n % 16 := rfl
    have hpow : Nat.pow 16 (width + 1) = 16 * Nat.pow 16 width := Nat.pow_succ'
    rw [digits, value?_append_digit, ih, Option.map_some, hd, hpow, Nat.mod_mul, Nat.add_comm]

theorem value?_dropWhile_zero (text : List Char) :
    value? (text.dropWhile (· == '0')) = value? text := by
  induction text with
  | nil => rfl
  | cons c rest ih =>
    by_cases hc : c = '0'
    · subst hc
      have hz : digit? '0' = some 0 := by decide
      have hv : value? ('0' :: rest) = value? rest := by simp [value?, List.foldlM, hz]
      rw [hv, ← ih]
      simp
    · simp [hc]

theorem value?_quantity (width n : Nat) : value? (quantity width n) = some (n % Nat.pow 16 width) := by
  have h := value?_dropWhile_zero (digits width n)
  rw [value?_digits] at h
  unfold quantity
  split
  next hnil => rw [hnil] at h; exact h
  next c rest hcons => rw [hcons] at h; exact h

example : digits 4 0xab = ['0', '0', 'a', 'b'] := by decide
example : quantity 4 0xab = ['a', 'b'] := by decide
example : quantity 4 0 = ['0'] := by decide

/-! ## Byte strings -/

/-- Two digits a byte, the high half first. -/
def ofBytes (bytes : Bytes) : List Char :=
  bytes.flatMap fun b => [digit (Fin.ofNat 16 (b.toNat / 16)), digit (Fin.ofNat 16 b.toNat)]

/-- The bytes written so far, most recent first, followed by those that the text stands for. -/
def bytesOnto? : Bytes → List Char → Option Bytes
  | written, [] => some written.reverse
  | _, [_] => none
  | written, high :: low :: rest =>
    match digit? high, digit? low with
    | some h, some l => bytesOnto? (UInt8.ofNat (16 * h.val + l.val) :: written) rest
    | _, _ => none

/-- The bytes that an even number of digits stands for. -/
def bytes? (text : List Char) : Option Bytes :=
  bytesOnto? [] text

theorem bytesOnto?_ofBytes (written bytes : Bytes) :
    bytesOnto? written (ofBytes bytes) = some (written.reverse ++ bytes) := by
  induction bytes generalizing written with
  | nil => simp [ofBytes, bytesOnto?]
  | cons b rest ih =>
    have hb : b.toNat < 256 := b.toNat_lt
    have hh : (Fin.ofNat 16 (b.toNat / 16)).val = b.toNat / 16 :=
      Nat.mod_eq_of_lt (by omega)
    have hl : (Fin.ofNat 16 b.toNat).val = b.toNat % 16 := rfl
    have hbyte : UInt8.ofNat (16 * (b.toNat / 16) + b.toNat % 16) = b := by
      rw [Nat.div_add_mod]
      exact UInt8.ofNat_toNat
    have hcons : ofBytes (b :: rest) =
        digit (Fin.ofNat 16 (b.toNat / 16)) :: digit (Fin.ofNat 16 b.toNat) :: ofBytes rest := rfl
    rw [hcons, bytesOnto?]
    simp only [digit?_digit, hh, hl, hbyte, ih]
    simp

theorem bytes?_ofBytes (bytes : Bytes) : bytes? (ofBytes bytes) = some bytes := by
  simp [bytes?, bytesOnto?_ofBytes]

example : ofBytes [0x0a, 0xff] = ['0', 'a', 'f', 'f'] := by decide
example : bytes? ['0', 'A', 'f'] = none := by decide

/-! ## The marker -/

/-- Hexadecimal text behind its marker. -/
def marked (text : List Char) : List Char :=
  '0' :: 'x' :: text

/-- The text behind the marker, whose letter may have either case, or the whole text if it bears
none. -/
def unmarked : List Char → List Char
  | '0' :: 'x' :: text => text
  | '0' :: 'X' :: text => text
  | text => text

@[simp] theorem unmarked_marked (text : List Char) : unmarked (marked text) = text := rfl

example : unmarked ['0', 'X', '0', 'x'] = ['0', 'x'] := by decide

/-- A byte string as marked text. -/
def bytesText (bytes : Bytes) : String :=
  String.ofList (marked (ofBytes bytes))

/-- A word as marked text without leading zeros. -/
def wordText (word : Word) : String :=
  String.ofList (marked (quantity 64 word.toNat))

/-- A 64-bit number as marked text without leading zeros. -/
def numberText (n : UInt64) : String :=
  String.ofList (marked (quantity 16 n.toNat))

/-- An address as marked text of forty digits. -/
def addressText (address : Address) : String :=
  String.ofList (marked (digits 40 address.toNat))

/-- A hash as marked text of 64 digits. -/
def hashText (hash : Hash) : String :=
  String.ofList (marked (digits 64 hash.toNat))

end Hex

end CallTree
