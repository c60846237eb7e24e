import CallTree.Duration
import CallTree.Json.Value
import CallTree.Text.Numeral

/-!
# Words, bytes and durations as JSON values

Each kind of scalar has one written form and is read in several.
* A word is written as a hexadecimal quantity. It is read from any numeral or from an integer.
* Bytes, addresses and hashes are written as hexadecimal text. They are read with or without the
  marker, in either case of letters, or from an array of integers below 256. Behind the last byte
  of an address or a hash the array may have one item more, if that is no byte.
* A duration is written as an object of seconds and nanoseconds. It is also read from an array of
  the two.

What was written reads back: `word?_ofWord`, `bytes?_ofBytes`, `address?_ofAddress`,
`hash?_ofHash`, `duration?_ofDuration`.
-/

namespace CallTree

namespace Json

namespace Value

/-! ## Writing -/

/-- A word. -/
def ofWord (word : Word) : Value := ofString (Hex.wordText word)

/-- A 64-bit number as a hexadecimal quantity. -/
def ofQuantity (n : UInt64) : Value := ofString (Hex.numberText n)

/-- A byte string. -/
def ofBytes (bytes : Bytes) : Value := ofString (Hex.bytesText bytes)

/-- An address. -/
def ofAddress (address : Address) : Value := ofString (Hex.addressText address)

/-- A hash. -/
def ofHash (hash : Hash) : Value := ofString (Hex.hashText hash)

/-- A duration. -/
def ofDuration (d : Duration) : Value :=
  ofMembers [("secs", ofNat d.secs.toNat), ("nanos", ofNat d.nanos.val)]

/-- A value that may be missing, written as `null` if it is. -/
def ofOption {α : Type} (write : α → Value) : Option α → Value
  | none => .null
  | some a => write a

/-! ## Reading -/

/-- A word, from a numeral below `2 ^ 256` or from an integer. -/
def word? : Value → Option Word
  | .text (some s) => do
    let n ← Numeral.value? s.toList
    if n < Nat.pow 2 256 then some (BitVec.ofNat 256 n) else none
  | v => v.number64?.map fun n => BitVec.ofNat 256 n.toNat

/-- A byte, from an integer below 256. -/
def byte? (v : Value) : Option UInt8 := do
  let n ← v.number64?
  if n < 256 then some n.toUInt8 else none

/-- A byte string. -/
def bytes? : Value → Option Bytes
  | .text (some s) => Hex.bytes? (Hex.unmarked s.toList)
  | .array items => items.mapM byte?
  | _ => none

/-- The items may follow the last byte of a row: there is none, or a single one that is no byte. -/
def mayFollow : List Value → Bool
  | [] => true
  | [v] => v.byte?.isNone
  | _ => false

/-- The number whose bytes are given, the most significant first, if there are `size` of them. -/
def sized? (size : Nat) : Value → Option Nat
  | .text (some s) =>
    let digits := Hex.unmarked s.toList
    if digits.length = 2 * size then Hex.value? digits else none
  | .array items => do
    let bytes ← (items.take size).mapM byte?
    if bytes.length = size && mayFollow (items.drop size) then
      some (bytes.foldl (fun n b => 256 * n + b.toNat) 0)
    else none
  | _ => none

/-- An address: twenty bytes. -/
def address? (v : Value) : Option Address :=
  (v.sized? 20).map (BitVec.ofNat 160)

/-- A hash: 32 bytes. -/
def hash? (v : Value) : Option Hash :=
  (v.sized? 32).map (BitVec.ofNat 256)

/-- A duration of some seconds and less than `2 ^ 32` nanoseconds. -/
def durationOf? (secs nanos : Value) : Option Duration := do
  let secs ← secs.number64?
  let nanos ← nanos.number64?
  if nanos.toNat < UInt32.size then Duration.ofParts? secs.toNat nanos.toNat else none

/-- A duration, from an object of exactly its two members or from an array of the two. -/
def duration? : Value → Option Duration
  | .array [secs, nanos] => durationOf? secs nanos
  | .object [(some "secs", secs), (some "nanos", nanos)] => durationOf? secs nanos
  | .object [(some "nanos", nanos), (some "secs", secs)] => durationOf? secs nanos
  | _ => none

/-- A value that may be missing, `null` standing for one that is. -/
def option? {α : Type} (read : Value → Option α) : Value → Option (Option α)
  | .null => some none
  | v => (read v).map some

/-- One of several named things: its label, or an object of a single `null` by that name. -/
def labelled? {α : Type} (ofLabel? : String → Option α) : Value → Option α
  | .text (some label) => ofLabel? label
  | .object [(some label, .null)] => ofLabel? label
  | _ => none

/-! ## What was written reads back -/

theorem word?_ofWord (word : Word) : (ofWord word).word? = some word := by
  have h : word.toNat % Nat.pow 16 64 = word.toNat := Nat.mod_eq_of_lt word.isLt
  have hlt : word.toNat < Nat.pow 2 256 := word.isLt
  simp only [ofWord, ofString, word?, Hex.wordText, String.toList_ofList,
    Numeral.value?_marked_quantity, h, Option.bind_eq_bind, Option.bind_some, if_pos hlt,
    BitVec.ofNat_toNat, BitVec.setWidth_eq]

theorem bytes?_ofBytes (bytes : Bytes) : (ofBytes bytes).bytes? = some bytes := by
  simp [ofBytes, ofString, bytes?, Hex.bytesText, Hex.bytes?_ofBytes]

theorem address?_ofAddress (address : Address) : (ofAddress address).address? = some address := by
  have h : address.toNat % Nat.pow 16 40 = address.toNat := Nat.mod_eq_of_lt address.isLt
  simp only [ofAddress, ofString, address?, sized?, Hex.addressText, String.toList_ofList,
    Hex.unmarked_marked, Hex.length_digits, if_pos, Hex.value?_digits, h, Option.map_some,
    BitVec.ofNat_toNat, BitVec.setWidth_eq]

theorem hash?_ofHash (hash : Hash) : (ofHash hash).hash? = some hash := by
  have h : hash.toNat % Nat.pow 16 64 = hash.toNat := Nat.mod_eq_of_lt hash.isLt
  simp only [ofHash, ofString, hash?, sized?, Hex.hashText, String.toList_ofList,
    Hex.unmarked_marked, Hex.length_digits, if_pos, Hex.value?_digits, h, Option.map_some,
    BitVec.ofNat_toNat, BitVec.setWidth_eq]

theorem duration?_ofDuration (d : Duration) : (ofDuration d).duration? = some d := by
  have hn : d.nanos.val < UInt64.size := Nat.lt_trans d.nanos.isLt (by decide)
  have hnat : (UInt64.ofNat d.nanos.val).toNat = d.nanos.val := UInt64.toNat_ofNat_of_lt' hn
  have hnum : (ofNat d.nanos.val).number64? = some (UInt64.ofNat d.nanos.val) := by
    have := number64?_ofNat (UInt64.ofNat d.nanos.val)
    rwa [hnat] at this
  have hsmall : d.nanos.val < UInt32.size := Nat.lt_trans d.nanos.isLt (by decide)
  have hof : durationOf? (ofNat d.secs.toNat) (ofNat d.nanos.val) = some d := by
    simp only [durationOf?, number64?_ofNat, hnum, Option.bind_eq_bind, Option.bind_some, hnat,
      if_pos hsmall, Duration.ofParts?_self]
  exact hof

theorem option?_ofOption {α : Type} {write : α → Value} {read : Value → Option α}
    (hread : ∀ a, read (write a) = some a) (hnull : ∀ a, write a ≠ .null) (a : Option α) :
    option? read (ofOption write a) = some a := by
  cases a with
  | none => rfl
  | some a =>
    unfold option? ofOption
    split
    next h => exact absurd h (hnull a)
    next => rw [hread]; rfl

example : word? (ofString "0b101") = some 5 := by decide +kernel
example : (address? (ofString "0x00")) = none := by decide +kernel
example : sized? 2 (.array [ofNat 1, ofNat 2, .null]) = some 258 := by decide +kernel
example : sized? 2 (.array [ofNat 1, ofNat 2, ofNat 3]) = none := by decide +kernel
example : duration? (.array [ofNat 1, ofNat 2000000000]) = some ⟨3, 0⟩ := by decide +kernel

end Value

end Json

end CallTree
