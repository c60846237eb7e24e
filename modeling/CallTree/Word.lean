/-!
# Words, addresses and byte strings

The machine computes on words of 256 bits. An account is named by 160 bits, and a word that
stands for an account names it by its low 160 bits. A hash is a word that is only ever
compared. Byte strings are lists, so that regions of memory, inputs and outputs share the
vocabulary of lists.

A region of memory is given by two words, but memory is indexed by 64-bit numbers. The passage
from a word to such a number is partial (`Word.toUInt64?`): it is defined exactly on the words
below `2 ^ 64` (`toUInt64?_eq_some_iff`).
-/

namespace CallTree

/-- A machine word. -/
abbrev Word := BitVec 256

/-- The name of an account. -/
abbrev Address := BitVec 160

/-- The name of a block, of a transaction or of a piece of code. -/
abbrev Hash := BitVec 256

/-- A byte string. -/
abbrev Bytes := List UInt8

/-! ## Reading a word -/

/-- The account that a word names: its low 160 bits, the high 96 bits being ignored. -/
def Word.toAddress (word : Word) : Address :=
  word.setWidth 160

theorem Word.toNat_toAddress (word : Word) :
    (Word.toAddress word).toNat = word.toNat % Nat.pow 2 160 := by
  simp [Word.toAddress]

/-- The 64-bit number that a word stands for, if it stands for one. -/
def Word.toUInt64? (word : Word) : Option UInt64 :=
  if word.toNat < UInt64.size then some (UInt64.ofNat word.toNat) else none

theorem Word.toUInt64?_eq_some_iff {word : Word} {n : UInt64} :
    Word.toUInt64? word = some n ↔ word.toNat = n.toNat := by
  have hn : n.toNat < UInt64.size := n.toNat_lt
  unfold Word.toUInt64?
  split
  next h =>
    rw [Option.some.injEq, ← UInt64.toNat_inj, UInt64.toNat_ofNat_of_lt' h]
  next h =>
    constructor
    · intro h'; cases h'
    · omega

theorem Word.toUInt64?_eq_none_iff {word : Word} :
    Word.toUInt64? word = none ↔ UInt64.size ≤ word.toNat := by
  unfold Word.toUInt64?
  split
  next h => simp; omega
  next h => simpa using h

example : Word.toAddress 0x123456789000000000000000000000000000000000000000ff =
    0x9000000000000000000000000000000000000000ff := by decide
example : Word.toUInt64? 0xffffffffffffffff = some 0xffffffffffffffff := by decide
example : Word.toUInt64? 0x10000000000000000 = none := by decide

end CallTree
