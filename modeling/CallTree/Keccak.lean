import CallTree.Word

/-!
# The Keccak hash of 256 bits

The state is five rows of five lanes, a lane being a 64-bit word; lane `(x, y)` stands at index
`5 * y + x`. One round is `theta`, the combined rearrangement `rhoPi`, `chi` and the addition of a
round constant. The message is padded to a whole number of blocks of 136 bytes, each block is
added to the state before a permutation of 24 rounds, and the first four lanes are the digest.
-/

namespace CallTree

namespace Keccak

/-- Twenty-five lanes, row by row. -/
abbrev Lanes := Vector UInt64 25

/-- The lane in column `x` and row `y`, both taken modulo five. -/
def lane (state : Lanes) (x y : Nat) : UInt64 :=
  state.get ⟨5 * (y % 5) + x % 5, by omega⟩

/-- The lanes given by a function of column and row. -/
def tabulate (f : Nat → Nat → UInt64) : Lanes :=
  Vector.ofFn fun i => f (i.val % 5) (i.val / 5)

/-- A lane turned left by `n` places. -/
def rotate (word : UInt64) (n : Nat) : UInt64 :=
  (word <<< UInt64.ofNat n) ||| (word >>> UInt64.ofNat (64 - n))

/-! ## One round -/

/-- How far each lane is turned, row by row. -/
def offsets : Vector Nat 25 :=
  #v[0, 1, 62, 28, 27,
    36, 44, 6, 55, 20,
    3, 10, 43, 25, 39,
    41, 45, 15, 21, 8,
    18, 2, 61, 56, 14]

/-- The constants of the 24 rounds. -/
def roundConstants : List UInt64 :=
  [0x0000000000000001, 0x0000000000008082, 0x800000000000808a, 0x8000000080008000,
    0x000000000000808b, 0x0000000080000001, 0x8000000080008081, 0x8000000000008009,
    0x000000000000008a, 0x0000000000000088, 0x0000000080008009, 0x000000008000000a,
    0x000000008000808b, 0x800000000000008b, 0x8000000000008089, 0x8000000000008003,
    0x8000000000008002, 0x8000000000000080, 0x000000000000800a, 0x800000008000000a,
    0x8000000080008081, 0x8000000000008080, 0x0000000080000001, 0x8000000080008008]

/-- The sum of the five lanes of a column. -/
def column (state : Lanes) (x : Nat) : UInt64 :=
  lane state x 0 ^^^ lane state x 1 ^^^ lane state x 2 ^^^ lane state x 3 ^^^ lane state x 4

/-- Adds to each lane the sums of its two neighbouring columns. -/
def theta (state : Lanes) : Lanes :=
  let sums := Vector.ofFn fun i : Fin 5 => column state i.val
  tabulate fun x y => lane state x y ^^^
    (sums.get ⟨(x + 4) % 5, by omega⟩ ^^^ rotate (sums.get ⟨(x + 1) % 5, by omega⟩) 1)

/-- Turns each lane by its offset and moves it to its new place. -/
def rhoPi (state : Lanes) : Lanes :=
  tabulate fun x y =>
    rotate (lane state (x + 3 * y) x) (offsets.get ⟨5 * (x % 5) + (x + 3 * y) % 5, by omega⟩)

/-- Combines each lane with the two that follow it in its row. -/
def chi (state : Lanes) : Lanes :=
  tabulate fun x y => lane state x y ^^^ (~~~ lane state (x + 1) y &&& lane state (x + 2) y)

/-- One round with its constant. -/
def round (state : Lanes) (constant : UInt64) : Lanes :=
  let mixed := chi (rhoPi (theta state))
  mixed.set 0 (mixed[0] ^^^ constant)

/-- All 24 rounds. -/
def permute (state : Lanes) : Lanes :=
  roundConstants.foldl round state

/-! ## Message and digest -/

/-- The number of message bytes that one permutation takes in. -/
def rate : Nat := 136

/-- The message with a marker behind it, filled up to a whole number of blocks. -/
def padded (message : Bytes) : Bytes :=
  let missing := rate - message.length % rate
  if missing = 1 then message ++ [0x81]
  else message ++ 0x01 :: List.replicate (missing - 2) 0 ++ [0x80]

/-- The word whose least significant byte comes first. -/
def wordOf (bytes : Bytes) : UInt64 :=
  bytes.foldr (fun b word => (word <<< 8) ||| b.toUInt64) 0

/-- The eight bytes of a word, the least significant one first. -/
def bytesOf (word : UInt64) : Bytes :=
  (List.range 8).map fun i => (word >>> UInt64.ofNat (8 * i)).toUInt8

/-- Adds one block to the state and permutes it. -/
def absorb (state : Lanes) (block : Bytes) : Lanes :=
  permute (Vector.ofFn fun i => state[i] ^^^ wordOf ((block.drop (8 * i.val)).take 8))

/-- The digest of a message. -/
def digest (message : Bytes) : Bytes :=
  let text := padded message
  let blocks := (List.range (text.length / rate)).map fun i => (text.drop (rate * i)).take rate
  let state := blocks.foldl absorb (Vector.replicate 25 0)
  [state[0], state[1], state[2], state[3]].flatMap bytesOf

theorem length_padded_mod (message : Bytes) : (padded message).length % rate = 0 := by
  by_cases h : rate - message.length % rate = 1
  · simp only [padded, if_pos h, List.length_append, List.length_singleton]
    simp only [rate] at h ⊢
    omega
  · simp only [padded, if_neg h, List.length_append, List.length_cons, List.length_replicate,
      List.length_nil]
    simp only [rate] at h ⊢
    omega

end Keccak

end CallTree
