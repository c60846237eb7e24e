import CallTree.Refusal

/-!
# Regions of memory

Memory grows while an instruction executes, but a step shows it as it was before. A region may
therefore reach beyond the memory shown, up to a limit, and the missing bytes read as zero.

* `Memory.machineRead` reads a region given by 64-bit numbers as a machine does: it has no other
  numbers, its slices lie within bounds, and it finds room for the bytes before it copies them.
  Where one of these is impossible it stops for good, without any answer (`Halt`).
* `Memory.read` is the same reading where there is room for the bytes. It says with natural numbers
  which regions can be read, and takes the room for granted.
* `Region.machineRead` and `Region.read` read a region given by words. The empty region reads as
  nothing, wherever it lies; a word without a 64-bit number is out of reach.
-/

namespace CallTree

namespace Memory

/-- The bytes from `offset` on, `len` of them, with zeros for those beyond the end of memory. -/
def slice (memory : Bytes) (offset len : Nat) : Bytes :=
  let available := (memory.drop offset).take len
  available ++ List.replicate (len - available.length) 0

@[simp] theorem length_slice (memory : Bytes) (offset len : Nat) :
    (slice memory offset len).length = len := by
  simp only [slice, List.length_append, List.length_replicate, List.length_take, List.length_drop]
  omega

theorem getElem?_slice (memory : Bytes) {offset len i : Nat} (h : i < len) :
    (slice memory offset len)[i]? = some (memory[offset + i]?.getD 0) := by
  unfold slice
  by_cases hi : i < ((memory.drop offset).take len).length
  · rw [List.getElem?_append_left hi, List.getElem?_take_of_lt h, List.getElem?_drop]
    have hlt : offset + i < memory.length := by
      simp at hi
      omega
    simp [hlt]
  · have hge : memory.length ≤ offset + i := by
      simp at hi
      omega
    rw [List.getElem?_append_right (by omega), List.getElem?_replicate,
      List.getElem?_eq_none hge, if_pos (by simp; omega)]
    rfl

/-- Reads the region of `len` bytes at `offset`. It is out of reach if its end does not fit 64
bits or lies more than `limit` bytes beyond the end of memory. -/
def read (memory : Bytes) (offset len limit : UInt64) : Except Refusal Bytes :=
  let stop := offset.toNat + len.toNat
  if len = 0 then .ok []
  else if UInt64.size ≤ stop then .error (.outOfReach offset len limit)
  else if limit.toNat < stop - memory.length then .error (.outOfReach offset len limit)
  else .ok (slice memory offset.toNat len.toNat)

example : read [1, 2] 1 4 16 = .ok [2, 0, 0, 0] := rfl
example : read [] 0 17 16 = .error (.outOfReach 0 17 16) := rfl
example : read [1, 2] 2 1 0 = .error (.outOfReach 2 1 0) := rfl

/-! ## The reading of a machine -/

/-- No byte string has more bytes. -/
def capacity : Nat := 0x7fffffffffffffff

/-- Why a machine stops for good. -/
inductive Halt
  /-- A difference would be negative, or a slice would not lie within its byte string. -/
  | outOfRange
  /-- A byte string would have more bytes than any has. -/
  | noRoom
  deriving DecidableEq, Repr

/-- The sum of two numbers, if it has 64 bits. -/
def sum? (a b : UInt64) : Option UInt64 :=
  if a.toNat + b.toNat < UInt64.size then some (a + b) else none

/-- The difference of two numbers, of which the second must not be the greater one. -/
def difference (a b : UInt64) : Except Halt UInt64 :=
  if b ≤ a then .ok (a - b) else .error .outOfRange

/-- The bytes from `start` up to `stop`, which must be positions of the byte string, in this order. -/
def between (bytes : Bytes) (start stop : UInt64) : Except Halt Bytes :=
  if start.toNat ≤ stop.toNat ∧ stop.toNat ≤ bytes.length then
    .ok ((bytes.drop start.toNat).take (stop.toNat - start.toNat))
  else .error .outOfRange

/-- The byte string with others in the place of its first ones, of which it must have as many. -/
def overwrite (bytes others : Bytes) : Except Halt Bytes :=
  if others.length ≤ bytes.length then .ok (others ++ bytes.drop others.length)
  else .error .outOfRange

/-- Room for `len` bytes, all of them zero. -/
def zeros (len : UInt64) : Except Halt Bytes :=
  if len.toNat ≤ capacity then .ok (List.replicate len.toNat 0) else .error .noRoom

/-- Whether `stop` lies more than `limit` bytes beyond the end of memory. The difference is only taken
where `stop` lies beyond the end. -/
def exceeds (memory : Bytes) (stop limit : UInt64) : Except Halt Bool :=
  let size := UInt64.ofNat memory.length
  if size < stop then (difference stop size).map fun missing => decide (limit < missing)
  else .ok false

/-- The bytes from `offset` up to `stop`: `len` zeros, of which the first are overwritten by what
memory has there. -/
def machineSlice (memory : Bytes) (offset len stop : UInt64) : Except Halt Bytes :=
  let size := UInt64.ofNat memory.length
  (zeros len).bind fun zeros =>
    if offset < size then
      (between memory offset (min stop size)).bind fun available => overwrite zeros available
    else .ok zeros

/-- Reads the region of `len` bytes at `offset` as a machine does. -/
def machineRead (memory : Bytes) (offset len limit : UInt64) :
    Except Halt (Except Refusal Bytes) :=
  if len = 0 then .ok (.ok [])
  else match sum? offset len with
    | none => .ok (.error (.outOfReach offset len limit))
    | some stop =>
      (exceeds memory stop limit).bind fun exceeds =>
        if exceeds then .ok (.error (.outOfReach offset len limit))
        else (machineSlice memory offset len stop).map .ok

end Memory

/-- A region of memory as an instruction names it. -/
structure Region where
  offset : Word
  len : Word
  deriving DecidableEq, Repr

namespace Region

/-- The 64-bit number of a word, the greatest one if it has none. -/
def clamp (word : Word) : UInt64 :=
  (Word.toUInt64? word).getD 0xffffffffffffffff

/-- Reads a region of memory. -/
def read (region : Region) (memory : Bytes) (limit : UInt64) : Except Refusal Bytes :=
  if region.len = 0 then .ok []
  else match Word.toUInt64? region.offset, Word.toUInt64? region.len with
    | some offset, some len => Memory.read memory offset len limit
    | _, _ => .error (.outOfReach (clamp region.offset) (clamp region.len) limit)

/-- Reads a region of memory as a machine does. -/
def machineRead (region : Region) (memory : Bytes) (limit : UInt64) :
    Except Memory.Halt (Except Refusal Bytes) :=
  if region.len = 0 then .ok (.ok [])
  else match Word.toUInt64? region.offset, Word.toUInt64? region.len with
    | some offset, some len => Memory.machineRead memory offset len limit
    | _, _ => .ok (.error (.outOfReach (clamp region.offset) (clamp region.len) limit))

example : (read ⟨2 ^ 255, 0⟩ [] 16).toOption = some [] := by decide +kernel
example : clamp (2 ^ 255) = 0xffffffffffffffff := by decide +kernel

end Region

end CallTree
