import CallTree.Memory

/-!
# Regions in reach

A region is in reach if its end has a 64-bit number and lies at most `limit` bytes beyond the end of
memory. Both conditions are about natural numbers, so that no sum is too great for them and no
difference is cut. A region that is not empty is read exactly if it is in reach, and each of its bytes
is that of memory, or zero.

A machine has no natural numbers, and it stops for good where a number or a slice goes out of range or
where it finds no room for the bytes. Numbers and slices never do so. But a region in reach may have
more bytes than any byte string: then the machine stops (`machineRead_noRoom`). Any other region is
read, or is refused, as the natural numbers say.

Results:
1. `Region.read_of_len_ne_zero`, `Region.toNat_clamp`: the reading of a region that is not empty.
2. `Memory.exceeds_eq`, `Memory.between_eq`, `Memory.machineSlice_eq`, `Region.machineRead_eq`:
   what a machine reads, and where it stops.
3. `Region.reads`: every region of every memory.
-/

namespace CallTree

/-! ## 1. Reach -/

/-- The end of a region has a 64-bit number and lies at most `limit` bytes beyond the end of memory. -/
def Memory.InReach (memory : Bytes) (stop : Nat) (limit : UInt64) : Prop :=
  stop < UInt64.size ∧ stop ≤ memory.length + limit.toNat

instance (memory : Bytes) (stop : Nat) (limit : UInt64) :
    Decidable (Memory.InReach memory stop limit) :=
  inferInstanceAs (Decidable (_ ∧ _))

/-- The end lies beyond memory by a difference that is cut at zero. -/
theorem Memory.inReach_iff {memory : Bytes} {stop : Nat} {limit : UInt64} :
    InReach memory stop limit ↔ stop < UInt64.size ∧ ¬limit.toNat < stop - memory.length := by
  rw [InReach]
  omega

namespace Region

/-- The first position beyond a region. -/
def stop (region : Region) : Nat :=
  region.offset.toNat + region.len.toNat

/-- The end of the region is in reach. -/
def InReach (region : Region) (memory : Bytes) (limit : UInt64) : Prop :=
  Memory.InReach memory region.stop limit

instance (region : Region) (memory : Bytes) (limit : UInt64) :
    Decidable (region.InReach memory limit) :=
  inferInstanceAs (Decidable (Memory.InReach ..))

theorem clamp_of_toUInt64? {word : Word} {n : UInt64} (h : Word.toUInt64? word = some n) :
    clamp word = n := by
  rw [clamp, h]
  rfl

/-- A word that has no 64-bit number is replaced by the greatest one. -/
theorem toNat_clamp (word : Word) : (clamp word).toNat = min word.toNat (UInt64.size - 1) := by
  cases h : Word.toUInt64? word with
  | some n =>
    have hword := Word.toUInt64?_eq_some_iff.mp h
    have hlt : n.toNat < UInt64.size := n.toNat_lt
    rw [clamp_of_toUInt64? h]
    omega
  | none =>
    have hword := Word.toUInt64?_eq_none_iff.mp h
    have hgreatest : (clamp word).toNat = UInt64.size - 1 := by
      rw [clamp, h]
      rfl
    omega

end Region

theorem Memory.read_of_len_ne_zero {len : UInt64} (h : len ≠ 0) (memory : Bytes)
    (offset limit : UInt64) :
    read memory offset len limit =
    if InReach memory (offset.toNat + len.toNat) limit then
      .ok (slice memory offset.toNat len.toNat)
    else .error (.outOfReach offset len limit) := by
  simp only [read, if_neg h, inReach_iff]
  split
  next hfits => rw [if_neg fun hreach => Nat.not_lt_of_le hfits hreach.1]
  next hfits =>
    split
    next hfar => rw [if_neg fun hreach => hreach.2 hfar]
    next hfar => rw [if_pos ⟨Nat.lt_of_not_le hfits, hfar⟩]

namespace Region

variable {region : Region} {memory : Bytes} {limit : UInt64}

theorem inReach_of_toUInt64? {offset len : UInt64}
    (hoffset : Word.toUInt64? region.offset = some offset)
    (hlen : Word.toUInt64? region.len = some len) :
    region.InReach memory limit ↔ Memory.InReach memory (offset.toNat + len.toNat) limit := by
  rw [InReach, stop, Word.toUInt64?_eq_some_iff.mp hoffset, Word.toUInt64?_eq_some_iff.mp hlen]

/-- Nothing is in reach of a word without a 64-bit number. -/
theorem not_inReach_of_toUInt64?
    (h : Word.toUInt64? region.offset = none ∨ Word.toUInt64? region.len = none) :
    ¬region.InReach memory limit := by
  intro hreach
  have hstop : region.offset.toNat + region.len.toNat < UInt64.size := hreach.1
  rcases h with hoffset | hlen
  · have := Word.toUInt64?_eq_none_iff.mp hoffset
    omega
  · have := Word.toUInt64?_eq_none_iff.mp hlen
    omega

/-- A region that is not empty is read if it is in reach, and refused otherwise. -/
theorem read_of_len_ne_zero (h : region.len ≠ 0) (memory : Bytes) (limit : UInt64) :
    region.read memory limit =
    if region.InReach memory limit then
      .ok (Memory.slice memory region.offset.toNat region.len.toNat)
    else .error (.outOfReach (clamp region.offset) (clamp region.len) limit) := by
  rw [read, if_neg h]
  cases hoffset : Word.toUInt64? region.offset with
  | none => rw [if_neg (not_inReach_of_toUInt64? (.inl hoffset))]
  | some offset =>
    cases hlen : Word.toUInt64? region.len with
    | none => rw [if_neg (not_inReach_of_toUInt64? (.inr hlen))]
    | some len =>
      have hoffsetWord := Word.toUInt64?_eq_some_iff.mp hoffset
      have hlenWord := Word.toUInt64?_eq_some_iff.mp hlen
      have hne : len ≠ 0 := by
        rintro rfl
        exact h (BitVec.eq_of_toNat_eq hlenWord)
      simp only [inReach_of_toUInt64? hoffset hlen, clamp_of_toUInt64? hoffset,
        clamp_of_toUInt64? hlen, hoffsetWord, hlenWord]
      exact Memory.read_of_len_ne_zero hne memory offset limit

end Region

/-! ## 2. The reading of a machine -/

namespace Memory

theorem toNat_min (a b : UInt64) : (min a b).toNat = min a.toNat b.toNat := by
  show (if a ≤ b then a else b).toNat = _
  split
  next h => rw [Nat.min_eq_left (UInt64.le_iff_toNat_le.mp h)]
  next h =>
    rw [UInt64.le_iff_toNat_le] at h
    rw [Nat.min_eq_right (by omega)]

/-- Bytes may overwrite zeros of which there are as many. -/
theorem overwrite_zeros {available : Bytes} {len : Nat} (h : available.length ≤ len) :
    overwrite (List.replicate len 0) available =
    .ok (available ++ List.replicate (len - available.length) 0) := by
  rw [overwrite, List.length_replicate, if_pos h, List.drop_replicate]

theorem slice_of_le {memory : Bytes} {offset : Nat} (h : memory.length ≤ offset) (len : Nat) :
    slice memory offset len = List.replicate len 0 := by
  simp only [slice, List.drop_eq_nil_of_le h, List.take_nil, List.nil_append, List.length_nil,
    Nat.sub_zero]

variable {memory : Bytes} (hmemory : memory.length < UInt64.size)
include hmemory

theorem toNat_size : (UInt64.ofNat memory.length).toNat = memory.length :=
  UInt64.toNat_ofNat_of_lt' hmemory

theorem size_lt_iff {n : UInt64} : UInt64.ofNat memory.length < n ↔ memory.length < n.toNat := by
  rw [UInt64.lt_iff_toNat_lt, toNat_size hmemory]

theorem lt_size_iff {n : UInt64} : n < UInt64.ofNat memory.length ↔ n.toNat < memory.length := by
  rw [UInt64.lt_iff_toNat_lt, toNat_size hmemory]

/-- The difference is not negative where it is taken. -/
theorem exceeds_eq (stop limit : UInt64) :
    exceeds memory stop limit = .ok (decide (limit.toNat < stop.toNat - memory.length)) := by
  simp only [exceeds]
  split
  next hbeyond =>
    have hle : UInt64.ofNat memory.length ≤ stop := UInt64.le_of_lt hbeyond
    have hmissing : (stop - UInt64.ofNat memory.length).toNat = stop.toNat - memory.length := by
      rw [UInt64.toNat_sub_of_le _ _ hle, toNat_size hmemory]
    rw [difference, if_pos hle, ← hmissing]
    simp only [UInt64.lt_iff_toNat_lt]
    rfl
  next hinside =>
    rw [size_lt_iff hmemory, Nat.not_lt] at hinside
    have hnear : ¬limit.toNat < stop.toNat - memory.length := by
      rw [Nat.sub_eq_zero_of_le hinside]
      exact Nat.not_lt_zero _
    rw [decide_eq_false hnear]

/-- The slice of memory lies within memory. -/
theorem between_eq {offset len stop : UInt64} (hstop : stop.toNat = offset.toNat + len.toNat)
    (hinside : offset.toNat < memory.length) :
    between memory offset (min stop (UInt64.ofNat memory.length)) =
    .ok ((memory.drop offset.toNat).take len.toNat) := by
  have hend : (min stop (UInt64.ofNat memory.length)).toNat = min stop.toNat memory.length := by
    rw [toNat_min, toNat_size hmemory]
  have hbounds : offset.toNat ≤ min stop.toNat memory.length ∧
      min stop.toNat memory.length ≤ memory.length := by
    omega
  rw [between, hend, if_pos hbounds, List.take_eq_take_iff.mpr]
  rw [List.length_drop]
  omega

/-- Where there is room, a machine slices as the natural numbers say. -/
theorem machineSlice_eq {offset len stop : UInt64} (hstop : stop.toNat = offset.toNat + len.toNat) :
    machineSlice memory offset len stop =
    if capacity < len.toNat then .error .noRoom else .ok (slice memory offset.toNat len.toNat) := by
  rw [machineSlice, zeros]
  by_cases hroom : len.toNat ≤ capacity
  · rw [if_pos hroom, if_neg (Nat.not_lt_of_le hroom)]
    simp only [Except.bind, lt_size_iff hmemory]
    split
    next hinside =>
      rw [between_eq hmemory hstop hinside]
      exact overwrite_zeros (List.length_take_le _ _)
    next hbeyond => rw [slice_of_le (Nat.le_of_not_lt hbeyond)]
  · rw [if_neg hroom, if_pos (Nat.lt_of_not_le hroom)]
    rfl

/-- A machine stops only where it finds no room for the bytes of a region in reach. -/
theorem machineRead_eq (offset len limit : UInt64) :
    machineRead memory offset len limit =
    if InReach memory (offset.toNat + len.toNat) limit ∧ capacity < len.toNat then .error .noRoom
    else .ok (read memory offset len limit) := by
  by_cases hzero : len = 0
  · have hroom : ¬capacity < len.toNat := by
      rw [hzero]
      decide
    rw [machineRead, read, if_pos hzero, if_pos hzero, if_neg (not_and_of_not_right _ hroom)]
  rw [machineRead, if_neg hzero, read_of_len_ne_zero hzero, sum?]
  by_cases hfits : offset.toNat + len.toNat < UInt64.size
  · have hstop : (offset + len).toNat = offset.toNat + len.toNat := by
      rw [UInt64.toNat_add, Nat.mod_eq_of_lt hfits]
    rw [if_pos hfits]
    show (exceeds memory (offset + len) limit).bind _ = _
    rw [exceeds_eq hmemory, hstop]
    by_cases hfar : limit.toNat < offset.toNat + len.toNat - memory.length
    · have hnot : ¬InReach memory (offset.toNat + len.toNat) limit := fun hreach =>
        (inReach_iff.mp hreach).2 hfar
      rw [decide_eq_true hfar, if_neg (not_and_of_not_left _ hnot), if_neg hnot]
      rfl
    · have hreach : InReach memory (offset.toNat + len.toNat) limit := inReach_iff.mpr ⟨hfits, hfar⟩
      rw [decide_eq_false hfar, if_pos hreach]
      show (machineSlice memory offset len (offset + len)).map _ = _
      simp only [machineSlice_eq hmemory hstop, hreach, true_and]
      split <;> rfl
  · have hnot : ¬InReach memory (offset.toNat + len.toNat) limit := fun hreach => hfits hreach.1
    rw [if_neg hfits, if_neg (not_and_of_not_left _ hnot), if_neg hnot]

end Memory

namespace Region

/-- A machine reads a region as the natural numbers say, but it stops where it finds no room for the
bytes of a region in reach. -/
theorem machineRead_eq {memory : Bytes} (hmemory : memory.length < UInt64.size) (region : Region)
    (limit : UInt64) :
    region.machineRead memory limit =
    if region.InReach memory limit ∧ Memory.capacity < region.len.toNat then .error .noRoom
    else .ok (region.read memory limit) := by
  by_cases hzero : region.len = 0
  · have hroom : ¬Memory.capacity < region.len.toNat := by
      rw [hzero]
      decide
    rw [machineRead, read, if_pos hzero, if_pos hzero, if_neg (not_and_of_not_right _ hroom)]
  rw [machineRead, read, if_neg hzero, if_neg hzero]
  cases hoffset : Word.toUInt64? region.offset with
  | none => rw [if_neg (not_and_of_not_left _ (not_inReach_of_toUInt64? (.inl hoffset)))]
  | some offset =>
    cases hlen : Word.toUInt64? region.len with
    | none => rw [if_neg (not_and_of_not_left _ (not_inReach_of_toUInt64? (.inr hlen)))]
    | some len =>
      simp only [inReach_of_toUInt64? hoffset hlen, Word.toUInt64?_eq_some_iff.mp hlen]
      exact Memory.machineRead_eq hmemory offset len limit

/-! ## 3. Every region -/

/-- What reading a region of memory comes to. -/
structure Reads (region : Region) (memory : Bytes) (limit : UInt64) : Prop where
  /-- The empty region reads as nothing, wherever it lies. -/
  empty : region.len = 0 → region.machineRead memory limit = .ok (.ok [])
  /-- Any other region is read exactly if it is in reach and there is room for it. -/
  read_iff : region.len ≠ 0 → ((∃ bytes, region.machineRead memory limit = .ok (.ok bytes)) ↔
    region.InReach memory limit ∧ region.len.toNat ≤ Memory.capacity)
  /-- It is refused exactly if it is not in reach. -/
  refused_iff : region.len ≠ 0 → ((∃ e, region.machineRead memory limit = .ok (.error e)) ↔
    ¬region.InReach memory limit)
  /-- The machine stops only for want of room: no number and no slice goes out of range. -/
  stopped_iff : ∀ halt, region.machineRead memory limit = .error halt ↔
    halt = .noRoom ∧ region.InReach memory limit ∧ Memory.capacity < region.len.toNat
  length : ∀ bytes, region.machineRead memory limit = .ok (.ok bytes) →
    bytes.length = region.len.toNat
  /-- A byte is that of memory, or zero if it lies beyond the end. -/
  byte : ∀ bytes i, region.machineRead memory limit = .ok (.ok bytes) → i < region.len.toNat →
    bytes[i]? = some (memory[region.offset.toNat + i]?.getD 0)
  /-- The reason of a refusal gives the greatest 64-bit number for a word that has none. -/
  refused : ∀ e, region.machineRead memory limit = .ok (.error e) →
    ∃ offset len, e = .outOfReach offset len limit ∧
      offset.toNat = min region.offset.toNat (UInt64.size - 1) ∧
      len.toNat = min region.len.toNat (UInt64.size - 1)
  /-- Where there is room, the reading is the one on which the frames rely. -/
  room : region.len.toNat ≤ Memory.capacity →
    region.machineRead memory limit = .ok (region.read memory limit)

theorem eq_slice_of_read {region : Region} {memory : Bytes} {limit : UInt64} {bytes : Bytes}
    (h : region.read memory limit = .ok bytes) :
    bytes = Memory.slice memory region.offset.toNat region.len.toNat := by
  by_cases hzero : region.len = 0
  · rw [read, if_pos hzero] at h
    cases h
    refine (List.eq_nil_of_length_eq_zero ?_).symm
    rw [Memory.length_slice, hzero]
    rfl
  · rw [read_of_len_ne_zero hzero] at h
    split at h
    · exact (Except.ok.inj h).symm
    · cases h

/-- What a machine answers is the reading. -/
theorem read_of_machineRead {region : Region} {memory : Bytes} {limit : UInt64}
    {result : Except Refusal Bytes} (hmemory : memory.length < UInt64.size)
    (h : region.machineRead memory limit = .ok result) : region.read memory limit = result := by
  rw [machineRead_eq hmemory] at h
  split at h
  · cases h
  · exact Except.ok.inj h

section

variable {region : Region} {memory : Bytes} {limit : UInt64}
  (hmemory : memory.length < UInt64.size)
include hmemory

theorem machineRead_ok_iff (hne : region.len ≠ 0) :
    (∃ bytes, region.machineRead memory limit = .ok (.ok bytes)) ↔
    region.InReach memory limit ∧ region.len.toNat ≤ Memory.capacity := by
  constructor
  · rintro ⟨bytes, h⟩
    rw [machineRead_eq hmemory, read_of_len_ne_zero hne] at h
    split at h
    next => cases h
    next hgoesOn =>
      split at h
      next hreach => exact ⟨hreach, Nat.le_of_not_lt fun hroom => hgoesOn ⟨hreach, hroom⟩⟩
      next => cases h
  · rintro ⟨hreach, hroom⟩
    have hgoesOn : ¬(region.InReach memory limit ∧ Memory.capacity < region.len.toNat) :=
      fun h => Nat.not_lt_of_le hroom h.2
    rw [machineRead_eq hmemory, if_neg hgoesOn, read_of_len_ne_zero hne, if_pos hreach]
    exact ⟨_, rfl⟩

theorem machineRead_refused_iff (hne : region.len ≠ 0) :
    (∃ e, region.machineRead memory limit = .ok (.error e)) ↔ ¬region.InReach memory limit := by
  constructor
  · rintro ⟨e, h⟩ hreach
    have hread := read_of_machineRead hmemory h
    rw [read_of_len_ne_zero hne, if_pos hreach] at hread
    cases hread
  · intro hreach
    rw [machineRead_eq hmemory, if_neg fun h => hreach h.1, read_of_len_ne_zero hne, if_neg hreach]
    exact ⟨_, rfl⟩

theorem machineRead_error_iff (halt : Memory.Halt) :
    region.machineRead memory limit = .error halt ↔
    halt = .noRoom ∧ region.InReach memory limit ∧ Memory.capacity < region.len.toNat := by
  rw [machineRead_eq hmemory]
  split
  next hstops =>
    constructor
    · intro h
      exact ⟨(Except.error.inj h).symm, hstops⟩
    · rintro ⟨rfl, -⟩
      rfl
  next hgoesOn => exact iff_of_false (fun h => by cases h) fun h => hgoesOn h.2

end

/-- Every region of every memory that a machine can hold is read, or is out of reach, or is one for
which there is no room, as the arithmetic of natural numbers says. -/
theorem reads (region : Region) (memory : Bytes) (limit : UInt64)
    (hmemory : memory.length < UInt64.size) : region.Reads memory limit where
  empty hzero := if_pos hzero
  read_iff := machineRead_ok_iff hmemory
  refused_iff := machineRead_refused_iff hmemory
  stopped_iff := machineRead_error_iff hmemory
  length bytes h := by
    rw [eq_slice_of_read (read_of_machineRead hmemory h), Memory.length_slice]
  byte bytes i h hi := by
    rw [eq_slice_of_read (read_of_machineRead hmemory h), Memory.getElem?_slice memory hi]
  refused e h := by
    have hread := read_of_machineRead hmemory h
    have hne : region.len ≠ 0 := by
      intro hzero
      rw [read, if_pos hzero] at hread
      cases hread
    rw [read_of_len_ne_zero hne] at hread
    split at hread
    · cases hread
    · exact ⟨_, _, (Except.error.inj hread).symm, toNat_clamp _, toNat_clamp _⟩
  room hroom := by
    rw [machineRead_eq hmemory, if_neg fun h => Nat.not_lt_of_le hroom h.2]

/-- A region of which one byte lies in memory and three lie beyond its end. -/
theorem reads_straddling :
    machineRead ⟨1, 4⟩ [1, 2] 16 = .ok (.ok [2, 0, 0, 0]) ∧ Reads ⟨1, 4⟩ [1, 2] 16 :=
  ⟨rfl, reads ⟨1, 4⟩ [1, 2] 16 (by decide)⟩

/-- A region that is in reach, but has more bytes than any byte string. -/
theorem machineRead_noRoom :
    let region : Region := ⟨0, 0x8000000000000000⟩
    region.InReach [] 0xffffffffffffffff ∧
    region.machineRead [] 0xffffffffffffffff = .error .noRoom ∧
    ¬∃ bytes, region.machineRead [] 0xffffffffffffffff = .ok (.ok bytes) := by
  refine ⟨by decide, rfl, fun ⟨bytes, h⟩ => ?_⟩
  cases h

end Region

end CallTree
