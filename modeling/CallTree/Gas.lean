/-!
# Gas

Gas is counted in 64-bit numbers and its arithmetic never wraps. A difference is cut at zero and
a sum is capped at the greatest number, so both are determined by the arithmetic of natural
numbers (`toNat_cutSub`, `toNat_capAdd`).
-/

namespace CallTree

/-- An amount of gas. -/
abbrev Gas := UInt64

namespace Gas

/-- The greatest amount. -/
def most : Gas := 0xffffffffffffffff

/-- The difference of two amounts, zero if the second is the greater one. -/
def cutSub (a b : Gas) : Gas :=
  if b ≤ a then a - b else 0

/-- The sum of two amounts, the greatest amount if it does not fit. -/
def capAdd (a b : Gas) : Gas :=
  if a.toNat + b.toNat < UInt64.size then a + b else most

@[simp] theorem toNat_most : most.toNat = UInt64.size - 1 := rfl

@[simp] theorem toNat_cutSub (a b : Gas) : (cutSub a b).toNat = a.toNat - b.toNat := by
  unfold cutSub
  split
  next h => exact UInt64.toNat_sub_of_le a b h
  next h =>
    have : a.toNat < b.toNat := by
      rw [UInt64.le_iff_toNat_le] at h
      omega
    simp
    omega

@[simp] theorem toNat_capAdd (a b : Gas) :
    (capAdd a b).toNat = min (UInt64.size - 1) (a.toNat + b.toNat) := by
  unfold capAdd
  split
  next h => rw [UInt64.toNat_add, Nat.mod_eq_of_lt h]; omega
  next h => rw [toNat_most]; omega

example : cutSub 10 20 = 0 := by decide
example : capAdd most 1 = most := by decide

end Gas

end CallTree
