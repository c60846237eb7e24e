import CallTree.Forest.Basic

/-!
# Forests as lists of frames

`Forest.append` adds several frames behind the others. Results:
1. `modify_congr`, `modify_modify`: what a change in place depends on, and two changes of one frame.
2. `push_eq_append`, `append_append`, `modify_append_of_lt`, `modify_append_size`: frames added and
   frames changed in place, the one put before the other.
3. `append_holds`: the frames that were added are in the forest.
-/

namespace CallTree

namespace Forest

variable {forest : Forest} {id : Nat}

theorem exists_get? (h : id < forest.size) : ∃ frame, forest.get? id = some frame := by
  rw [← Option.isSome_iff_exists, Option.isSome_iff_ne_none, ne_eq, get?_eq_none_iff]
  omega

theorem lt_size_of_get? {frame : Frame} (h : forest.get? id = some frame) : id < forest.size := by
  rw [← Nat.not_le, ← get?_eq_none_iff, h]
  exact Option.some_ne_none frame

/-! ## 1. Changes in place -/

/-- A change in place depends only on what it makes of the frame that is there. -/
theorem modify_congr {f g : Frame → Frame}
    (h : ∀ frame, forest.get? id = some frame → f frame = g frame) :
    forest.modify id f = forest.modify id g := by
  refine ext fun other => ?_
  rw [get?_modify, get?_modify]
  by_cases hid : id = other
  · subst hid
    rw [if_pos rfl, if_pos rfl]
    cases hframe : forest.get? id with
    | none => rfl
    | some frame => exact congrArg some (h frame hframe)
  · rw [if_neg hid, if_neg hid]

theorem modify_self {f : Frame → Frame} (h : ∀ frame, forest.get? id = some frame → f frame = frame) :
    forest.modify id f = forest := by
  refine ext fun other => ?_
  rw [get?_modify]
  by_cases hid : id = other
  · subst hid
    rw [if_pos rfl]
    cases hframe : forest.get? id with
    | none => rfl
    | some frame => exact congrArg some (h frame hframe)
  · rw [if_neg hid]

theorem modify_modify (forest : Forest) (id : FrameId) (f g : Frame → Frame) :
    (forest.modify id f).modify id g = forest.modify id fun frame => g (f frame) := by
  refine ext fun other => ?_
  simp only [get?_modify]
  by_cases hid : id = other
  · simp only [if_pos hid, Option.map_map]
    rfl
  · simp only [if_neg hid]

@[simp] theorem modify_ofRoot (root : Frame) (f : Frame → Frame) :
    (ofRoot root).modify rootId f = ofRoot (f root) := by
  simp [ofRoot, modify, rootId]

/-! ## 2. Frames behind the others -/

/-- Adds frames behind the others. -/
def append (forest : Forest) (frames : List Frame) : Forest :=
  ⟨forest.frames ++ frames.toArray⟩

@[simp] theorem size_append (forest : Forest) (frames : List Frame) :
    (forest.append frames).size = forest.size + frames.length := by
  simp [size, append]

theorem get?_append (forest : Forest) (frames : List Frame) (id : Nat) :
    (forest.append frames).get? id =
    if id < forest.size then forest.get? id else frames[id - forest.size]? := by
  show (forest.frames ++ frames.toArray)[id]? = _
  by_cases h : id < forest.size
  · rw [if_pos h]
    exact Array.getElem?_append_left h
  · rw [if_neg h, Array.getElem?_append_right (Nat.le_of_not_lt h), List.getElem?_toArray]
    rfl

@[simp] theorem append_nil (forest : Forest) : forest.append [] = forest := by
  simp [append]

theorem append_append (forest : Forest) (frames others : List Frame) :
    (forest.append frames).append others = forest.append (frames ++ others) := by
  simp [append, Array.append_assoc]

theorem push_eq_append (forest : Forest) (frame : Frame) :
    forest.push frame = forest.append [frame] := by
  simp [push, append]

theorem modify_append_of_lt (h : id < forest.size) (frames : List Frame) (f : Frame → Frame) :
    (forest.append frames).modify id f = (forest.modify id f).append frames := by
  refine ext fun other => ?_
  simp only [get?_modify, get?_append, size_modify]
  by_cases hid : id = other
  · subst hid
    simp only [if_pos h, if_true]
  · simp only [if_neg hid]

theorem modify_append_size (forest : Forest) (frame : Frame) (frames : List Frame)
    (f : Frame → Frame) :
    (forest.append (frame :: frames)).modify forest.size f = forest.append (f frame :: frames) := by
  refine ext fun (other : Nat) => ?_
  simp only [get?_modify, get?_append]
  by_cases hid : forest.size = other
  · subst hid
    simp
  · rw [if_neg hid]
    by_cases hlt : other < forest.size
    · rw [if_pos hlt, if_pos hlt]
    · obtain ⟨i, hi⟩ : ∃ i, other - forest.size = i + 1 := ⟨other - forest.size - 1, by omega⟩
      rw [if_neg hlt, if_neg hlt, hi, List.getElem?_cons_succ, List.getElem?_cons_succ]

/-- The frames lie one behind the other in the forest, and the first one is named `id`. -/
def Holds (forest : Forest) : Nat → List Frame → Prop
  | _, [] => True
  | id, frame :: frames => forest.get? id = some frame ∧ forest.Holds (id + 1) frames

theorem holds_append {frames others : List Frame} :
    forest.Holds id (frames ++ others) ↔
    forest.Holds id frames ∧ forest.Holds (id + frames.length) others := by
  induction frames generalizing id with
  | nil => exact (and_iff_right trivial).symm
  | cons frame frames ih =>
    rw [List.length_cons, Nat.add_comm frames.length 1, ← Nat.add_assoc]
    show (_ ∧ forest.Holds (id + 1) (frames ++ others)) ↔ (_ ∧ forest.Holds (id + 1) frames) ∧ _
    rw [ih, and_assoc]

theorem append_holds (forest : Forest) (frames : List Frame) :
    (forest.append frames).Holds forest.size frames := by
  induction frames generalizing forest with
  | nil => trivial
  | cons frame frames ih =>
    refine ⟨by simp [get?_append], ?_⟩
    have hnext := ih (forest.append [frame])
    rw [append_append, size_append] at hnext
    exact hnext

end Forest

end CallTree
