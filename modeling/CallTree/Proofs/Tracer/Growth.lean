import CallTree.Proofs.Tracer.Operation

/-!
# Growth

Between the opening of a frame and its close, steps do two things to a tracer: they extend the top,
which is granted gas and given children, and they add frames behind the others (`Tracer.grow`). When
a frame has just been opened, it is the top and lies between the older frames and those added since
(`Tracer.within`).

Results:
1. `grow_grow`, `grow_within`: growing twice is growing once.
2. `pop_within`: a close grows the frame below by the closed frame and all frames behind it.
3. `push_eq_within`, `pushLeaf_eq_grow`, `sampleAllowance_eq_grow`: what the parts of a tracer do, in
   these terms.
-/

namespace CallTree

/-- Grants gas to a frame, unless its gas is known, and gives it more children. -/
def Frame.extend (gas : Option Gas) (children : List FrameId) (frame : Frame) : Frame :=
  { frame with gas := frame.gas.or gas, children := frame.children ++ children }

theorem Frame.extend_extend (frame : Frame) (gas gas' : Option Gas)
    (children children' : List FrameId) :
    (frame.extend gas children).extend gas' children' =
    frame.extend (gas.or gas') (children ++ children') := by
  simp only [extend, Option.or_assoc, List.append_assoc]

@[simp] theorem Frame.extend_none_nil (frame : Frame) : frame.extend none [] = frame := by
  simp [extend]

theorem Forest.addChild_eq_modify (forest : Forest) (parent child : FrameId) :
    forest.addChild parent child = forest.modify parent (Frame.extend none [child]) :=
  modify_congr fun frame _ => by simp only [Frame.extend, Option.or_none]

namespace Tracer

/-- The top has been extended, and frames have been added behind the others. -/
def grow (t : Tracer) (gas : Option Gas) (children : List FrameId) (frames : List Frame)
    (awaits : Bool) : Tracer :=
  { t with
    forest := (t.forest.modify t.top (Frame.extend gas children)).append frames
    awaitsAllowance := awaits }

/-- A frame has been opened, and frames have been added behind it. -/
def within (t : Tracer) (frame : Frame) (frames : List Frame) (awaits : Bool) : Tracer :=
  { t with
    forest := t.forest.append (frame :: frames)
    inner := t.forest.size :: t.inner
    awaitsAllowance := awaits }

section

variable (t : Tracer) (gas gas' : Option Gas) (children children' : List FrameId) (frame : Frame)
  (frames frames' : List Frame) (awaits awaits' : Bool)

@[simp] theorem size_grow :
    (t.grow gas children frames awaits).forest.size = t.forest.size + frames.length := by
  simp [grow]

@[simp] theorem openCount_within :
    (t.within frame frames awaits).openCount = t.openCount + 1 :=
  rfl

theorem get?_top_within : (t.within frame frames awaits).forest.get? t.forest.size = some frame := by
  simp [within, Forest.get?_append]

theorem grow_grow (h : t.top < t.forest.size) :
    (t.grow gas children frames awaits).grow gas' children' frames' awaits' =
    t.grow (gas.or gas') (children ++ children') (frames ++ frames') awaits' := by
  have htop : t.top < (t.forest.modify t.top (Frame.extend gas children)).size := by
    rw [Forest.size_modify]
    exact h
  have hforest : (((t.forest.modify t.top (Frame.extend gas children)).append frames).modify t.top
        (Frame.extend gas' children')).append frames' =
      (t.forest.modify t.top (Frame.extend (gas.or gas') (children ++ children'))).append
        (frames ++ frames') := by
    rw [Forest.modify_append_of_lt htop, Forest.modify_modify, Forest.append_append]
    simp only [Frame.extend_extend]
  simp only [grow, ← hforest]
  rfl

@[simp] theorem grow_none_nil : t.grow none [] [] awaits = { t with awaitsAllowance := awaits } := by
  have hforest : t.forest.modify t.top (Frame.extend none []) = t.forest :=
    Forest.modify_self fun frame _ => frame.extend_none_nil
  simp only [grow, hforest, Forest.append_nil]

theorem amend_within (f : Frame → Frame) :
    (t.within frame frames awaits).amend t.forest.size f = t.within (f frame) frames awaits := by
  simp only [amend, within, Forest.modify_append_size]

theorem grow_within :
    (t.within frame frames awaits).grow gas children frames' awaits' =
    t.within (frame.extend gas children) (frames ++ frames') awaits' := by
  have hforest : ((t.forest.append (frame :: frames)).modify t.forest.size
        (Frame.extend gas children)).append frames' =
      t.forest.append (frame.extend gas children :: (frames ++ frames')) := by
    rw [Forest.modify_append_size, Forest.append_append, List.cons_append]
  simp only [within, ← hforest]
  rfl

theorem push_eq_within : t.push frame = t.within frame [] true := by
  simp only [push, within, Forest.push_eq_append]

/-- A frame that is closed becomes the child of the top below it. -/
theorem pop_within (h : t.top < t.forest.size) :
    (t.within frame frames awaits).pop = t.grow none [t.forest.size] (frame :: frames) awaits := by
  have hforest : (t.forest.append (frame :: frames)).addChild t.top t.forest.size =
      (t.forest.modify t.top (Frame.extend none [t.forest.size])).append (frame :: frames) := by
    rw [Forest.addChild_eq_modify, Forest.modify_append_of_lt h]
  simp only [grow, ← hforest]
  rfl

theorem pushLeaf_eq_grow (h : t.top < t.forest.size) :
    t.pushLeaf frame = t.grow none [t.forest.size] [frame] t.awaitsAllowance := by
  have hforest : (t.forest.push frame).addChild t.top t.forest.size =
      (t.forest.modify t.top (Frame.extend none [t.forest.size])).append [frame] := by
    rw [Forest.addChild_eq_modify, Forest.push_eq_append, Forest.modify_append_of_lt h]
  simp only [pushLeaf, grow, ← hforest]

theorem sampleAllowance_eq_grow (step : Step) :
    t.sampleAllowance step =
    t.grow (if t.awaitsAllowance ∧ t.openCount ≤ step.depth then some step.gas else none) [] []
      false := by
  rw [sampleAllowance_eq]
  split
  · simp only [grow, amend, Forest.append_nil]
    have hextend : Frame.grant step.gas = Frame.extend (some step.gas) [] := by
      funext frame
      simp only [Frame.grant, Frame.extend, List.append_nil]
    rw [hextend]
  · rw [grow_none_nil]

end

end Tracer

end CallTree
