import CallTree.Proofs.Forest.Basic
import CallTree.Record.Basic

/-!
# Outlines

Of the data that a tracer records, the bytes are the bulk: the input of a call, the code that a
creation runs, and the output of either. An outline leaves them out and keeps the rest, so that it
shows the shape of the call tree, who did what to whom, the gas and the failures.

Both walks of a forest, and with them the records and the search for the beginning of a failure,
see the bytes of a frame only to hand them on.

Results:
1. `get?_outline`, `outline_modify`, `outline_addChild`: the operations of a forest on outlines.
2. `visits_outline`, `failureOrigin_outline`: the walks of an outline.
3. `records_outline`: the records of an outline.
-/

namespace CallTree

/-- The action without its input or code. -/
def Action.outline : Action → Action
  | call kind sender recipient _ value => call kind sender recipient [] value
  | create kind creator created _ value => create kind creator created [] value
  | selfDestruct address beneficiary balance => selfDestruct address beneficiary balance

/-- The frame without its input, code and output. -/
def Frame.outline (frame : Frame) : Frame :=
  { frame with
    action := frame.action.outline
    output := none }

/-- The visit of a frame, without the bytes of the frame. -/
def Visit.outline (visit : Visit) : Visit :=
  { visit with frame := visit.frame.outline }

/-- The forest of the outlines. -/
def Forest.outline (forest : Forest) : Forest :=
  ⟨forest.frames.map Frame.outline⟩

namespace Record

/-- The action of a record without its input or code. -/
def Action.outline : Action → Action
  | call kind sender gas _ recipient value => call kind sender gas [] recipient value
  | create creator gas _ value kind => create creator gas [] value kind
  | selfDestruct address beneficiary balance => selfDestruct address beneficiary balance

/-- The result of a record without its output. -/
def Result.outline : Result → Result
  | call gasUsed _ => call gasUsed none
  | create gasUsed address _ => create gasUsed address none

/-- The record without its input, code and output. -/
def outline (record : Record) : Record :=
  { record with
    action := record.action.outline
    result := record.result.map Result.outline }

end Record

@[simp] theorem Action.outline_outline (action : Action) :
    action.outline.outline = action.outline := by
  cases action <;> rfl

@[simp] theorem Frame.outline_outline (frame : Frame) :
    frame.outline.outline = frame.outline := by
  simp [outline]

namespace Forest

variable (forest : Forest)

/-! ## 1. Operations -/

@[simp] theorem size_outline : forest.outline.size = forest.size := by
  simp [size, outline]

@[simp] theorem get?_outline (id : FrameId) :
    forest.outline.get? id = (forest.get? id).map Frame.outline := by
  simp [get?, outline]

@[simp] theorem outline_outline : forest.outline.outline = forest.outline :=
  ext fun id => by cases h : forest.get? id <;> simp [h]

@[simp] theorem outline_push (frame : Frame) :
    (forest.push frame).outline = forest.outline.push frame.outline := by
  simp [push, outline]

/-- A change in place, of which the outline of a frame tells the outline of what becomes of it. -/
theorem outline_modify (id : FrameId) {f g : Frame → Frame}
    (h : ∀ frame, (f frame).outline = (g frame.outline).outline) :
    (forest.modify id f).outline = (forest.outline.modify id g).outline := by
  refine ext fun other => ?_
  simp only [get?_outline, get?_modify]
  split
  · cases forest.get? other with
    | none => rfl
    | some frame => exact congrArg some (h frame)
  · cases h : forest.get? other <;> simp

@[simp] theorem outline_addChild (parent child : FrameId) :
    (forest.addChild parent child).outline = forest.outline.addChild parent child := by
  refine ext fun other => ?_
  simp only [get?_outline, addChild, get?_modify]
  split
  · cases forest.get? other <;> rfl
  · rfl

/-! ## 2. Walks -/

theorem visitsFrom_outline (depth : Nat) (path : List Nat) (id : FrameId) :
    forest.outline.visitsFrom depth path id =
    (forest.visitsFrom depth path id).map Visit.outline := by
  induction depth generalizing path id with
  | zero => rfl
  | succ depth ih =>
    rw [visitsFrom, visitsFrom, get?_outline]
    cases forest.get? id with
    | none => rfl
    | some frame =>
      simp only [Option.map_some, List.map_cons, List.map_flatMap, ih]
      rfl

theorem visits_outline : forest.outline.visits = forest.visits.map Visit.outline := by
  rw [visits, visits, size_outline, visitsFrom_outline]

theorem failedChildren_outline (frame : Frame) :
    forest.outline.failedChildren frame.outline = forest.failedChildren frame := by
  have hfailed : ∀ child, (forest.outline.get? child).any Frame.failed =
      (forest.get? child).any Frame.failed := by
    intro child
    rw [get?_outline]
    cases forest.get? child <;> rfl
  simp only [failedChildren, hfailed]
  rfl

theorem originsFrom_outline (depth : Nat) (path : List Nat) (id : FrameId) :
    forest.outline.originsFrom depth path id =
    (forest.originsFrom depth path id).map Visit.outline := by
  induction depth generalizing path id with
  | zero => rfl
  | succ depth ih =>
    rw [originsFrom, originsFrom, get?_outline]
    cases forest.get? id with
    | none => rfl
    | some frame =>
      simp only [Option.map_some, failedChildren_outline]
      cases forest.failedChildren frame with
      | nil => rfl
      | cons first others => simp only [List.map_flatMap, ih]

theorem failureOrigin_outline :
    forest.outline.failureOrigin = forest.failureOrigin.map Visit.outline := by
  have hroot : forest.outline.root?.any Frame.failed = forest.root?.any Frame.failed := by
    rw [root?, root?, get?_outline]
    cases forest.get? rootId <;> rfl
  rw [failureOrigin, failureOrigin, hroot, size_outline, originsFrom_outline, List.getLast?_map]
  split <;> rfl

end Forest

/-! ## 3. Records -/

namespace Record

theorem outline_action_ofFrame (frame : Frame) :
    (Action.ofFrame frame.outline).outline = (Action.ofFrame frame).outline := by
  simp only [Action.ofFrame, Frame.outline]
  cases frame.action <;> rfl

theorem outline_result_ofFrame (frame : Frame) :
    (Result.ofFrame? frame.outline).map Result.outline =
    (Result.ofFrame? frame).map Result.outline := by
  simp only [Result.ofFrame?, Frame.outline]
  cases frame.action <;> rfl

theorem kind_outline (frame : Frame) : frame.outline.kind = frame.kind := by
  simp only [Frame.kind, Frame.outline]
  cases frame.action <;> rfl

/-- Whether a record has a result depends on the failure, which the outline keeps. -/
theorem outline_ofFrame (frame : Frame) (tx : Option Transaction) (path : List Nat)
    (isRoot : Bool) :
    (ofFrame frame.outline tx path isRoot).outline = (ofFrame frame tx path isRoot).outline := by
  have hfailure : shownFailure frame.outline = shownFailure frame := rfl
  have hchildren : frame.outline.children = frame.children := rfl
  simp only [outline, ofFrame, apply_ite (Option.map Result.outline), hfailure, hchildren,
    outline_action_ofFrame, outline_result_ofFrame, kind_outline]

end Record

theorem Forest.records_outline (forest : Forest) (tx : Option Transaction) :
    (forest.outline.records tx).map Record.outline = (forest.records tx).map Record.outline := by
  rw [records, records, visits_outline, List.map_map, List.map_map, List.map_map]
  exact List.map_congr_left fun visit _ => Record.outline_ofFrame visit.frame tx _ _

end CallTree
