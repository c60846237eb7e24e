import CallTree.Forest.Basic

/-!
# Walking a forest

Starting from a frame, the walk visits it and then walks from each of its children in turn. A
visit knows the frame and the path to it: the indices of the children taken on the way. A child
that does not exist is passed over, and a child that occurs twice is visited twice.

The walk descends at most as deeply as the forest has frames, which no walk without a cycle
exceeds.

The second walk follows a failure down to where it began. It enters failed children only and
stops at the frames that have none; of those it meets, the last one is the origin.
-/

namespace CallTree

/-- A frame met on the way from the root. -/
structure Visit where
  id : FrameId
  /-- The indices of the children taken from the root to the frame. -/
  path : List Nat
  frame : Frame
  deriving DecidableEq, Repr

namespace Forest

/-- The visits of a walk from a frame, at most `depth` frames deep. -/
def visitsFrom (forest : Forest) : Nat → List Nat → FrameId → List Visit
  | 0, _, _ => []
  | depth + 1, path, id =>
    match forest.get? id with
    | none => []
    | some frame =>
      ⟨id, path, frame⟩ :: frame.children.zipIdx.flatMap fun (child, index) =>
        forest.visitsFrom depth (path ++ [index]) child

/-- The visits of the walk from the root. -/
def visits (forest : Forest) : List Visit :=
  forest.visitsFrom forest.size [] rootId

/-! ## Where a failure began -/

/-- The children of a frame that failed, each with its index. -/
def failedChildren (forest : Forest) (frame : Frame) : List (FrameId × Nat) :=
  frame.children.zipIdx.filter fun (child, _) => (forest.get? child).any Frame.failed

/-- The frames without a failed child that are reached from a frame through failed children, at
most `depth` frames deep. -/
def originsFrom (forest : Forest) : Nat → List Nat → FrameId → List Visit
  | 0, _, _ => []
  | depth + 1, path, id =>
    match forest.get? id with
    | none => []
    | some frame =>
      match forest.failedChildren frame with
      | [] => [⟨id, path, frame⟩]
      | failed => failed.flatMap fun (child, index) =>
        forest.originsFrom depth (path ++ [index]) child

/-- The frame in which the failure of the root began, if the root failed. -/
def failureOrigin (forest : Forest) : Option Visit :=
  if forest.root?.any Frame.failed then
    (forest.originsFrom forest.size [] rootId).getLast?
  else none

end Forest

end CallTree
