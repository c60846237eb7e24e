import CallTree.Frame

/-!
# Forests of frames

A forest holds the frames of a transaction in the order in which they were opened and names each
by its place. A frame that is still open is not yet a child of any other, so the frames form one
tree for each open frame.

A forest only grows: `push` adds a frame behind the others, `modify` changes one in place, and
`addChild` makes one frame the last child of another. The lemmas say what each operation does to
the two views `size` and `get?`.
-/

namespace CallTree

/-- The frames of a transaction, the earliest first. -/
structure Forest where
  frames : Array Frame
  deriving DecidableEq, Repr

namespace Forest

/-- The forest without frames. -/
def empty : Forest := ⟨#[]⟩

/-- The forest of a single frame. -/
def ofRoot (root : Frame) : Forest := ⟨#[root]⟩

/-- The number of frames. -/
def size (forest : Forest) : Nat := forest.frames.size

/-- The frame with a name. -/
def get? (forest : Forest) (id : FrameId) : Option Frame := forest.frames[id]?

/-- Adds a frame, whose name is the previous size. -/
def push (forest : Forest) (frame : Frame) : Forest := ⟨forest.frames.push frame⟩

/-- Changes the frame with a name, if there is one. -/
def modify (forest : Forest) (id : FrameId) (f : Frame → Frame) : Forest :=
  ⟨forest.frames.modify id f⟩

/-- Makes a frame the last child of another. -/
def addChild (forest : Forest) (parent child : FrameId) : Forest :=
  forest.modify parent fun frame => { frame with children := frame.children ++ [child] }

/-- The outermost frame. -/
def root? (forest : Forest) : Option Frame := forest.get? rootId

/-! ## What the operations do to the views -/

@[simp] theorem size_empty : empty.size = 0 := rfl

@[simp] theorem size_ofRoot (root : Frame) : (ofRoot root).size = 1 := rfl

@[simp] theorem get?_ofRoot_root (root : Frame) : (ofRoot root).get? rootId = some root := rfl

@[simp] theorem size_push (forest : Forest) (frame : Frame) :
    (forest.push frame).size = forest.size + 1 := by
  simp [size, push]

@[simp] theorem size_modify (forest : Forest) (id : FrameId) (f : Frame → Frame) :
    (forest.modify id f).size = forest.size := by
  simp [size, modify]

@[simp] theorem size_addChild (forest : Forest) (parent child : FrameId) :
    (forest.addChild parent child).size = forest.size :=
  size_modify _ _ _

theorem get?_eq_none_iff {forest : Forest} {id : FrameId} :
    forest.get? id = none ↔ forest.size ≤ id := by
  simp [get?, size]

theorem get?_push (forest : Forest) (frame : Frame) (id : FrameId) :
    (forest.push frame).get? id = if id = forest.size then some frame else forest.get? id :=
  Array.getElem?_push

theorem get?_modify (forest : Forest) (target id : FrameId) (f : Frame → Frame) :
    (forest.modify target f).get? id =
    if target = id then (forest.get? id).map f else forest.get? id := by
  simp [get?, modify, Array.getElem?_modify]

/-- A forest is determined by its frames. -/
theorem ext {a b : Forest} (h : ∀ id, a.get? id = b.get? id) : a = b := by
  cases a with
  | mk frames =>
    cases b with
    | mk others => exact congrArg mk (Array.ext_getElem? h)

end Forest

end CallTree
