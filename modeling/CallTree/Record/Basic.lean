import CallTree.Failure
import CallTree.Forest.Visits
import CallTree.Transaction

/-!
# Records

A record describes one frame by itself: what it did, what came of it, where it stands in the tree
and to which transaction it belongs. The call tree as a list of records (`Forest.records`) has a
frame before its children and the children in the order in which they were closed.

A record has the result that fits its action, except that a self-destruction has none and neither
has a failure whose label says enough. The time is that of the whole transaction and stands in
the record of the root only.
-/

namespace CallTree

namespace Record

/-- What a frame did, and the gas granted to it. -/
inductive Action
  | call (kind : FrameKind) (sender : Address) (gas : Option Gas) (input : Bytes)
      (recipient : Address) (value : Option Word)
  | create (creator : Address) (gas : Option Gas) (init : Bytes) (value : Word) (kind : FrameKind)
  | selfDestruct (address beneficiary : Address) (balance : Word)
  deriving DecidableEq, Repr

/-- What came of a frame. -/
inductive Result
  | call (gasUsed : Option Gas) (output : Option Bytes)
  | create (gasUsed : Option Gas) (address : Option Address) (code : Option Bytes)
  deriving DecidableEq, Repr

end Record

/-- The description of one frame. -/
structure Record where
  action : Record.Action
  blockHash : Option Hash
  blockNumber : Option UInt64
  /-- The label of the failure. -/
  error : Option String
  result : Option Record.Result
  /-- The number of the frame's children. -/
  childCount : Nat
  /-- The path from the root to the frame. -/
  path : List Nat
  transactionHash : Option Hash
  transactionPosition : Option UInt64
  kind : FrameKind
  time : Option Duration
  deriving DecidableEq, Repr

namespace Record

/-- How deeply the frame is nested, the root being at depth 0. -/
def depth (record : Record) : Nat :=
  record.path.length

/-- The action of a record. -/
def Action.ofFrame (frame : Frame) : Action :=
  match frame.action with
  | .call kind sender recipient input value => .call kind sender frame.gas input recipient value
  | .create kind creator _ init value => .create creator frame.gas init value kind
  | .selfDestruct address beneficiary balance => .selfDestruct address beneficiary balance

/-- The result of a record, before it is hidden. -/
def Result.ofFrame? (frame : Frame) : Option Result :=
  match frame.action with
  | .call .. => some (.call frame.gasUsed frame.output)
  | .create _ _ created _ _ => some (.create frame.gasUsed created frame.output)
  | .selfDestruct .. => none

/-- How the failure of a frame is shown. -/
def shownFailure (frame : Frame) : Option Failure.Shown :=
  frame.error.map Failure.shown

/-- The record of a frame that stands at a path, `isRoot` saying whether it is the root. -/
def ofFrame (frame : Frame) (tx : Option Transaction) (path : List Nat) (isRoot : Bool) :
    Record where
  action := .ofFrame frame
  blockHash := tx.bind (·.blockHash)
  blockNumber := tx.bind (·.blockNumber)
  error := (shownFailure frame).map (·.label)
  result := if (shownFailure frame).any (·.hidesResult) then none else Result.ofFrame? frame
  childCount := frame.children.length
  path := path
  transactionHash := tx.bind (·.transactionHash)
  transactionPosition := tx.bind (·.transactionPosition)
  kind := frame.kind
  time := if isRoot then tx.bind (·.time) else none

/-- The record of a visited frame. -/
def ofVisit (tx : Option Transaction) (visit : Visit) : Record :=
  ofFrame visit.frame tx visit.path (visit.id == rootId)

end Record

/-- The records of a forest. -/
def Forest.records (forest : Forest) (tx : Option Transaction) : List Record :=
  forest.visits.map (Record.ofVisit tx)

end CallTree
