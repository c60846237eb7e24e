/-!
# Kinds of frames

Seven instructions add a frame to the call tree: four calls, two creations and the
self-destruction. `opcode` says which instruction each kind is, and `ofOpcode?` is its inverse
(`ofOpcode?_eq_some_iff`): an instruction outside the table adds no frame.

The kinds fall into three groups: `isCall`, `isCreation` and `selfDestruct`. Of the calls, two take
a value of their own; the other two have one operand less (`valueOperands`).

A kind has three names: `name` in the actions of records, `recordType` for the type of a record,
and `label` in stored data.
-/

namespace CallTree

/-- The instruction that gives back a frame's changes and reports a failure to its caller. -/
def revertOpcode : UInt8 := 0xfd

/-- The kind of an instruction that adds a frame. -/
inductive FrameKind
  | call
  | callCode
  | delegateCall
  | staticCall
  | create
  | create2
  | selfDestruct
  deriving DecidableEq, Repr

namespace FrameKind

/-- Every kind. -/
def all : List FrameKind :=
  [call, callCode, delegateCall, staticCall, create, create2, selfDestruct]

theorem mem_all : ∀ kind : FrameKind, kind ∈ all := by
  intro kind
  cases kind <;> decide

/-! ## Instructions -/

/-- The instruction of a kind. -/
def opcode : FrameKind → UInt8
  | call => 0xf1
  | callCode => 0xf2
  | delegateCall => 0xf4
  | staticCall => 0xfa
  | create => 0xf0
  | create2 => 0xf5
  | selfDestruct => 0xff

theorem opcode_injective : ∀ {k l : FrameKind}, k.opcode = l.opcode → k = l := by
  intro k l
  cases k <;> cases l <;> decide

/-- The kind of an instruction, if it adds a frame. -/
def ofOpcode? (op : UInt8) : Option FrameKind :=
  all.find? (·.opcode == op)

theorem ofOpcode?_eq_some_iff {op : UInt8} {kind : FrameKind} :
    ofOpcode? op = some kind ↔ kind.opcode = op := by
  constructor
  · intro h
    simpa using List.find?_some h
  · rintro rfl
    cases kind <;> decide

theorem ofOpcode?_eq_none_iff {op : UInt8} :
    ofOpcode? op = none ↔ ∀ kind : FrameKind, kind.opcode ≠ op := by
  simp [ofOpcode?, mem_all]

example : ofOpcode? revertOpcode = none := by decide
example : ofOpcode? 0xf5 = some create2 := by decide

/-! ## Groups -/

/-- The kind creates a contract. -/
def isCreation : FrameKind → Bool
  | create | create2 => true
  | _ => false

/-- The kind calls an account. -/
def isCall : FrameKind → Bool
  | call | callCode | delegateCall | staticCall => true
  | _ => false

/-- The kind is a call with a value of its own. -/
def takesValue : FrameKind → Bool
  | call | callCode => true
  | _ => false

/-- How many operands of a call stand for its value. -/
def valueOperands (kind : FrameKind) : Nat :=
  if kind.takesValue then 1 else 0

theorem isCall_of_takesValue : ∀ kind : FrameKind, kind.takesValue → kind.isCall := by
  intro kind
  cases kind <;> decide

theorem isCall_or_isCreation_or_eq_selfDestruct (kind : FrameKind) :
    kind.isCall ∨ kind.isCreation ∨ kind = selfDestruct := by
  cases kind <;> decide

/-! ## Names -/

/-- The name of a kind in records. -/
def name : FrameKind → String
  | call => "call"
  | callCode => "callcode"
  | delegateCall => "delegatecall"
  | staticCall => "staticcall"
  | create => "create"
  | create2 => "create2"
  | selfDestruct => "selfdestruct"

theorem name_injective : ∀ {k l : FrameKind}, k.name = l.name → k = l := by
  intro k l
  cases k <;> cases l <;> decide

/-- The type of a record: the name of its kind, except that a self-destruction is a suicide. -/
def recordType : FrameKind → String
  | selfDestruct => "suicide"
  | kind => kind.name

theorem recordType_injective : ∀ {k l : FrameKind}, k.recordType = l.recordType → k = l := by
  intro k l
  cases k <;> cases l <;> decide

/-- The word for a kind in stored data. -/
def label : FrameKind → String
  | call => "Call"
  | callCode => "CallCode"
  | delegateCall => "DelegateCall"
  | staticCall => "StaticCall"
  | create => "Create"
  | create2 => "Create2"
  | selfDestruct => "SelfDestruct"

/-- The kind that a label stands for. -/
def ofLabel? (text : String) : Option FrameKind :=
  all.find? (·.label == text)

theorem ofLabel?_label (kind : FrameKind) : ofLabel? kind.label = some kind := by
  cases kind <;> decide

end FrameKind

end CallTree
