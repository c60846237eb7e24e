import CallTree.Proofs.Tracer.Operation

/-!
# Scripts

A `Script` is what happens in one frame, as a machine would report it: plain steps, calls of
built-in accounts, self-destructions, and whole frames, each with a script of its own one level
deeper and an `Ending`. A frame ends in one of three ways.
* It returns: the next step is a plain one in the caller, with the outcome on the stack. A callee
  without code returns before it has run any step.
* It gives back its changes, after which the machine may report the same failure again, and
  returns.
* It fails with a report.

A script is written here in two ways: as the list of its steps with their chain states
(`Script.events`), and as the tree of frames that a reader of the script would draw
(`Script.frames`, `Script.visits`). Of a frame, most follows from the instruction that opens it and
from its ending (`Ending.frame`). Its gas is not reported by any step: it is what the order of the steps
shows (`Script.sample`), and it need not be what the frame was granted. A frame shows the gas of its
first own step that is plain or gives back changes, unless another frame has opened and returned
before. A frame that fails before any such step leaves the wait behind. Then a caller that has shown
no gas so far shows that of its next step, which is less than it was granted.
-/

namespace CallTree

namespace Step

/-! ## Steps at a depth -/

/-- The word at a position of the stack, zero if there is none. -/
def word (step : Step) (position : Nat) : Word :=
  (step.operand? position).getD 0

/-- A plain step in a frame at a depth. -/
structure PlainAt (step : Step) (depth : Nat) : Prop where
  plain : step.Plain
  depth : step.depth = depth

/-- A plain step that finds the outcome of a frame on the stack. -/
structure Returns (step : Step) (depth : Nat) : Prop extends step.PlainAt depth where
  outcome : step.operands ≠ []

/-- A step that gives back the changes of its frame. -/
structure Reverts (step : Step) (depth : Nat) : Prop where
  error : step.error = none
  opcode : step.opcode = revertOpcode
  depth : step.depth = depth

/-- A report that the frame has failed. -/
structure Reports (step : Step) (depth : Nat) : Prop where
  error : step.error.isSome
  depth : step.depth = depth

/-- A call of a built-in account. -/
structure CallsBuiltIn (step : Step) (state : ChainState) (depth : Nat) : Prop where
  error : step.error = none
  instruction : ∃ kind, FrameKind.ofOpcode? step.opcode = some kind ∧ kind.isCall
  operands : 2 ≤ step.operands.length
  builtIn : state.isBuiltIn (Word.toAddress (step.word 1))
  depth : step.depth = depth

/-- A self-destruction of an account whose balance is known. -/
structure SelfDestructs (step : Step) (state : ChainState) (depth : Nat) : Prop where
  error : step.error = none
  instruction : FrameKind.ofOpcode? step.opcode = some .selfDestruct
  operands : 1 ≤ step.operands.length
  balance : (state.balance step.address).isOk
  depth : step.depth = depth

end Step

/-- How many operands an instruction has that opens a frame. -/
def FrameKind.operandCount (kind : FrameKind) : Nat :=
  if kind.isCreation then 3 else 6 + kind.valueOperands

/-- An instruction of a kind that opens a frame. -/
structure Step.Opens (step : Step) (state : ChainState) (kind : FrameKind) (depth : Nat) :
    Prop where
  error : step.error = none
  instruction : FrameKind.ofOpcode? step.opcode = some kind
  executes : kind ≠ .selfDestruct
  operands : kind.operandCount ≤ step.operands.length
  callee : kind.isCall → state.isBuiltIn (Word.toAddress (step.word 1)) = false
  depth : step.depth = depth

/-! ## The grammar -/

/-- How a frame ends that was opened at a depth. -/
inductive Ending (depth : Nat) : Type
  /-- The frame returns, and `back` is the first step back in the caller. -/
  | returned (back : Event) : back.step.Returns depth → Ending depth
  /-- The frame gives back its changes, and after some repeated reports it returns. -/
  | reverted (revert : Event) (repeats : List Event) (back : Event) :
      revert.step.Reverts (depth + 1) → (∀ report ∈ repeats, report.step.Reports (depth + 1)) →
      back.step.Returns depth → Ending depth
  /-- The frame fails. -/
  | failed (report : Event) (message : String) :
      report.step.error = some message → report.step.depth = depth + 1 → Ending depth

/-- What happens in a frame at a depth, or in what is left of it. -/
inductive Script : Nat → Type
  | done {depth : Nat} : Script depth
  | plain {depth : Nat} (event : Event) :
      event.step.PlainAt depth → Script depth → Script depth
  | builtIn {depth : Nat} (event : Event) :
      event.step.CallsBuiltIn event.state depth → Script depth → Script depth
  | selfDestruct {depth : Nat} (event : Event) :
      event.step.SelfDestructs event.state depth → Script depth → Script depth
  | frame {depth : Nat} (kind : FrameKind) (opening : Event) :
      opening.step.Opens opening.state kind depth → Script (depth + 1) → Ending depth →
      Script depth → Script depth

variable {depth : Nat}

namespace Ending

/-- The steps of an ending. -/
def events : Ending depth → List Event
  | returned back _ => [back]
  | reverted revert repeats back _ _ _ => revert :: (repeats ++ [back])
  | failed report _ _ _ => [report]

/-- The first step back in the caller, if the frame returns. -/
def back? : Ending depth → Option Event
  | returned back _ => some back
  | reverted _ _ back _ _ _ => some back
  | failed _ _ _ _ => none

/-- The message with which the frame fails. -/
def error : Ending depth → Option String
  | returned back _ => if back.step.word 0 = 0 then some Failure.unexplainedMessage else none
  | reverted _ _ _ _ _ _ => some Failure.revertedMessage
  | failed _ message _ _ => some message

/-- The gas that the ending shows, if an allowance is awaited, which may be that of another frame
inside that has failed. -/
def sample : Ending depth → Bool → Option Gas
  | reverted revert _ _ _ _ _, true => some revert.step.gas
  | _, _ => none

/-- Whether an allowance is awaited after the ending, if one may be before. A report does not end
the wait, though the frame that it was for may be the one that fails. -/
def awaits : Ending depth → Bool → Bool
  | failed _ _ _ _, awaits => awaits
  | _, _ => false

/-- Where a creation ends well, the chain state has to tell the code of the account. -/
def Answered (ending : Ending depth) (kind : FrameKind) : Prop :=
  ∀ back, ending.back? = some back → kind.isCreation → back.step.word 0 ≠ 0 →
    (back.state.code (Word.toAddress (back.step.word 0))).isOk

end Ending

/-! ## Frames of a script -/

namespace Step

/-- What an instruction reads from memory, nothing if it is out of reach. -/
def input (step : Step) (settings : Settings) (region : Region) : Bytes :=
  (region.read step.memory settings.paddingLimit).toOption.getD []

/-- The region for the output of a call. -/
def outputRegion (step : Step) (kind : FrameKind) : Region :=
  ⟨step.word (4 + kind.valueOperands), step.word (5 + kind.valueOperands)⟩

/-- What a frame does that an instruction opens, `created` being the account of a creation. -/
def opened (step : Step) (settings : Settings) (kind : FrameKind) (created : Option Address) :
    Action :=
  if kind.isCreation then
    .create kind step.address created (step.input settings ⟨step.word 1, step.word 2⟩)
      (step.word 0)
  else
    .call kind step.address (Word.toAddress (step.word 1))
      (step.input settings
        ⟨step.word (2 + kind.valueOperands), step.word (3 + kind.valueOperands)⟩)
      (if kind.takesValue then some (step.word 2) else none)

/-- The gas that a call is granted at once. -/
def stipend (step : Step) (settings : Settings) (kind : FrameKind) : Option Gas :=
  if kind.takesValue && step.word (3 + kind.valueOperands) == 0 then some settings.stipend
  else none

/-- A self-destruction. -/
def leaf (step : Step) (state : ChainState) : Frame where
  action := .selfDestruct step.address (Word.toAddress (step.word 0))
    ((state.balance step.address).toOption.getD 0)

end Step

/-- The frame that an instruction opens and that ends in a way, given its gas and its children. -/
def Ending.frame (ending : Ending depth) (settings : Settings) (kind : FrameKind) (opening : Step)
    (gas : Option Gas) (children : List FrameId) : Frame where
  action := opening.opened settings kind <| ending.back?.bind fun back =>
    if back.step.word 0 = 0 then none else some (Word.toAddress (back.step.word 0))
  gas := gas
  gasUsed :=
    let kept := Gas.cutSub opening.gas opening.cost
    match ending.back? with
    | none => gas
    | some back =>
      if kind.isCreation then some (Gas.cutSub kept back.step.gas)
      else gas.map fun granted => Gas.cutSub (Gas.capAdd kept granted) back.step.gas
  output := ending.back?.bind fun back =>
    if back.step.word 0 = 0 then none
    else if kind.isCreation then (back.state.code (Word.toAddress (back.step.word 0))).toOption
    else ((opening.outputRegion kind).read back.step.memory settings.paddingLimit).toOption
  error := ending.error
  children := children

namespace Script

/-- The steps of a script. -/
def events {depth : Nat} : Script depth → List Event
  | done => []
  | plain event _ rest | builtIn event _ rest | selfDestruct event _ rest => event :: rest.events
  | frame _ opening _ inside ending rest =>
    opening :: (inside.events ++ (ending.events ++ rest.events))

/-- The number of frames that a script adds. -/
def size {depth : Nat} : Script depth → Nat
  | done => 0
  | plain _ _ rest | builtIn _ _ rest => rest.size
  | selfDestruct _ _ rest => rest.size + 1
  | frame _ _ _ inside _ rest => inside.size + rest.size + 1

/-- Whether an allowance is awaited after a script, if one may be before. The wait is not bound to
the frame that it was for. -/
def awaits {depth : Nat} : Script depth → Bool → Bool
  | done, awaits => awaits
  | plain _ _ rest, _ => rest.awaits false
  | builtIn _ _ rest, awaits | selfDestruct _ _ rest, awaits => rest.awaits awaits
  | frame _ _ _ inside ending rest, _ => rest.awaits (ending.awaits (inside.awaits true))

/-- The gas that the order of the steps shows for the frame of a script: that of the first plain
step at its depth that comes in a wait. The wait may be left over from a failed frame, and then this
is not what the own frame was granted. -/
def sample {depth : Nat} : Script depth → Bool → Option Gas
  | done, _ => none
  | plain event _ rest, awaits =>
    (if awaits then some event.step.gas else none).or (rest.sample false)
  | builtIn _ _ rest, awaits | selfDestruct _ _ rest, awaits => rest.sample awaits
  | frame _ _ _ inside ending rest, _ => rest.sample (ending.awaits (inside.awaits true))

/-- The names of the frames that a script adds to its own frame, if the first one is `id`. -/
def children {depth : Nat} : Script depth → Nat → List FrameId
  | done, _ => []
  | plain _ _ rest, id | builtIn _ _ rest, id => rest.children id
  | selfDestruct _ _ rest, id => id :: rest.children (id + 1)
  | frame _ _ _ inside _ rest, id => id :: rest.children (id + 1 + inside.size)

/-- The gas that a frame has in the tree: the stipend, or else what the order of the steps shows
first. -/
def allowance (settings : Settings) (kind : FrameKind) (opening : Step)
    (inside : Script (depth + 1)) (ending : Ending depth) : Option Gas :=
  ((opening.stipend settings kind).or (inside.sample true)).or (ending.sample (inside.awaits true))

/-- The frames that a script adds in the order of opening, if the first one is named `id`. -/
def frames (settings : Settings) {depth : Nat} : Script depth → Nat → List Frame
  | done, _ => []
  | plain _ _ rest, id | builtIn _ _ rest, id => rest.frames settings id
  | selfDestruct event _ rest, id =>
    event.step.leaf event.state :: rest.frames settings (id + 1)
  | frame kind opening _ inside ending rest, id =>
    ending.frame settings kind opening.step (allowance settings kind opening.step inside ending)
        (inside.children (id + 1)) ::
      (inside.frames settings (id + 1) ++ rest.frames settings (id + 1 + inside.size))

/-- The visits of the frames that a script adds. The first of them is named `id`, and it is the
child of the frame at `path` with a certain index. -/
def visits (settings : Settings) {depth : Nat} : Script depth → Nat → List Nat → Nat → List Visit
  | done, _, _, _ => []
  | plain _ _ rest, id, path, index | builtIn _ _ rest, id, path, index =>
    rest.visits settings id path index
  | selfDestruct event _ rest, id, path, index =>
    ⟨id, path ++ [index], event.step.leaf event.state⟩ ::
      rest.visits settings (id + 1) path (index + 1)
  | frame kind opening _ inside ending rest, id, path, index =>
    ⟨id, path ++ [index], ending.frame settings kind opening.step
        (allowance settings kind opening.step inside ending) (inside.children (id + 1))⟩ ::
      (inside.visits settings (id + 1) (path ++ [index]) 0 ++
        rest.visits settings (id + 1 + inside.size) path (index + 1))

/-- Every code is known that a creation asks for when it ends well. -/
def Answered {depth : Nat} : Script depth → Prop
  | done => True
  | plain _ _ rest | builtIn _ _ rest | selfDestruct _ _ rest => rest.Answered
  | frame kind _ _ inside ending rest => inside.Answered ∧ ending.Answered kind ∧ rest.Answered

theorem length_frames (settings : Settings) (script : Script depth) (id : Nat) :
    (script.frames settings id).length = script.size := by
  induction script generalizing id with
  | done => rfl
  | plain _ _ rest ih | builtIn _ _ rest ih => exact ih id
  | selfDestruct _ _ rest ih => simp [frames, size, ih]
  | frame _ _ _ inside _ rest ihInside ihRest => simp [frames, size, ihInside, ihRest]

end Script

end CallTree
