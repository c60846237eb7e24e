import CallTree.Proofs.Tracer.Moves

/-!
# The stack of open frames

A tracer keeps the root apart from the other open frames, so that it cannot be without a top. A
`StackTracer` keeps them all on one stack. The root is at the bottom of it only because it was put
there, and to find no top, or no owner for a frame that is closed, is a case of its own. A frame that
fails is taken from the stack before it is known whether another lies below it, and if none does, it is
put back.

A tracer becomes a `StackTracer` when its root is put on the stack (`Tracer.toStack`), and whatever a
host asks of both, they do the same. So it is a fact about the steps, and not about how open frames are
written down, that the root stays open, that it is at the bottom, and that there always is a top.

Warnings are left out. Apart from the one that the root is not closed, they do not depend on the stack.

Results:
1. `Tracer.toStack_enter`: an instruction adds the same to both.
2. `Tracer.toStack_fail`, `Tracer.toStack_close`, `Tracer.toStack_observe`: steps and reports.
3. `Tracer.toStack_after`: every run. `StackTracer.stack_after`, `StackTracer.exists_top_after`: its
   stack.
-/

namespace CallTree

/-! ## What an instruction adds -/

/-- What an instruction adds to the tree. -/
inductive Addition
  | nothing
  | opened (frame : Frame)
  | leaf (frame : Frame)

/-- What an instruction of a kind adds, or why it is refused. -/
def Step.addition (step : Step) (settings : Settings) (kind : FrameKind) (state : ChainState) :
    Except Refusal Addition :=
  match kind with
  | .create | .create2 => do
    let _ ← step.creationOperands
    return .opened (step.openedFrame settings kind)
  | .selfDestruct => do
    let _ ← step.operand 0
    let _ ← (state.balance step.address).mapError .lookup
    return .leaf (step.leaf state)
  | .call | .callCode | .delegateCall | .staticCall => do
    let recipient ← step.callee
    if state.isBuiltIn recipient then return .nothing
    let _ ← step.inputRegion kind
    let _ ← step.returnRegion kind
    return .opened (step.openedFrame settings kind)

namespace Step

variable {step : Step} {settings : Settings} {kind : FrameKind} {state : ChainState}

theorem addition_creation (h : kind.isCreation) :
    step.addition settings kind state =
    step.creationOperands.map fun _ => .opened (step.openedFrame settings kind) := by
  cases kind <;> first | rfl | cases h

theorem addition_call (h : kind.isCall) :
    step.addition settings kind state =
    step.callee.bind fun recipient =>
      if state.isBuiltIn recipient then .ok .nothing
      else (step.inputRegion kind).bind fun _ =>
        (step.returnRegion kind).map fun _ => .opened (step.openedFrame settings kind) := by
  cases kind <;> first | rfl | cases h

end Step

/-! ## The tracer with a stack -/

/-- The state of the reconstruction, with the root on the stack of open frames. -/
structure StackTracer where
  settings : Settings
  forest : Forest
  /-- The open frames, the innermost first. -/
  stack : List FrameId
  awaitsAllowance : Bool
  transaction : Option Transaction
  deriving DecidableEq, Repr

namespace StackTracer

/-- A tracer that has seen nothing. -/
def fresh (settings : Settings) : StackTracer where
  settings := settings
  forest := .ofRoot Tracer.unknownRoot
  stack := [rootId]
  awaitsAllowance := false
  transaction := none

/-- The innermost open frame, if there is one. -/
def top? (s : StackTracer) : Option FrameId :=
  s.stack.head?

/-- Changes the top, if there is one. -/
def amendTop (s : StackTracer) (f : Frame → Frame) : StackTracer :=
  match s.top? with
  | some id => { s with forest := s.forest.modify id f }
  | none => s

/-- Makes a frame the last child of the top, if there is one. -/
def attach (s : StackTracer) (id : FrameId) : StackTracer :=
  match s.top? with
  | some parent => { s with forest := s.forest.addChild parent id }
  | none => s

/-- Opens a frame above the others. -/
def push (s : StackTracer) (frame : Frame) : StackTracer :=
  { s with
    forest := s.forest.push frame
    stack := s.forest.size :: s.stack
    awaitsAllowance := true }

/-- Records a frame that ends at once as a child of the top, if there is one. -/
def pushLeaf (s : StackTracer) (frame : Frame) : StackTracer :=
  { s with forest := s.forest.push frame }.attach s.forest.size

/-- Does what an instruction of a kind asks for. -/
def enter (s : StackTracer) (kind : FrameKind) (step : Step) (state : ChainState) :
    StackTracer × Except Refusal Unit :=
  match step.addition s.settings kind state with
  | .error e => (s, .error e)
  | .ok .nothing => (s, .ok ())
  | .ok (.opened frame) => (s.push frame, .ok ())
  | .ok (.leaf frame) => (s.pushLeaf frame, .ok ())

/-- Takes the gas of a step as the allowance of the top, if it is awaited and the step belongs to
the top. -/
def sampleAllowance (s : StackTracer) (step : Step) : StackTracer :=
  if s.awaitsAllowance then
    let sampled := if s.stack.length ≤ step.depth then s.amendTop (Frame.grant step.gas) else s
    { sampled with awaitsAllowance := false }
  else s

/-- Settles a frame that has been taken from the stack. -/
def settle (s : StackTracer) (id : FrameId) (step : Step) (state : ChainState) :
    StackTracer × Except Refusal Unit :=
  match s.forest.get? id with
  | none => (s, (step.operand 0).map fun _ => ())
  | some frame =>
    let settled := frame.settle id step state s.settings.paddingLimit
    ({ s with forest := s.forest.modify id fun _ => settled.frame }, settled.result)

/-- Takes the top from the stack, settles it and makes it a child of the next one. The last frame
stays on the stack. -/
def close (s : StackTracer) (step : Step) (state : ChainState) :
    StackTracer × Except Refusal Unit :=
  if s.stack.length < 2 then (s, .ok ())
  else
    match s.stack with
    | [] => (s, .ok ())
    | id :: below =>
      let settled := { s with stack := below }.settle id step state
      (settled.1.attach id, settled.2)

/-- Takes a report that the top failed. The top is taken from the stack and made a child of the next
one. If there is no next one, it is put back. -/
def fail (s : StackTracer) (message : String) : StackTracer :=
  match s.top? with
  | none => s
  | some id =>
    if (s.forest.get? id).any Frame.failed then s
    else
      let marked := { s with
        forest := s.forest.modify id (Frame.fail message)
        stack := s.stack.tail }
      match marked.top? with
      | some parent => { marked with forest := marked.forest.addChild parent id }
      | none => { marked with stack := id :: marked.stack }

/-- Takes in one step. -/
def observe (s : StackTracer) (step : Step) (state : ChainState) :
    StackTracer × Except Refusal Unit :=
  match step.error with
  | some message => (s.fail message, .ok ())
  | none =>
    match FrameKind.ofOpcode? step.opcode with
    | some kind => s.enter kind step state
    | none =>
      let sampled := s.sampleAllowance step
      if step.opcode = revertOpcode then (sampled.amendTop Frame.revert, .ok ())
      else if step.depth + 1 = sampled.stack.length then sampled.close step state
      else (sampled, .ok ())

/-- Takes in the end of the transaction. -/
def finish (s : StackTracer) (tx : Transaction) : StackTracer :=
  { s with
    forest := s.forest.modify rootId (Frame.describe tx)
    transaction := some tx }

/-- Takes in one more step, unless a step was refused before. -/
def next (state : ChainState) (outcome : StackTracer × Except Refusal Unit) (step : Step) :
    StackTracer × Except Refusal Unit :=
  match outcome.2 with
  | .error _ => outcome
  | .ok () => outcome.1.observe step state

/-- Takes in steps until one is refused. -/
def observeAll (s : StackTracer) (steps : List Step) (state : ChainState) :
    StackTracer × Except Refusal Unit :=
  steps.foldl (next state) (s, .ok ())

/-- Traces a transaction from its beginning to its end. -/
def trace (s : StackTracer) (steps : List Step) (state : ChainState) (tx : Transaction) :
    StackTracer × Except Refusal (List Record) :=
  let outcome := (fresh s.settings).observeAll steps state
  match outcome.2 with
  | .error e => (outcome.1, .error e)
  | .ok () =>
    let finished := outcome.1.finish tx
    (finished, .ok (finished.forest.records finished.transaction))

/-- The tracer after an operation, whether or not it was refused. -/
def perform (s : StackTracer) : Tracer.Operation → StackTracer
  | .observe step state => (s.observe step state).1
  | .fail message => s.fail message
  | .finish tx => s.finish tx
  | .reset => fresh s.settings
  | .trace steps state tx => (s.trace steps state tx).1

/-- A new tracer after some operations. -/
def after (settings : Settings) (operations : List Tracer.Operation) : StackTracer :=
  operations.foldl perform (fresh settings)

end StackTracer

/-- The tracer with the root on the stack of open frames. -/
def Tracer.toStack (t : Tracer) : StackTracer where
  settings := t.settings
  forest := t.forest
  stack := t.openIds
  awaitsAllowance := t.awaitsAllowance
  transaction := t.transaction

/-- What an operation leads to, with the root on the stack of open frames. -/
def Outcome.toStack {α : Type} (outcome : Outcome α) : StackTracer × Except Refusal α :=
  (outcome.tracer.toStack, outcome.result)

namespace Tracer

variable (t : Tracer)

@[simp] theorem forest_toStack : t.toStack.forest = t.forest :=
  rfl

theorem top?_toStack : t.toStack.top? = some t.top :=
  t.head?_openIds

theorem length_stack : t.toStack.stack.length = t.openCount :=
  t.length_openIds

theorem toStack_amendTop (f : Frame → Frame) : t.toStack.amendTop f = (t.amend t.top f).toStack := by
  rw [StackTracer.amendTop, top?_toStack]
  rfl

/-! ## 1. Instructions that add a frame -/

theorem toStack_push (frame : Frame) : t.toStack.push frame = (t.push frame).toStack :=
  rfl

theorem toStack_pushLeaf (frame : Frame) :
    t.toStack.pushLeaf frame = (t.pushLeaf frame).toStack := by
  have htop : { t.toStack with forest := t.forest.push frame }.top? = some t.top := t.top?_toStack
  rw [StackTracer.pushLeaf, forest_toStack, StackTracer.attach, htop]
  rfl

section

variable {kind : FrameKind} {step : Step} (state : ChainState) (herror : step.error = none)
  (hkind : FrameKind.ofOpcode? step.opcode = some kind)
include herror hkind

theorem toStack_enterCreation (hcreation : kind.isCreation) :
    t.toStack.enter kind step state = (t.enterCreation kind step).toStack := by
  rw [StackTracer.enter, Step.addition_creation hcreation]
  cases hfound : step.creationOperands with
  | error e =>
    simp only [enterCreation, hfound]
    rfl
  | ok found =>
    have hopens : step.Opens state kind step.depth :=
      Step.opens_of_creationOperands herror hkind hcreation hfound
    obtain ⟨htracer, hresult⟩ := @enterCreation_of_opens _ t ⟨step, state⟩ kind hopens hcreation
    rw [Outcome.toStack, htracer, hresult]
    rfl

theorem toStack_enterCall (hcall : kind.isCall) :
    t.toStack.enter kind step state = (t.enterCall kind step state).toStack := by
  rw [StackTracer.enter, Step.addition_call hcall]
  cases hcallee : step.callee with
  | error e =>
    simp only [enterCall, hcallee]
    rfl
  | ok recipient =>
    by_cases hbuiltIn : state.isBuiltIn recipient
    · simp only [enterCall, hcallee, hbuiltIn, Except.bind, if_true]
      rfl
    cases hinput : step.inputRegion kind with
    | error e =>
      simp only [enterCall, hcallee, hbuiltIn, hinput, Except.bind]
      rfl
    | ok input =>
      cases hreturn : step.returnRegion kind with
      | error e =>
        simp only [enterCall, hcallee, hbuiltIn, hinput, hreturn, Except.bind]
        rfl
      | ok region =>
        have hopens := Step.opens_of_returnRegion herror hkind hcall hcallee
          (Bool.eq_false_iff.mpr hbuiltIn) hreturn
        obtain ⟨htracer, hresult⟩ := @enterCall_of_opens _ t ⟨step, state⟩ kind hopens hcall
        rw [Outcome.toStack, htracer, hresult]
        simp only [Except.bind, hbuiltIn]
        rfl

end

theorem toStack_addSelfDestruct (step : Step) (state : ChainState) :
    t.toStack.enter .selfDestruct step state = (t.addSelfDestruct step state).toStack := by
  rw [StackTracer.enter, Step.addition]
  cases hbeneficiary : step.operand 0 with
  | error e =>
    simp only [addSelfDestruct, hbeneficiary]
    rfl
  | ok beneficiary =>
    cases hbalance : state.balance step.address with
    | error e =>
      simp only [addSelfDestruct, hbeneficiary, hbalance]
      rfl
    | ok balance =>
      have hleaf : step.leaf state =
          { action := .selfDestruct step.address (Word.toAddress beneficiary) balance } := by
        rw [Step.leaf, Step.word_of_operand hbeneficiary, hbalance]
        rfl
      simp only [addSelfDestruct, hbeneficiary, hbalance, ← hleaf]
      show (t.toStack.pushLeaf _, _) = _
      rw [toStack_pushLeaf]
      rfl

/-- An instruction adds the same to both. -/
theorem toStack_enter {kind : FrameKind} {step : Step} (state : ChainState)
    (herror : step.error = none) (hkind : FrameKind.ofOpcode? step.opcode = some kind) :
    t.toStack.enter kind step state = (t.enter kind step state).toStack := by
  cases kind with
  | create | create2 => exact t.toStack_enterCreation state herror hkind rfl
  | call | callCode | delegateCall | staticCall => exact t.toStack_enterCall state herror hkind rfl
  | selfDestruct => exact t.toStack_addSelfDestruct step state

/-! ## 2. Steps and reports -/

theorem toStack_sampleAllowance (step : Step) :
    t.toStack.sampleAllowance step = (t.sampleAllowance step).toStack := by
  rw [StackTracer.sampleAllowance, length_stack, toStack_amendTop, sampleAllowance]
  show (if t.awaitsAllowance then _ else _) = _
  split
  · split <;> rfl
  · rfl

theorem head?_below (below : List FrameId) : (below ++ [rootId]).head? = some (topOf below) := by
  cases below <;> rfl

theorem toStack_of_nil {t : Tracer} (h : t.inner = []) : t.toStack.stack = [rootId] := by
  rw [toStack, openIds, h, List.nil_append]

theorem toStack_of_cons {t : Tracer} {id : FrameId} {below : List FrameId} (h : t.inner = id :: below) :
    t.toStack.stack = id :: (below ++ [rootId]) := by
  rw [toStack, openIds, h, List.cons_append]

/-- The root is alone on the stack exactly if it is the top. -/
theorem toStack_close (step : Step) (state : ChainState) :
    t.toStack.close step state = (t.close step state).toStack := by
  rw [StackTracer.close, length_stack]
  cases hinner : t.inner with
  | nil =>
    rw [if_pos (by simp [openCount, hinner]), close_of_nil hinner]
    rfl
  | cons id below =>
    rw [if_neg (by simp [openCount, hinner])]
    simp only [toStack_of_cons hinner, StackTracer.settle, forest_toStack, close, hinner]
    cases hframe : t.forest.get? id
    all_goals
      simp only [StackTracer.attach, StackTracer.top?, head?_below]
      rfl

/-- The root is taken from the stack and put back. -/
theorem toStack_fail (message : String) :
    t.toStack.fail message = (t.fail message).toStack := by
  by_cases hfailed : (t.forest.get? t.top).any Frame.failed
  · simp only [StackTracer.fail, top?_toStack, forest_toStack, fail, hfailed, if_true]
  · simp only [StackTracer.fail, top?_toStack, forest_toStack, fail, hfailed]
    -- Whether another frame lies below shows only once the top has been taken from the stack.
    cases hinner : t.inner with
    | nil =>
      simp only [toStack_of_nil hinner, List.tail_cons, top_of_nil hinner, StackTracer.top?,
        List.head?_nil]
      simp only [toStack, openIds, hinner, List.nil_append]
      rfl
    | cons id below =>
      simp only [toStack_of_cons hinner, List.tail_cons, top_of_cons hinner, StackTracer.top?,
        head?_below]
      rfl

theorem toStack_observe (step : Step) (state : ChainState) :
    t.toStack.observe step state = (t.observe step state).toStack := by
  rcases step.sort_cases with ⟨message, h⟩ | ⟨h, kind, hkind⟩ | ⟨h, hrevert⟩ | h
  · rw [t.observe_of_error state h]
    simp only [StackTracer.observe, h, toStack_fail]
    rfl
  · rw [t.observe_of_kind state h hkind]
    simp only [StackTracer.observe, h, hkind, t.toStack_enter state h hkind]
  · have hkind : FrameKind.ofOpcode? step.opcode = none := hrevert ▸ by decide
    rw [t.observe_of_revert state h hrevert]
    simp only [StackTracer.observe, h, hkind, if_pos hrevert, toStack_sampleAllowance,
      toStack_amendTop]
    rfl
  · rw [t.observe_of_plain state h]
    simp only [StackTracer.observe, h.error, h.kind, if_neg h.opcode, toStack_sampleAllowance,
      length_stack, openCount_sampleAllowance, toStack_close]
    split <;> rfl

/-! ## 3. Runs -/

theorem toStack_next (state : ChainState) (outcome : Outcome Unit) (step : Step) :
    StackTracer.next state outcome.toStack step = (outcome.next state step).toStack := by
  rw [StackTracer.next, Outcome.next]
  show (match outcome.result with | .error _ => _ | .ok () => _) = _
  cases outcome.result with
  | error e => rfl
  | ok u => exact outcome.tracer.toStack_observe step state

theorem toStack_observeAll (steps : List Step) (state : ChainState) :
    t.toStack.observeAll steps state = (t.observeAll steps state).toStack := by
  show steps.foldl (StackTracer.next state) (Outcome.accepted t).toStack = _
  exact List.foldl_hom Outcome.toStack (toStack_next state)

/-- A transaction gives the same records, or is refused for the same reason. -/
theorem toStack_trace (steps : List Step) (state : ChainState) (tx : Transaction) :
    t.toStack.trace steps state tx = (t.trace steps state tx).toStack := by
  have hobserved : (StackTracer.fresh t.settings).observeAll steps state =
      (t.reset.observeAll steps state).toStack := t.reset.toStack_observeAll steps state
  simp only [StackTracer.trace, toStack, hobserved, trace, Outcome.toStack]
  cases (t.reset.observeAll steps state).result <;> rfl

theorem toStack_perform (operation : Operation) :
    t.toStack.perform operation = (t.perform operation).toStack := by
  cases operation with
  | observe step state => exact congrArg Prod.fst (t.toStack_observe step state)
  | fail message => exact t.toStack_fail message
  | finish | reset => rfl
  | trace steps state tx => exact congrArg Prod.fst (t.toStack_trace steps state tx)

/-- Whatever is asked of a tracer, one with a stack does the same. -/
theorem toStack_after (settings : Settings) (operations : List Operation) :
    StackTracer.after settings operations = (after settings operations).toStack := by
  show operations.foldl StackTracer.perform (fresh settings).toStack = _
  exact List.foldl_hom toStack toStack_perform

end Tracer

namespace StackTracer

variable (settings : Settings) (operations : List Tracer.Operation)

/-- The root is at the bottom of the stack, and the frames above it lie in the order in which they
were opened. -/
theorem stack_after :
    (after settings operations).stack.getLast? = some rootId ∧
    (after settings operations).stack.Pairwise (· > ·) := by
  rw [Tracer.toStack_after]
  have howned := (Tracer.nested_after settings operations).ownership
  exact ⟨howned.open_bottom, howned.open_sorted⟩

/-- There always is a top, and its frame is known. -/
theorem exists_top_after :
    ∃ id frame, (after settings operations).top? = some id ∧
      (after settings operations).forest.get? id = some frame := by
  rw [Tracer.toStack_after]
  obtain ⟨frame, hframe⟩ := (Tracer.nested_after settings operations).guarded.top
  exact ⟨_, frame, Tracer.top?_toStack _, hframe⟩

end StackTracer

end CallTree
