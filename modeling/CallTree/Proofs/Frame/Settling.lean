import CallTree.Tracer.Closing

/-!
# What settling changes

Results:
1. `keeps_settle`: a close touches neither the children of a frame nor its gas.
   `amends_settle`, `amends_fail`: neither a close nor a report of failure touches the children, and
   neither makes a self-destruction of an execution.
2. `settle_of_nil`, `settle_of_zero`: a close without an outcome, and one that finds a failure.
   `settle_call`, `settle_creation`: a settled call or creation, field by field.
-/

namespace CallTree

/-- The action is a self-destruction. -/
def Action.isSelfDestruct : Action → Bool
  | .selfDestruct .. => true
  | _ => false

/-- The action is a creation. -/
def Action.isCreation : Action → Bool
  | .create .. => true
  | _ => false

/-- The action is a call. -/
def Action.isCall : Action → Bool
  | .call .. => true
  | _ => false

/-- What may be done to a frame in its place: its children stay, and an execution stays one. -/
structure Frame.Amends (f : Frame → Frame) : Prop where
  children : ∀ frame, (f frame).children = frame.children
  executes : ∀ frame, frame.action.isSelfDestruct = false → (f frame).action.isSelfDestruct = false

/-- What a close leaves of a frame: its children, its gas, and that it is an execution. -/
structure Frame.Keeps (frame frame' : Frame) : Prop where
  children : frame'.children = frame.children
  gas : frame'.gas = frame.gas
  executes : frame.action.isSelfDestruct = false → frame'.action.isSelfDestruct = false

namespace Frame

/-! ## 1. What stays -/

theorem Keeps.refl (frame : Frame) : frame.Keeps frame :=
  ⟨rfl, rfl, id⟩

theorem Keeps.trans {frame frame' frame'' : Frame} (h : frame.Keeps frame')
    (h' : frame'.Keeps frame'') : frame.Keeps frame'' :=
  ⟨h'.children.trans h.children, h'.gas.trans h.gas, fun hexecutes => h'.executes (h.executes hexecutes)⟩

section

variable (frame : Frame) (id : FrameId) (step : Step) (state : ChainState) (limit : UInt64)

theorem keeps_chargeCreation (remaining : Gas) : frame.Keeps (frame.chargeCreation remaining) :=
  ⟨rfl, rfl, fun h => h⟩

theorem keeps_chargeCall (remaining : Gas) : frame.Keeps (frame.chargeCall remaining) :=
  ⟨rfl, rfl, fun h => h⟩

theorem keeps_failUnexplained : frame.Keeps frame.failUnexplained :=
  ⟨rfl, rfl, fun h => h⟩

theorem keeps_settleCreated (kind : FrameKind) (creator : Address) (init : Bytes) (value : Word)
    (created : Address) :
    frame.Keeps (frame.settleCreated kind creator init value created state).frame := by
  unfold settleCreated
  split <;> exact ⟨rfl, rfl, fun _ => rfl⟩

theorem keeps_settleReturned (region : Option Region) (memory : Bytes) :
    frame.Keeps (frame.settleReturned id region memory limit).frame := by
  unfold settleReturned
  split
  · exact .refl frame
  · split <;> exact ⟨rfl, rfl, fun h => h⟩

theorem keeps_settle : frame.Keeps (frame.settle id step state limit).frame := by
  unfold settle
  split
  · exact .refl frame
  next outcome _ =>
    split
    next kind creator _ init value _ =>
      have hcharged := frame.keeps_chargeCreation step.gas
      by_cases h : outcome = 0
      · rw [if_pos h]
        exact hcharged.trans (keeps_failUnexplained _)
      · rw [if_neg h]
        exact hcharged.trans (keeps_settleCreated ..)
    next =>
      have hcharged := frame.keeps_chargeCall step.gas
      by_cases h : outcome = 0
      · rw [if_pos h]
        exact hcharged.trans (keeps_failUnexplained _)
      · rw [if_neg h]
        exact hcharged.trans (keeps_settleReturned ..)
    next => exact ⟨rfl, rfl, fun h => h⟩

end

theorem amends_settle (id : FrameId) (step : Step) (state : ChainState) (limit : UInt64) :
    Amends fun frame => (frame.settle id step state limit).frame :=
  ⟨fun _ => (keeps_settle ..).children, fun _ => (keeps_settle ..).executes⟩

theorem amends_fail (message : String) : Amends (fail message) :=
  ⟨fun _ => rfl, fun _ h => h⟩

/-! ## 2. What becomes of a frame -/

/-- Without an outcome nothing is settled. -/
theorem settle_of_nil {step : Step} (h : step.operands = []) (frame : Frame) (id : FrameId)
    (state : ChainState) (limit : UInt64) :
    frame.settle id step state limit = ⟨frame, [], .error (.missingOperand step.opcode 0)⟩ := by
  have hmissing : step.operand 0 = .error (.missingOperand step.opcode 0) :=
    Step.operand_eq_error_iff.mpr ⟨Nat.le_of_eq (List.length_eq_zero_iff.mpr h), rfl⟩
  simp only [settle, hmissing]

/-- A close that finds a zero changes neither what the frame does nor what came of it. -/
theorem settle_of_zero {step : Step} (h : step.operand 0 = .ok 0) (frame : Frame) (id : FrameId)
    (state : ChainState) (limit : UInt64) :
    (frame.settle id step state limit).frame.action = frame.action ∧
    (frame.settle id step state limit).frame.output = frame.output := by
  simp only [settle, h, if_true]
  split <;> exact ⟨rfl, rfl⟩

section

variable {frame : Frame} {step : Step} {outcome : Word} (h : step.operand 0 = .ok outcome)
  (id : FrameId) (state : ChainState) (limit : UInt64)
include h

theorem settle_creation {kind : FrameKind} {creator : Address} {created : Option Address}
    {init : Bytes} {value : Word} (haction : frame.action = .create kind creator created init value) :
    (frame.settle id step state limit).frame =
    { frame with
      action := .create kind creator
        (if outcome = 0 then created else some (Word.toAddress outcome)) init value
      gasUsed := (frame.opening.map (·.usedByCreation step.gas)).or frame.gasUsed
      output := if outcome = 0 then frame.output
        else (state.code (Word.toAddress outcome)).toOption.or frame.output
      error := if outcome = 0 then frame.error.or (some Failure.unexplainedMessage)
        else frame.error
      opening := none } := by
  simp only [settle, h, haction]
  by_cases hzero : outcome = 0
  · simp only [if_pos hzero]
    rw [← haction]
    rfl
  · simp only [if_neg hzero, settleCreated]
    cases state.code (Word.toAddress outcome) <;> rfl

theorem settle_creation_result {kind : FrameKind} {creator : Address} {created : Option Address}
    {init : Bytes} {value : Word} (haction : frame.action = .create kind creator created init value) :
    (frame.settle id step state limit).result = .ok () ↔
    (outcome ≠ 0 → (state.code (Word.toAddress outcome)).isOk) := by
  simp only [settle, h, haction]
  by_cases hzero : outcome = 0
  · simp only [if_pos hzero, true_iff]
    exact fun hne => absurd hzero hne
  · simp only [settleCreated, ne_eq, hzero, not_false_eq_true, forall_const]
    cases state.code (Word.toAddress outcome) <;> simp [Except.isOk, Except.toBool]

theorem settle_call {kind : FrameKind} {sender recipient : Address} {input : Bytes}
    {value : Option Word} (haction : frame.action = .call kind sender recipient input value) :
    (frame.settle id step state limit).frame =
    { frame with
      gasUsed := (do
        let granted ← frame.gas
        let opening ← frame.opening
        some (opening.usedByCall granted step.gas)).or frame.gasUsed
      output := if outcome = 0 then frame.output
        else ((frame.opening.bind (·.returnRegion)).bind fun region =>
          (region.read step.memory limit).toOption).or frame.output
      error := if outcome = 0 then frame.error.or (some Failure.unexplainedMessage)
        else frame.error
      opening := none } := by
  obtain ⟨action, gas, gasUsed, output, error, children, opening⟩ := frame
  subst haction
  simp only [settle, h]
  by_cases hzero : outcome = 0
  · simp only [if_pos hzero]
    rfl
  · simp only [if_neg hzero, settleReturned]
    cases opening.bind (·.returnRegion) with
    | none => rfl
    | some region =>
      simp only [Option.bind_some]
      cases region.read step.memory limit <;> rfl

theorem settle_call_result {kind : FrameKind} {sender recipient : Address} {input : Bytes}
    {value : Option Word} (haction : frame.action = .call kind sender recipient input value) :
    (frame.settle id step state limit).result = .ok () := by
  simp only [settle, h, haction]
  split
  · rfl
  · unfold settleReturned
    split
    · rfl
    · split <;> rfl

/-- A frame that is said to have succeeded keeps its message, if it has one. -/
theorem error_settle_of_ne_zero (hne : outcome ≠ 0) :
    (frame.settle id step state limit).frame.error = frame.error := by
  cases haction : frame.action with
  | create =>
    rw [settle_creation h id state limit haction]
    exact if_neg hne
  | call =>
    rw [settle_call h id state limit haction]
    exact if_neg hne
  | selfDestruct => simp only [settle, h, haction]

end

end Frame

end CallTree
