import CallTree.Proofs.Outline.Basic
import CallTree.Proofs.Tracer.Operation
import Mathlib.Data.List.Forall2

/-!
# What memory and code cannot influence

Memory, code and the padding limit determine the bytes that a tracer records and whether a step is
refused or warned about. They determine nothing else: what becomes of the outline of a tracer
follows from its outline alone, from the steps without their memory, and from a chain state that
knows no code. So two hosts that show the same to their tracers, apart from these, are shown the
same call trees, apart from the bytes, as long as they go on after a refusal.

Results:
1. `Frame.outline_settle`, `Tracer.outline_observe`: the outline after a step.
2. `Tracer.outline_foldl`: the outlines of two runs.
3. `Tracer.Agrees`, `Tracer.noninterference`: all that two tracers then have in common.
-/

namespace CallTree

/-- The step without its memory. -/
def Step.outline (step : Step) : Step :=
  { step with memory := [] }

/-- The chain state with no code in it. -/
def ChainState.outline (state : ChainState) : ChainState :=
  { state with code := fun _ => .ok [] }

/-- The settings that let no region reach beyond memory. -/
def Settings.outline (settings : Settings) : Settings :=
  { settings with paddingLimit := 0 }

/-- The tracer without the bytes that it has recorded. -/
def Tracer.outline (t : Tracer) : Tracer :=
  { t with
    settings := t.settings.outline
    forest := t.forest.outline }

/-! ## 1. One step -/

namespace Frame

theorem outline_settleCreated (frame : Frame) (kind : FrameKind) (creator : Address)
    (init : Bytes) (value : Word) (created : Address) (state : ChainState) :
    (frame.settleCreated kind creator init value created state).frame.outline =
    { frame.outline with action := .create kind creator (some created) [] value } := by
  unfold settleCreated
  split <;> rfl

theorem outline_settleReturned (frame : Frame) (id : FrameId) (region : Option Region)
    (memory : Bytes) (limit : UInt64) :
    (frame.settleReturned id region memory limit).frame.outline = frame.outline := by
  unfold settleReturned
  split
  · rfl
  · split <;> rfl

/-- A frame is settled in the same way whether or not its code is known and its output is in
reach. -/
theorem outline_settle (frame : Frame) (id : FrameId) (step : Step) (state : ChainState)
    (limit : UInt64) :
    (frame.settle id step state limit).frame.outline =
    (frame.outline.settle id step.outline state.outline 0).frame.outline := by
  have hoperand : step.outline.operand 0 = step.operand 0 := rfl
  have hkept : frame.outline.action = frame.action.outline := rfl
  rw [settle, settle, hoperand, hkept]
  cases step.operand 0 with
  | error e => exact (outline_outline frame).symm
  | ok outcome =>
    cases haction : frame.action with
    | create kind creator created init value =>
      simp only [Action.outline]
      by_cases hzero : outcome = 0
      · simp only [if_pos hzero]
        exact (outline_outline _).symm
      · simp only [if_neg hzero, outline_settleCreated]
        rfl
    | call kind sender recipient input value =>
      simp only [Action.outline]
      by_cases hzero : outcome = 0
      · simp only [if_pos hzero]
        exact (outline_outline _).symm
      · simp only [if_neg hzero, outline_settleReturned]
        exact (outline_outline _).symm
    | selfDestruct address beneficiary balance => exact (outline_outline _).symm

theorem outline_fail (message : String) (frame : Frame) :
    (frame.fail message).outline = (frame.outline.fail message).outline :=
  (outline_outline (frame.fail message)).symm

theorem outline_grant (gas : Gas) (frame : Frame) :
    (frame.grant gas).outline = (frame.outline.grant gas).outline :=
  (outline_outline (frame.grant gas)).symm

theorem outline_describe (tx : Transaction) (frame : Frame) :
    (frame.describe tx).outline = (frame.outline.describe tx).outline :=
  rfl

theorem outline_revert (frame : Frame) : frame.revert.outline = frame.outline.revert.outline :=
  (outline_outline frame.revert).symm

end Frame

namespace Tracer

variable (t : Tracer)

@[simp] theorem outline_outline : t.outline.outline = t.outline := by
  simp [outline, Settings.outline]

theorem outline_push (frame : Frame) :
    (t.push frame).outline = t.outline.push frame.outline := by
  simp [outline, push]

theorem outline_pushLeaf (frame : Frame) :
    (t.pushLeaf frame).outline = t.outline.pushLeaf frame.outline := by
  simp [outline, pushLeaf, top]

theorem outline_pop : t.pop.outline = t.outline.pop := by
  have hinner : t.outline.inner = t.inner := rfl
  rw [pop, pop, hinner]
  cases t.inner with
  | nil => rfl
  | cons id rest => simp [outline]

/-- A change in place, of which the outline of a frame tells the outline of what becomes of it. -/
theorem outline_amend (id : FrameId) {f g : Frame → Frame}
    (h : ∀ frame, (f frame).outline = (g frame.outline).outline) :
    (t.amend id f).outline = (t.outline.amend id g).outline := by
  simp only [outline, amend, t.forest.outline_modify id h]
  rfl

theorem outline_fail (message : String) :
    (t.fail message).outline = (t.outline.fail message).outline := by
  have htop : t.outline.top = t.top := rfl
  have hfailed : (t.outline.forest.get? t.top).any Frame.failed =
      (t.forest.get? t.top).any Frame.failed := by
    rw [outline, Forest.get?_outline]
    cases t.forest.get? t.top <;> rfl
  rw [fail_eq, fail_eq, htop, hfailed]
  split
  · rw [outline_outline]
  · rw [outline_pop, outline_pop, t.outline_amend t.top (Frame.outline_fail message)]

theorem outline_sampleAllowance (step : Step) :
    (t.sampleAllowance step).outline = (t.outline.sampleAllowance step.outline).outline := by
  have hgranted := t.outline_amend t.top (Frame.outline_grant step.gas)
  have hawaits : t.outline.awaitsAllowance = t.awaitsAllowance := rfl
  have hcount : t.outline.openCount = t.openCount := rfl
  have hdepth : step.outline.depth = step.depth := rfl
  rw [sampleAllowance_eq, sampleAllowance_eq, hawaits, hcount, hdepth]
  split
  · exact congrArg (fun s : Tracer => { s with awaitsAllowance := false }) hgranted
  · exact congrArg (fun s : Tracer => { s with awaitsAllowance := false }) t.outline_outline.symm

theorem outline_close (step : Step) (state : ChainState) :
    (t.close step state).tracer.outline =
    (t.outline.close step.outline state.outline).tracer.outline := by
  have hsame : t.outline.inner = t.inner := rfl
  cases hinner : t.inner with
  | nil =>
    rw [close_of_nil hinner, close_of_nil (hsame.trans hinner)]
    exact t.outline_outline.symm
  | cons id rest =>
    rw [close_of_cons hinner, close_of_cons (hsame.trans hinner), outline_pop, outline_pop]
    refine congrArg pop (t.outline_amend id fun frame => ?_)
    exact frame.outline_settle id step state t.settings.paddingLimit

theorem outline_enterCreation (kind : FrameKind) (step : Step) :
    (t.enterCreation kind step).tracer.outline =
    (t.outline.enterCreation kind step.outline).tracer.outline := by
  have hoperands : step.outline.creationOperands = step.creationOperands := rfl
  rw [enterCreation, enterCreation, hoperands]
  split
  · exact t.outline_outline.symm
  · rw [outline_push, outline_push, outline_outline]
    rfl

/-- The stipend of a call depends on the length of its input, which is on the stack. -/
theorem outline_enterCall (kind : FrameKind) (step : Step) (state : ChainState) :
    (t.enterCall kind step state).tracer.outline =
    (t.outline.enterCall kind step.outline state.outline).tracer.outline := by
  have hcallee : step.outline.callee = step.callee := rfl
  have hbuiltIn : state.outline.isBuiltIn = state.isBuiltIn := rfl
  have hinput : step.outline.inputRegion kind = step.inputRegion kind := rfl
  have hreturn : step.outline.returnRegion kind = step.returnRegion kind := rfl
  rw [enterCall, enterCall, hcallee, hbuiltIn, hinput, hreturn]
  split
  · exact t.outline_outline.symm
  split
  · exact t.outline_outline.symm
  split
  · exact t.outline_outline.symm
  split
  · exact t.outline_outline.symm
  · rw [outline_push, outline_push, outline_outline]
    rfl

theorem outline_addSelfDestruct (step : Step) (state : ChainState) :
    (t.addSelfDestruct step state).tracer.outline =
    (t.outline.addSelfDestruct step.outline state.outline).tracer.outline := by
  have hoperand : step.outline.operand 0 = step.operand 0 := rfl
  have hbalance : state.outline.balance step.outline.address = state.balance step.address := rfl
  rw [addSelfDestruct, addSelfDestruct, hoperand, hbalance]
  split
  · exact t.outline_outline.symm
  split
  · exact t.outline_outline.symm
  · rw [Outcome.accepted, Outcome.accepted, outline_pushLeaf, outline_pushLeaf, outline_outline]
    rfl

theorem outline_enter (kind : FrameKind) (step : Step) (state : ChainState) :
    (t.enter kind step state).tracer.outline =
    (t.outline.enter kind step.outline state.outline).tracer.outline := by
  cases kind with
  | create | create2 => exact t.outline_enterCreation _ step
  | selfDestruct => exact t.outline_addSelfDestruct step state
  | call | callCode | delegateCall | staticCall => exact t.outline_enterCall _ step state

theorem outline_revertTop : t.revertTop.outline = t.outline.revertTop.outline := by
  rw [revertTop_eq, revertTop_eq]
  exact t.outline_amend t.top Frame.outline_revert

/-- The outline after a step, whether or not it is refused. -/
theorem outline_observe (step : Step) (state : ChainState) :
    (t.observe step state).tracer.outline =
    (t.outline.observe step.outline state.outline).tracer.outline := by
  have hsampled := t.outline_sampleAllowance step
  rcases step.sort_cases with ⟨message, h⟩ | ⟨h, kind, hkind⟩ | ⟨h, hrevert⟩ | h
  · have herror : step.outline.error = some message := h
    rw [observe_of_error _ _ h, observe_of_error _ _ herror]
    exact t.outline_fail message
  · have hnone : step.outline.error = none := h
    have hsame : FrameKind.ofOpcode? step.outline.opcode = some kind := hkind
    rw [observe_of_kind _ _ h hkind, observe_of_kind _ _ hnone hsame]
    exact t.outline_enter kind step state
  · have hnone : step.outline.error = none := h
    have hsame : step.outline.opcode = revertOpcode := hrevert
    rw [observe_of_revert _ _ h hrevert, observe_of_revert _ _ hnone hsame, Outcome.accepted,
      Outcome.accepted, outline_revertTop, hsampled]
    exact (outline_revertTop _).symm
  · have hplain : step.outline.Plain := ⟨h.error, h.kind, h.opcode⟩
    have hcount : t.outline.openCount = t.openCount := rfl
    have hdepth : step.outline.depth = step.depth := rfl
    rw [observe_of_plain _ _ h, observe_of_plain _ _ hplain, hcount, hdepth]
    split
    · rw [outline_close, hsampled]
      exact (outline_close _ step.outline state.outline).symm
    · exact hsampled

theorem outline_finish (tx : Transaction) : (t.finish tx).outline = (t.outline.finish tx).outline := by
  have hdescribed := t.outline_amend rootId (Frame.outline_describe tx)
  exact congrArg (fun s : Tracer => { s with transaction := some tx }) hdescribed

end Tracer

/-! ## 2. A run -/

/-- Two operations that are the same but for memory and code. A whole transaction to be traced is
none of them, as it ends at the first refusal. -/
inductive Tracer.Operation.Alike : Operation → Operation → Prop
  | observe {step step' : Step} {state state' : ChainState} : step.outline = step'.outline →
      state.outline = state'.outline → Alike (.observe step state) (.observe step' state')
  | fail (message : String) : Alike (.fail message) (.fail message)
  | finish (tx : Transaction) : Alike (.finish tx) (.finish tx)
  | reset : Alike .reset .reset

namespace Tracer

variable {t t' : Tracer}

theorem outline_perform {operation operation' : Operation} (h : t.outline = t'.outline)
    (halike : operation.Alike operation') :
    (t.perform operation).outline = (t'.perform operation').outline := by
  cases halike with
  | observe hstep hstate =>
    rw [perform, perform, outline_observe, outline_observe t', h, hstep, hstate]
  | fail message => rw [perform, perform, outline_fail, outline_fail t', h]
  | finish tx => rw [perform, perform, outline_finish, outline_finish t', h]
  | reset =>
    have hsettings : t.settings.outline = t'.settings.outline := congrArg Tracer.settings h
    rw [perform, perform, reset, reset, fresh, fresh]
    simp only [outline, hsettings]

theorem outline_foldl {operations operations' : List Operation} (h : t.outline = t'.outline)
    (halike : List.Forall₂ Operation.Alike operations operations') :
    (operations.foldl perform t).outline = (operations'.foldl perform t').outline := by
  induction halike generalizing t t' with
  | nil => exact h
  | cons hfirst _ ih => exact ih (outline_perform h hfirst)

/-! ## 3. What two tracers have in common -/

/-- Two tracers have recorded the same but for the bytes. -/
structure Agrees (t t' : Tracer) : Prop where
  inner : t.inner = t'.inner
  awaitsAllowance : t.awaitsAllowance = t'.awaitsAllowance
  size : t.forest.size = t'.forest.size
  frames : ∀ id, (t.forest.get? id).map Frame.outline = (t'.forest.get? id).map Frame.outline
  failureOrigin : t.failureOrigin.map Visit.outline = t'.failureOrigin.map Visit.outline
  records : t.records.map Record.outline = t'.records.map Record.outline

theorem agrees_of_outline (h : t.outline = t'.outline) : t.Agrees t' := by
  have hforest : t.forest.outline = t'.forest.outline := congrArg Tracer.forest h
  have hinner : t.outline.inner = t'.outline.inner := congrArg Tracer.inner h
  have hawaits : t.outline.awaitsAllowance = t'.outline.awaitsAllowance :=
    congrArg Tracer.awaitsAllowance h
  have htransaction : t.outline.transaction = t'.outline.transaction :=
    congrArg Tracer.transaction h
  refine ⟨hinner, hawaits, ?_, fun id => ?_, ?_, ?_⟩
  · rw [← Forest.size_outline, hforest, Forest.size_outline]
  · rw [← Forest.get?_outline, hforest, Forest.get?_outline]
  · rw [failureOrigin, failureOrigin, ← Forest.failureOrigin_outline, hforest,
      Forest.failureOrigin_outline]
  · rw [records, records, ← Forest.records_outline, hforest, Forest.records_outline]
    exact congrArg (fun tx => (t'.forest.records tx).map Record.outline) htransaction

/-- Two new tracers that grant the same stipend agree after each of their operations, accepted or
refused, if these are the same but for memory and code. Neither memory nor code nor the padding
limit has any influence but on the bytes. -/
theorem noninterference (settings settings' : Settings)
    (hstipend : settings.stipend = settings'.stipend) (operations operations' : List Operation)
    (halike : List.Forall₂ Operation.Alike operations operations') (n : Nat) :
    (after settings (operations.take n)).Agrees (after settings' (operations'.take n)) := by
  have hsettings : settings.outline = settings'.outline := by
    rw [Settings.outline, Settings.outline, hstipend]
  have hfresh : (fresh settings).outline = (fresh settings').outline := by
    simp only [outline, fresh, hsettings]
  exact agrees_of_outline (outline_foldl hfresh (List.forall₂_take n halike))

/-- A creation that goes well, with what a host shows of memory and of the new code. -/
def createOnce (memory : Bytes) (code : Except LookupError Bytes) : List Operation :=
  let state : ChainState := { ChainState.empty with code := fun _ => code }
  let opening : Step :=
    { opcode := FrameKind.create.opcode, operands := [0, 0, 32], memory := memory
      gas := 100000, cost := 32000, depth := 1 }
  [.observe opening state, .observe (.idle 2 60000 0) state, .observe (.idle 1 50000 7) state,
    .finish ⟨.call, 0, 0, 0, 100000, 50000, [], [], none, none, none, none, none, none⟩]

/-- The one host shows code, and the other one has lost its database. -/
theorem noninterference_createOnce :
    (after {} ((createOnce [1, 2] (.ok [3])).take 4)).Agrees
      (after { paddingLimit := 0 } ((createOnce [] (.error (.code 7 "no database"))).take 4)) := by
  refine noninterference {} { paddingLimit := 0 } rfl (createOnce [1, 2] (.ok [3]))
    (createOnce [] (.error (.code 7 "no database"))) ?_ 4
  exact .cons (.observe rfl rfl) (.cons (.observe rfl rfl) (.cons (.observe rfl rfl)
    (.cons (.finish _) .nil)))

end Tracer

end CallTree
