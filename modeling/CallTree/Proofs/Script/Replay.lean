import CallTree.Proofs.Script.Basic
import CallTree.Proofs.Tracer.Growth

/-!
# Replaying a script

A tracer that takes in the steps of a script grows by the frames of the script. While a frame of the
script is open, its steps grow it, and its ending hands it to the frame below.

Results:
1. `observe_opening`, `observe_back`, `observe_reverts`, `observeOn_reports`, `observe_fails`: the
   steps at which a frame opens and ends.
2. `Ending.replays`: a frame that ends has become the frame of its script.
3. `Script.replays`: a script grows every tracer whose top is at its depth.
-/

namespace CallTree

variable {depth : Nat}

/-! ## 1. Opening -/

theorem Step.operand_of_lt {step : Step} {position : Nat} (h : position < step.operands.length) :
    step.operand position = .ok (step.word position) := by
  rw [operand_eq_ok_iff]
  simp [word, operand?, h]

/-- The frame that an instruction opens, before it has run. -/
def Step.openedFrame (step : Step) (settings : Settings) (kind : FrameKind) : Frame where
  action := step.opened settings kind none
  gas := step.stipend settings kind
  opening := some
    ⟨step.gas, step.cost, if kind.isCreation then none else some (step.outputRegion kind)⟩

theorem FrameKind.isCreation_eq_false {kind : FrameKind} (h : kind.isCall) :
    kind.isCreation = false := by
  cases kind <;> first | rfl | cases h

namespace Tracer

variable (t : Tracer) {event : Event} {kind : FrameKind}

theorem recordInput_fst (step : Step) (region : Region) :
    (t.recordInput step region).1 = step.input t.settings region := by
  unfold recordInput Step.input
  split <;> simp only [*] <;> rfl

theorem enterCreation_of_opens (h : event.step.Opens event.state kind depth)
    (hkind : kind.isCreation) :
    (t.enterCreation kind event.step).tracer =
      t.push (event.step.openedFrame t.settings kind) ∧
    (t.enterCreation kind event.step).result = .ok () := by
  have hoperands : 3 ≤ event.step.operands.length := by
    simpa [FrameKind.operandCount, hkind] using h.operands
  have hcreation : event.step.creationOperands =
      .ok (event.step.word 0, ⟨event.step.word 1, event.step.word 2⟩) := by
    simp only [Step.creationOperands, Step.operand_of_lt (show 0 < event.step.operands.length by omega),
      Step.operand_of_lt (show 1 < event.step.operands.length by omega),
      Step.operand_of_lt (show 2 < event.step.operands.length by omega)]
    rfl
  have hcall : kind.takesValue = false := by
    cases kind <;> first | rfl | cases hkind
  simp only [enterCreation, hcreation, recordInput_fst, Step.openedFrame, Step.opened, Step.stipend,
    hkind, hcall, if_true, and_true]
  rfl

theorem enterCall_of_opens (h : event.step.Opens event.state kind depth) (hkind : kind.isCall) :
    (t.enterCall kind event.step event.state).tracer =
      t.push (event.step.openedFrame t.settings kind) ∧
    (t.enterCall kind event.step event.state).result = .ok () := by
  have hcreation := FrameKind.isCreation_eq_false hkind
  have hoperands : 6 + kind.valueOperands ≤ event.step.operands.length := by
    simpa [FrameKind.operandCount, hcreation] using h.operands
  have hoperand : ∀ position, position < 6 + kind.valueOperands →
      event.step.operand position = .ok (event.step.word position) :=
    fun _ hlt => Step.operand_of_lt (Nat.lt_of_lt_of_le hlt hoperands)
  have hcallee : event.step.callee = .ok (Word.toAddress (event.step.word 1)) := by
    simp only [Step.callee, hoperand 1 (by omega)]
    rfl
  have hinput : event.step.inputRegion kind = .ok ⟨event.step.word (2 + kind.valueOperands),
      event.step.word (3 + kind.valueOperands)⟩ := by
    simp only [Step.inputRegion, hoperand (3 + kind.valueOperands) (by omega),
      hoperand (2 + kind.valueOperands) (by omega)]
    rfl
  have hreturn : event.step.returnRegion kind = .ok (event.step.outputRegion kind) := by
    simp only [Step.returnRegion, hoperand (4 + kind.valueOperands) (by omega),
      hoperand (5 + kind.valueOperands) (by omega)]
    rfl
  have hvalue : event.step.callValue kind =
      if kind.takesValue then some (event.step.word 2) else none := by
    have hword : event.step.operand? 2 = some (event.step.word 2) :=
      Step.operand_eq_ok_iff.mp (hoperand 2 (by omega))
    rw [Step.callValue, hword]
  simp only [enterCall, hcallee, h.callee hkind, hinput, hreturn, recordInput_fst, hvalue,
    grantedStipend, Step.openedFrame, Step.opened, Step.stipend, hcreation, Bool.false_eq_true,
    if_false, and_self]

/-- An instruction that opens a frame is accepted. -/
theorem observe_opening (h : event.step.Opens event.state kind depth) :
    (t.observe event.step event.state).tracer =
      t.push (event.step.openedFrame t.settings kind) ∧
    (t.observe event.step event.state).result = .ok () := by
  rw [t.observe_of_kind _ h.error h.instruction]
  have hexecutes := h.executes
  cases kind with
  | create | create2 => exact t.enterCreation_of_opens h rfl
  | call | callCode | delegateCall | staticCall => exact t.enterCall_of_opens h rfl
  | selfDestruct => exact absurd rfl hexecutes

end Tracer

/-! ## 2. Endings -/

namespace Ending

variable {kind : FrameKind} {opening : Step} {settings : Settings} {frame : Frame} {back : Event}

/-- A frame that has been opened by an instruction and not yet closed. -/
structure Pending (frame : Frame) (opening : Step) (settings : Settings) (kind : FrameKind) :
    Prop where
  action : frame.action = opening.opened settings kind none
  gasUsed : frame.gasUsed = none
  output : frame.output = none
  opening : frame.opening = (opening.openedFrame settings kind).opening

/-- Settled by the first step back in its caller, a pending frame becomes the frame of its script,
if its message is that of the ending. -/
theorem settle_eq (ending : Ending depth) (hback : ending.back? = some back)
    (hreturns : back.step.Returns depth) (h : Pending frame opening settings kind)
    (herror : ending.error = if back.step.word 0 = 0
      then frame.error.or (some Failure.unexplainedMessage) else frame.error) (id : FrameId) :
    (frame.settle id back.step back.state settings.paddingLimit).frame =
      ending.frame settings kind opening frame.gas frame.children ∧
    ((frame.settle id back.step back.state settings.paddingLimit).result = .ok () ↔
      ending.Answered kind) := by
  have houtcome : back.step.operand 0 = .ok (back.step.word 0) :=
    Step.operand_of_lt (List.length_pos_iff.mpr hreturns.outcome)
  have hanswered : ending.Answered kind ↔ (kind.isCreation → back.step.word 0 ≠ 0 →
      (back.state.code (Word.toAddress (back.step.word 0))).isOk) := by
    simp only [Answered, hback, Option.some.injEq, forall_eq']
  rw [hanswered]
  by_cases hkind : kind.isCreation
  · have haction := h.action
    simp only [Step.opened, if_pos hkind] at haction
    rw [Frame.settle_creation houtcome id _ _ haction,
      Frame.settle_creation_result houtcome id _ _ haction]
    refine ⟨?_, by simp only [hkind, forall_const]⟩
    simp only [Ending.frame, hback, h.gasUsed, h.output, h.opening, herror, Step.opened, if_pos hkind,
      Step.openedFrame, Option.bind_some, Option.or_none, Option.map_some]
    rfl
  · have haction := h.action
    simp only [Step.opened, if_neg hkind] at haction
    rw [Frame.settle_call houtcome id _ _ haction,
      Frame.settle_call_result houtcome id _ _ haction]
    refine ⟨?_, by simp only [hkind, Bool.false_eq_true, false_implies]⟩
    simp only [Ending.frame, hback, h.gasUsed, h.output, h.opening, herror, Step.opened, if_neg hkind,
      Step.openedFrame, Option.bind_some, Option.or_none]
    refine (Frame.mk.injEq ..).mpr ⟨haction, rfl, ?_, rfl, rfl, rfl, rfl⟩
    cases frame.gas <;> rfl

theorem pending_openedFrame (opening : Step) (settings : Settings) (kind : FrameKind)
    (gas : Option Gas) (children : List FrameId) :
    Pending ((opening.openedFrame settings kind).extend gas children) opening settings kind :=
  ⟨rfl, rfl, rfl, rfl⟩

end Ending

namespace Tracer

variable (t : Tracer) (frame : Frame)

/-- The first step back in the caller settles the frame and makes it a child. -/
theorem observe_back {back : Event} (h : back.step.Returns depth) (hcount : t.openCount = depth)
    (htop : t.top < t.forest.size) (frames : List Frame) (awaits : Bool) :
    ((t.within frame frames awaits).observe back.step back.state).tracer =
      t.grow none [t.forest.size]
        ((frame.settle t.forest.size back.step back.state t.settings.paddingLimit).frame :: frames)
        false ∧
    ((t.within frame frames awaits).observe back.step back.state).result =
      (frame.settle t.forest.size back.step back.state t.settings.paddingLimit).result := by
  have hback : back.step.depth + 1 = (t.within frame frames awaits).openCount := by
    rw [openCount_within, h.depth, hcount]
  -- The step is not one of the frame's own, so that it grants nothing.
  have hsampled : (t.within frame frames awaits).sampleAllowance back.step =
      t.within frame frames false := by
    rw [sampleAllowance_eq_grow, if_neg (by omega), grow_within, Frame.extend_none_nil,
      List.append_nil]
  have hinner : (t.within frame frames false).inner = t.forest.size :: t.inner := rfl
  rw [observe_of_plain _ _ h.plain, if_pos hback, hsampled, close_of_cons hinner,
    result_close hinner (t.get?_top_within ..), amend_within, pop_within _ _ _ _ htop]
  exact ⟨rfl, rfl⟩

/-- The step that gives back the changes of a frame may be the first one of the frame. -/
theorem observe_reverts {revert : Event} (h : revert.step.Reverts (depth + 1))
    (hcount : t.openCount = depth) (frames : List Frame) (awaits : Bool) :
    (t.within frame frames awaits).observe revert.step revert.state =
    .accepted (t.within
      (frame.extend (if awaits then some revert.step.gas else none) []).revert frames false) := by
  have hdepth : (t.within frame frames awaits).openCount ≤ revert.step.depth :=
    Nat.le_of_eq (by rw [openCount_within, h.depth, hcount])
  have hsampled : (t.within frame frames awaits).sampleAllowance revert.step =
      t.within (frame.extend (if awaits then some revert.step.gas else none) []) frames false := by
    rw [sampleAllowance_eq_grow, grow_within, List.append_nil]
    simp only [hdepth, and_true]
    rfl
  rw [observe_of_revert _ _ h.error h.opcode, hsampled, revertTop_eq]
  exact congrArg Outcome.accepted (t.amend_within ..)

/-- Reports about a frame that has failed change nothing. -/
theorem observeOn_reports {reports : List Event} (h : ∀ report ∈ reports, report.step.error.isSome)
    (hfailed : frame.failed) (frames : List Frame) (awaits : Bool) :
    (t.within frame frames awaits).observeOn reports = t.within frame frames awaits ∧
    (t.within frame frames awaits).Accepts reports := by
  induction reports with
  | nil => exact ⟨rfl, trivial⟩
  | cons report reports ih =>
    obtain ⟨ihTracer, ihAccepts⟩ := ih fun other hother => h other (List.mem_cons_of_mem _ hother)
    obtain ⟨message, hmessage⟩ := Option.isSome_iff_exists.mp (h report List.mem_cons_self)
    have hframe : ((t.within frame frames awaits).forest.get?
        (t.within frame frames awaits).top).any Frame.failed := by
      show ((t.within frame frames awaits).forest.get? t.forest.size).any Frame.failed
      rw [get?_top_within]
      exact hfailed
    have hsame : (t.within frame frames awaits).observe report.step report.state =
        .accepted (t.within frame frames awaits) := by
      rw [observe_of_error _ _ hmessage, fail_eq, if_pos hframe]
    simp only [observeOn, List.foldl_cons, Accepts, hsame]
    exact ⟨ihTracer, rfl, ihAccepts⟩

/-- A report about a frame that has not failed closes it. -/
theorem observe_fails {report : Event} {message : String} (h : report.step.error = some message)
    (hframe : frame.error = none) (htop : t.top < t.forest.size) (frames : List Frame)
    (awaits : Bool) :
    (t.within frame frames awaits).observe report.step report.state =
    .accepted (t.grow none [t.forest.size] (frame.fail message :: frames) awaits) := by
  have hnot : ¬((t.within frame frames awaits).forest.get?
      (t.within frame frames awaits).top).any Frame.failed := by
    show ¬((t.within frame frames awaits).forest.get? t.forest.size).any Frame.failed
    rw [get?_top_within]
    simp [Frame.failed, hframe]
  rw [observe_of_error _ _ h, fail_eq, if_neg hnot]
  show Outcome.accepted ((t.within frame frames awaits).amend t.forest.size _).pop = _
  rw [amend_within, pop_within _ _ _ _ htop]

end Tracer

namespace Ending

variable {t : Tracer}

/-- A frame that returns. -/
theorem replay_back (ending : Ending depth) {kind : FrameKind} {opening : Step} {frame : Frame}
    {back : Event} (hback : ending.back? = some back) (hreturns : back.step.Returns depth)
    (hpending : Pending frame opening t.settings kind)
    (herror : ending.error = if back.step.word 0 = 0
      then frame.error.or (some Failure.unexplainedMessage) else frame.error)
    (hcount : t.openCount = depth) (htop : t.top < t.forest.size) (frames : List Frame)
    (awaits : Bool) :
    (t.within frame frames awaits).observeOn [back] =
      t.grow none [t.forest.size]
        (ending.frame t.settings kind opening frame.gas frame.children :: frames) false ∧
    ((t.within frame frames awaits).Accepts [back] ↔ ending.Answered kind) := by
  obtain ⟨hframe, hanswered⟩ := ending.settle_eq hback hreturns hpending herror t.forest.size
  obtain ⟨htracer, hresult⟩ := t.observe_back frame hreturns hcount htop frames awaits
  rw [hframe] at htracer
  refine ⟨htracer, ?_⟩
  rw [← hanswered, ← hresult]
  exact and_iff_left trivial

/-- A frame that ends has become the frame of its script, and it is a child of the frame below. -/
def Replays (ending : Ending depth) : Prop :=
  ∀ t : Tracer, t.openCount = depth → t.top < t.forest.size →
  ∀ kind opening gas children frames awaits,
    (t.within ((opening.openedFrame t.settings kind).extend gas children) frames awaits).observeOn
        ending.events =
      t.grow none [t.forest.size]
        (ending.frame t.settings kind opening
          (((opening.stipend t.settings kind).or gas).or (ending.sample awaits)) children :: frames)
        (ending.awaits awaits) ∧
    ((t.within ((opening.openedFrame t.settings kind).extend gas children) frames awaits).Accepts
        ending.events ↔ ending.Answered kind)

theorem replays_returned (back : Event) (hreturns : back.step.Returns depth) :
    (returned back hreturns).Replays := by
  intro t hcount htop kind opening gas children frames awaits
  have hsample : ((opening.stipend t.settings kind).or gas).or
      ((returned back hreturns).sample awaits) = (opening.stipend t.settings kind).or gas :=
    Option.or_none
  rw [hsample]
  exact replay_back (.returned back hreturns) rfl hreturns
    (pending_openedFrame opening t.settings kind gas children) rfl hcount htop frames awaits

theorem replays_reverted (revert : Event) (repeats : List Event) (back : Event)
    (hreverts : revert.step.Reverts (depth + 1))
    (hrepeats : ∀ report ∈ repeats, report.step.Reports (depth + 1))
    (hreturns : back.step.Returns depth) :
    (reverted revert repeats back hreverts hrepeats hreturns).Replays := by
  intro t hcount htop kind opening gas children frames awaits
  have hsample : (reverted revert repeats back hreverts hrepeats hreturns).sample awaits =
      if awaits then some revert.step.gas else none := by
    cases awaits <;> rfl
  rw [hsample]
  -- The frame as it is from its failure to its return.
  let failing := (((opening.openedFrame t.settings kind).extend gas children).extend
    (if awaits then some revert.step.gas else none) []).revert
  have hpending : Pending failing opening t.settings kind := ⟨rfl, rfl, rfl, rfl⟩
  have hchildren : failing.children = children := List.append_nil _
  have hrevert := t.observe_reverts ((opening.openedFrame t.settings kind).extend gas children)
    hreverts hcount frames awaits
  obtain ⟨hrun, haccepted⟩ := Tracer.run_accepted hrevert (repeats ++ [back])
  obtain ⟨hreports, haccepts⟩ := t.observeOn_reports failing
    (fun report hreport => (hrepeats report hreport).error) rfl frames false
  -- The return adds no message of its own, whatever the outcome is.
  obtain ⟨htracer, hanswered⟩ := replay_back
    (.reverted revert repeats back hreverts hrepeats hreturns) rfl hreturns hpending
    (ite_self _).symm hcount htop frames false
  constructor
  · refine hrun.trans ?_
    show (t.within failing frames false).observeOn _ = _
    rw [Tracer.observeOn_append, hreports, htracer, hchildren]
    rfl
  · refine haccepted.trans ?_
    show (t.within failing frames false).Accepts _ ↔ _
    rw [Tracer.accepts_append, hreports, hanswered]
    exact and_iff_right haccepts

theorem replays_failed (report : Event) (message : String)
    (herror : report.step.error = some message) (hdepth : report.step.depth = depth + 1) :
    (failed report message herror hdepth : Ending depth).Replays := by
  intro t hcount htop kind opening gas children frames awaits
  have hfail := t.observe_fails ((opening.openedFrame t.settings kind).extend gas children) herror
    rfl htop frames awaits
  have hframe : ((opening.openedFrame t.settings kind).extend gas children).fail message =
      (failed report message herror hdepth).frame t.settings kind opening
        (((opening.stipend t.settings kind).or gas).or none) children := by
    rw [Option.or_none]
    exact (Frame.mk.injEq ..).mpr ⟨rfl, rfl, Option.or_none, rfl, rfl, rfl, rfl⟩
  rw [hframe] at hfail
  obtain ⟨hrun, haccepted⟩ := Tracer.run_accepted hfail []
  exact ⟨hrun, haccepted.trans (iff_of_true trivial fun _ hback => by cases hback)⟩

theorem replays (ending : Ending depth) : ending.Replays := by
  cases ending with
  | returned back hreturns => exact replays_returned back hreturns
  | reverted revert repeats back hreverts hrepeats hreturns =>
    exact replays_reverted revert repeats back hreverts hrepeats hreturns
  | failed report message herror hdepth => exact replays_failed report message herror hdepth

end Ending

/-! ## 3. Scripts -/

namespace Tracer

variable (t : Tracer) {event : Event}

theorem observe_plain (h : event.step.PlainAt depth) (hcount : t.openCount = depth) :
    t.observe event.step event.state =
    .accepted (t.grow (if t.awaitsAllowance then some event.step.gas else none) [] [] false) := by
  have hdepth : event.step.depth = t.openCount := h.depth.trans hcount.symm
  rw [observe_of_plain _ _ h.plain, if_neg (by omega), sampleAllowance_eq_grow, hdepth]
  simp only [Nat.le_refl, and_true]

/-- A call of a built-in account is passed over. -/
theorem enterCall_of_builtIn (hoperands : 2 ≤ event.step.operands.length)
    (hbuiltIn : event.state.isBuiltIn (Word.toAddress (event.step.word 1))) (kind : FrameKind) :
    t.enterCall kind event.step event.state = .accepted t := by
  have hcallee : event.step.callee = .ok (Word.toAddress (event.step.word 1)) := by
    simp only [Step.callee, Step.operand_of_lt (Nat.lt_of_succ_le hoperands)]
    rfl
  simp only [enterCall, hcallee, hbuiltIn, if_true]

theorem observe_builtIn (h : event.step.CallsBuiltIn event.state depth) :
    t.observe event.step event.state = .accepted t := by
  obtain ⟨kind, hkind, hcall⟩ := h.instruction
  rw [observe_of_kind _ _ h.error hkind]
  cases kind with
  | call | callCode | delegateCall | staticCall =>
    exact t.enterCall_of_builtIn h.operands h.builtIn _
  | create | create2 | selfDestruct => cases hcall

theorem observe_selfDestruct (h : event.step.SelfDestructs event.state depth)
    (htop : t.top < t.forest.size) :
    t.observe event.step event.state =
    .accepted (t.grow none [t.forest.size] [event.step.leaf event.state] t.awaitsAllowance) := by
  rw [observe_of_kind _ _ h.error h.instruction, ← pushLeaf_eq_grow _ _ htop]
  have hbalance := h.balance
  show t.addSelfDestruct event.step event.state = _
  simp only [addSelfDestruct, Step.operand_of_lt (Nat.lt_of_succ_le h.operands), Step.leaf]
  cases hknown : event.state.balance event.step.address with
  | ok balance => rfl
  | error e =>
    rw [hknown] at hbalance
    cases hbalance

end Tracer

namespace Script

/-- The steps of a script grow every tracer whose top is at the depth of the script, and they are
accepted if and only if all lookups are answered. -/
def Replays (script : Script depth) : Prop :=
  ∀ t : Tracer, t.openCount = depth → t.top < t.forest.size →
    t.observeOn script.events =
      t.grow (script.sample t.awaitsAllowance) (script.children t.forest.size)
        (script.frames t.settings t.forest.size) (script.awaits t.awaitsAllowance) ∧
    (t.Accepts script.events ↔ script.Answered)

/-- What is left of a script after the tracer has grown. -/
theorem Replays.after_grow {rest : Script depth} (h : rest.Replays) {t : Tracer}
    (hcount : t.openCount = depth) (htop : t.top < t.forest.size) (gas : Option Gas)
    (children : List FrameId) (frames : List Frame) (awaits : Bool) :
    (t.grow gas children frames awaits).observeOn rest.events =
      t.grow (gas.or (rest.sample awaits))
        (children ++ rest.children (t.forest.size + frames.length))
        (frames ++ rest.frames t.settings (t.forest.size + frames.length)) (rest.awaits awaits) ∧
    ((t.grow gas children frames awaits).Accepts rest.events ↔ rest.Answered) := by
  have hlt : t.top < t.forest.size + frames.length := Nat.lt_add_right _ htop
  obtain ⟨hgrown, haccepts⟩ := h (t.grow gas children frames awaits) hcount
    (by rw [Tracer.size_grow]; exact hlt)
  refine ⟨?_, haccepts⟩
  rw [hgrown, Tracer.size_grow, Tracer.grow_grow _ _ _ _ _ _ _ _ _ htop]
  rfl

/-- What happens in a frame that has just been opened. -/
theorem Replays.after_push {inside : Script (depth + 1)} (h : inside.Replays) {t : Tracer}
    (hcount : t.openCount = depth) (kind : FrameKind) (opening : Step) :
    (t.push (opening.openedFrame t.settings kind)).observeOn inside.events =
      t.within
        ((opening.openedFrame t.settings kind).extend (inside.sample true)
          (inside.children (t.forest.size + 1)))
        (inside.frames t.settings (t.forest.size + 1)) (inside.awaits true) ∧
    ((t.push (opening.openedFrame t.settings kind)).Accepts inside.events ↔ inside.Answered) := by
  have hsize : (t.push (opening.openedFrame t.settings kind)).forest.size = t.forest.size + 1 :=
    Forest.size_push ..
  obtain ⟨hgrown, hanswered⟩ := h (t.push (opening.openedFrame t.settings kind))
    (congrArg (· + 1) hcount) (by rw [hsize]; exact Nat.lt_succ_self _)
  refine ⟨?_, hanswered⟩
  rw [hgrown, hsize, Tracer.push_eq_within, Tracer.grow_within]
  rfl

/-- The frame opens, its own steps grow it, its ending hands it to the frame below, and what is left
of the script grows that one. -/
theorem Replays.frame {inside : Script (depth + 1)} {rest : Script depth} (hinside : inside.Replays)
    (hrest : rest.Replays) (kind : FrameKind) (opening : Event)
    (h : opening.step.Opens opening.state kind depth) (ending : Ending depth) :
    (Script.frame kind opening h inside ending rest).Replays := by
  intro t hcount htop
  obtain ⟨hopened, haccept⟩ := t.observe_opening h
  obtain ⟨hrun, haccepted⟩ := Tracer.run_cons hopened haccept
    (inside.events ++ (ending.events ++ rest.events))
  obtain ⟨hown, hownAnswered⟩ := hinside.after_push hcount kind opening.step
  obtain ⟨hended, hendAnswered⟩ := ending.replays t hcount htop kind opening.step
    (inside.sample true) (inside.children (t.forest.size + 1))
    (inside.frames t.settings (t.forest.size + 1)) (inside.awaits true)
  obtain ⟨hgrown, hrestAnswered⟩ := hrest.after_grow hcount htop none [t.forest.size]
    (ending.frame t.settings kind opening.step (allowance t.settings kind opening.step inside ending)
      (inside.children (t.forest.size + 1)) :: inside.frames t.settings (t.forest.size + 1))
    (ending.awaits (inside.awaits true))
  have hsize : t.forest.size + ((inside.frames t.settings (t.forest.size + 1)).length + 1) =
      t.forest.size + 1 + inside.size := by
    rw [length_frames]
    omega
  rw [List.length_cons, hsize] at hgrown
  constructor
  · refine hrun.trans ?_
    rw [Tracer.observeOn_append, Tracer.observeOn_append, hown, hended]
    exact hgrown
  · refine haccepted.trans ?_
    rw [Tracer.accepts_append, Tracer.accepts_append, hown, hended, hownAnswered, hendAnswered]
    exact and_congr_right' (and_congr_right' hrestAnswered)

theorem replays (script : Script depth) : script.Replays := by
  induction script with
  | done => exact fun t _ _ => ⟨(t.grow_none_nil _).symm, Iff.rfl⟩
  | plain event h rest ih =>
    intro t hcount htop
    obtain ⟨hrun, haccepted⟩ := Tracer.run_accepted (t.observe_plain h hcount) rest.events
    obtain ⟨hgrown, hanswered⟩ := ih.after_grow hcount htop
      (if t.awaitsAllowance then some event.step.gas else none) [] [] false
    exact ⟨hrun.trans hgrown, haccepted.trans hanswered⟩
  | builtIn event h rest ih =>
    intro t hcount htop
    obtain ⟨hrun, haccepted⟩ := Tracer.run_accepted (t.observe_builtIn h) rest.events
    obtain ⟨hgrown, hanswered⟩ := ih t hcount htop
    exact ⟨hrun.trans hgrown, haccepted.trans hanswered⟩
  | selfDestruct event h rest ih =>
    intro t hcount htop
    obtain ⟨hrun, haccepted⟩ := Tracer.run_accepted (t.observe_selfDestruct h htop) rest.events
    obtain ⟨hgrown, hanswered⟩ := ih.after_grow hcount htop none [t.forest.size]
      [event.step.leaf event.state] t.awaitsAllowance
    exact ⟨hrun.trans hgrown, haccepted.trans hanswered⟩
  | frame kind opening h inside ending rest ihInside ihRest =>
    exact ihInside.frame ihRest kind opening h ending

end Script

end CallTree
