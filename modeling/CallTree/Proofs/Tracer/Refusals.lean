import CallTree.Proofs.Tracer.Lifetime

/-!
# When a step is refused

A step is refused where something is missing that its instruction needs. An instruction that adds a
frame needs its operands, and a self-destruction also the balance of its account. A call of a
built-in account needs no more than the callee. A plain step that closes the top needs the outcome
on the stack, and the code of the new account if the outcome is that of a creation. Every other step
is accepted, whatever its depth, its gas and its memory are.

An instruction that is refused leaves the tracer as it was. A close that is refused is carried out
all the same, as far as it is known what became of the frame.

Results:
1. `misses_of_creationOperands`, `misses_of_callee`, `misses_of_inputRegion`,
   `misses_of_returnRegion`: a refusal names a position that the stack does not have.
2. `enter_accepted_iff`, `enter_refused`: the instructions that add a frame.
3. `Frame.settle_refused_iff`, `Frame.settle_refused`: closes.
4. `refusals_after`: every step, after any operations.
-/

namespace CallTree

theorem exists_error_iff {ε : Type} {result : Except ε Unit} :
    (∃ e, result = .error e) ↔ result ≠ .ok () := by
  cases result <;> simp

/-- A computation that fails begins with one that fails, or fails after it. -/
theorem cases_of_bind_eq_error {ε α β : Type} {first : Except ε α} {next : α → Except ε β} {e : ε}
    (h : first >>= next = .error e) : first = .error e ∨ ∃ a, first = .ok a ∧ next a = .error e := by
  cases first with
  | error =>
    cases h
    exact .inl rfl
  | ok a => exact .inr ⟨a, rfl, h⟩

/-! ## 1. Missing operands -/

namespace Step

/-- The reason of a refusal names a position of the stack where there is no word. -/
def Misses (step : Step) (e : Refusal) : Prop :=
  ∃ position, step.operands.length ≤ position ∧ e = .missingOperand step.opcode position

/-- What a call with `count` operands needs is missing. A call of a built-in account needs no more
than the callee. -/
def LacksForCall (step : Step) (state : ChainState) (count : Nat) : Prop :=
  step.operands.length < 2 ∨
  state.isBuiltIn (Word.toAddress (step.word 1)) = false ∧ step.operands.length < count

/-- What an instruction that adds a frame needs is missing. -/
def Lacks (step : Step) (state : ChainState) : FrameKind → Prop
  | .create | .create2 => step.operands.length < 3
  | .selfDestruct => step.operands = [] ∨ (state.balance step.address).isOk = false
  | .call | .callCode => step.LacksForCall state 7
  | .delegateCall | .staticCall => step.LacksForCall state 6

variable {step : Step} {kind : FrameKind} {e : Refusal}

theorem misses_of_operand {position : Nat} (h : step.operand position = .error e) :
    step.Misses e :=
  ⟨position, operand_eq_error_iff.mp h⟩

theorem misses_of_creationOperands (h : step.creationOperands = .error e) : step.Misses e := by
  rcases cases_of_bind_eq_error h with hvalue | ⟨value, -, h⟩
  · exact misses_of_operand hvalue
  rcases cases_of_bind_eq_error h with hoffset | ⟨offset, -, h⟩
  · exact misses_of_operand hoffset
  rcases cases_of_bind_eq_error h with hlen | ⟨len, -, h⟩
  · exact misses_of_operand hlen
  · cases h

theorem misses_of_callee (h : step.callee = .error e) : step.Misses e := by
  rcases cases_of_bind_eq_error h with hword | ⟨word, -, h⟩
  · exact misses_of_operand hword
  · cases h

theorem misses_of_inputRegion (h : step.inputRegion kind = .error e) : step.Misses e := by
  rcases cases_of_bind_eq_error h with hlen | ⟨len, -, h⟩
  · exact misses_of_operand hlen
  rcases cases_of_bind_eq_error h with hoffset | ⟨offset, -, h⟩
  · exact misses_of_operand hoffset
  · cases h

theorem misses_of_returnRegion (h : step.returnRegion kind = .error e) : step.Misses e := by
  rcases cases_of_bind_eq_error h with hoffset | ⟨offset, -, h⟩
  · exact misses_of_operand hoffset
  rcases cases_of_bind_eq_error h with hlen | ⟨len, -, h⟩
  · exact misses_of_operand hlen
  · cases h

theorem operand_of_word_ne_zero {position : Nat} (h : step.word position ≠ 0) :
    step.operand position = .ok (step.word position) := by
  refine operand_of_lt (Nat.lt_of_not_le fun hle => h ?_)
  rw [word, operand?, List.getElem?_eq_none hle]
  rfl

theorem length_of_callee {recipient : Address} (h : step.callee = .ok recipient) :
    2 ≤ step.operands.length := by
  obtain ⟨word, hword, -⟩ := exists_of_bind_eq_ok h
  exact lt_length_of_operand hword

theorem operandCount_of_isCall (hcall : kind.isCall) :
    kind.operandCount = 6 + kind.valueOperands := by
  rw [FrameKind.operandCount, FrameKind.isCreation_eq_false hcall]
  rfl

end Step

/-! ## 2. Instructions that add a frame -/

namespace Tracer

variable {t : Tracer} {step : Step} {state : ChainState} {kind : FrameKind} {e : Refusal}

theorem enterCreation_refused : (t.enterCreation kind step).result = .error e →
    (t.enterCreation kind step).tracer = t ∧ step.Misses e := by
  unfold enterCreation
  split
  next hfound =>
    rintro ⟨⟩
    exact ⟨rfl, Step.misses_of_creationOperands hfound⟩
  · rintro ⟨⟩

theorem enterCall_refused : (t.enterCall kind step state).result = .error e →
    (t.enterCall kind step state).tracer = t ∧ step.Misses e := by
  unfold enterCall
  split
  next hcallee =>
    rintro ⟨⟩
    exact ⟨rfl, Step.misses_of_callee hcallee⟩
  split
  · rintro ⟨⟩
  split
  next hinput =>
    rintro ⟨⟩
    exact ⟨rfl, Step.misses_of_inputRegion hinput⟩
  split
  next hreturn =>
    rintro ⟨⟩
    exact ⟨rfl, Step.misses_of_returnRegion hreturn⟩
  · rintro ⟨⟩

theorem addSelfDestruct_refused : (t.addSelfDestruct step state).result = .error e →
    (t.addSelfDestruct step state).tracer = t ∧
    (step.Misses e ∨ ∃ cause, e = .lookup cause ∧ state.balance step.address = .error cause) := by
  unfold addSelfDestruct
  split
  next hbeneficiary =>
    rintro ⟨⟩
    exact ⟨rfl, .inl (Step.misses_of_operand hbeneficiary)⟩
  split
  next cause hbalance =>
    rintro ⟨⟩
    exact ⟨rfl, .inr ⟨cause, rfl, hbalance⟩⟩
  · rintro ⟨⟩

/-- An instruction that is refused leaves the tracer as it was. It misses an operand, or the balance
of its account. -/
theorem enter_refused (h : (t.enter kind step state).result = .error e) :
    (t.enter kind step state).tracer = t ∧
    (step.Misses e ∨ kind = .selfDestruct ∧
      ∃ cause, e = .lookup cause ∧ state.balance step.address = .error cause) := by
  cases kind with
  | create | create2 => exact (enterCreation_refused h).imp_right .inl
  | call | callCode | delegateCall | staticCall => exact (enterCall_refused h).imp_right .inl
  | selfDestruct => exact (addSelfDestruct_refused h).imp_right (.imp_right fun h => ⟨rfl, h⟩)

theorem length_of_enterCreation : (t.enterCreation kind step).result = .ok () →
    3 ≤ step.operands.length := by
  unfold enterCreation
  split
  · rintro ⟨⟩
  next hfound => exact fun _ => Step.length_of_creationOperands hfound

theorem length_of_enterCall : (t.enterCall kind step state).result = .ok () →
    2 ≤ step.operands.length ∧ (state.isBuiltIn (Word.toAddress (step.word 1)) = false →
      6 + kind.valueOperands ≤ step.operands.length) := by
  unfold enterCall
  split
  · rintro ⟨⟩
  next hcallee =>
  rw [← Step.eq_of_callee hcallee]
  have hcount := Step.length_of_callee hcallee
  split
  next hbuiltIn =>
    refine fun _ => ⟨hcount, fun hnot => ?_⟩
    rw [hnot] at hbuiltIn
    cases hbuiltIn
  split
  · rintro ⟨⟩
  split
  · rintro ⟨⟩
  next hreturn => exact fun _ => ⟨hcount, fun _ => Step.length_of_returnRegion hreturn⟩

theorem addSelfDestruct_accepted_iff : (t.addSelfDestruct step state).result = .ok () ↔
    step.operands ≠ [] ∧ (state.balance step.address).isOk := by
  unfold addSelfDestruct
  split
  next e hbeneficiary =>
    have hnil : step.operands = [] :=
      List.length_eq_zero_iff.mp (Nat.le_zero.mp (Step.operand_eq_error_iff.mp hbeneficiary).1)
    exact iff_of_false (fun h => by cases h) fun h => h.1 hnil
  next beneficiary hbeneficiary =>
  have hpos := List.length_pos_iff.mp (Step.lt_length_of_operand hbeneficiary)
  split
  next cause hbalance =>
    refine iff_of_false (fun h => by cases h) fun h => ?_
    rw [hbalance] at h
    cases h.2
  next balance hbalance => exact iff_of_true rfl ⟨hpos, by rw [hbalance]; rfl⟩

theorem enterCreation_accepted_iff (herror : step.error = none)
    (hkind : FrameKind.ofOpcode? step.opcode = some kind) (hcreation : kind.isCreation) :
    (t.enterCreation kind step).result = .ok () ↔ ¬step.operands.length < 3 := by
  refine ⟨fun h => Nat.not_lt_of_le (length_of_enterCreation h), fun h => ?_⟩
  -- A creation asks the chain state nothing.
  have hopens : step.Opens .empty kind step.depth := by
    refine ⟨herror, hkind, ?_, ?_, fun hcall => ?_, rfl⟩
    · rintro rfl
      cases hcreation
    · rw [FrameKind.operandCount, if_pos hcreation]
      exact Nat.le_of_not_lt h
    · rw [FrameKind.isCreation_eq_false hcall] at hcreation
      cases hcreation
  exact (@enterCreation_of_opens _ t ⟨step, .empty⟩ kind hopens hcreation).2

theorem enterCall_accepted_iff (herror : step.error = none)
    (hkind : FrameKind.ofOpcode? step.opcode = some kind) (hcall : kind.isCall) :
    (t.enterCall kind step state).result = .ok () ↔
    ¬step.LacksForCall state kind.operandCount := by
  constructor
  · intro h hlacks
    obtain ⟨hcallee, hrest⟩ := length_of_enterCall h
    rcases hlacks with hless | ⟨hbuiltIn, hless⟩
    · exact Nat.not_lt_of_le hcallee hless
    · rw [Step.operandCount_of_isCall hcall] at hless
      exact Nat.not_lt_of_le (hrest hbuiltIn) hless
  · intro h
    rw [Step.LacksForCall, not_or, not_and] at h
    obtain ⟨hcallee, hrest⟩ := h
    cases hbuiltIn : state.isBuiltIn (Word.toAddress (step.word 1)) with
    | true =>
      exact congrArg Outcome.result
        (@enterCall_of_builtIn t ⟨step, state⟩ (Nat.le_of_not_lt hcallee) hbuiltIn kind)
    | false =>
      have hopens : step.Opens state kind step.depth := by
        refine ⟨herror, hkind, ?_, Nat.le_of_not_lt (hrest hbuiltIn), fun _ => hbuiltIn, rfl⟩
        rintro rfl
        cases hcall
      exact (@enterCall_of_opens _ t ⟨step, state⟩ kind hopens hcall).2

/-- An instruction that adds a frame is accepted exactly if it lacks nothing. -/
theorem enter_accepted_iff (herror : step.error = none)
    (hkind : FrameKind.ofOpcode? step.opcode = some kind) :
    (t.enter kind step state).result = .ok () ↔ ¬step.Lacks state kind := by
  cases kind with
  | create | create2 => exact enterCreation_accepted_iff herror hkind rfl
  | call | callCode | delegateCall | staticCall => exact enterCall_accepted_iff herror hkind rfl
  | selfDestruct =>
    refine addSelfDestruct_accepted_iff.trans ?_
    simp only [Step.Lacks, not_or, ne_eq, Bool.not_eq_false]

end Tracer

/-! ## 3. Closes -/

namespace Frame

/-- What a refused close leaves of a frame. If no outcome lies on the stack, the frame stays as it
was. Otherwise it is a creation that went well: the gas is settled and the account is known, and
only its code is not. -/
def HalfSettles (before frame : Frame) (step : Step) : Prop :=
  step.operands = [] ∧ frame = before ∨
  ∃ kind creator created init value,
    before.action = .create kind creator created init value ∧ step.word 0 ≠ 0 ∧
    frame = { before with
      action := .create kind creator (some (Word.toAddress (step.word 0))) init value
      gasUsed := (before.opening.map (·.usedByCreation step.gas)).or before.gasUsed
      opening := none }

variable {frame : Frame} {id : FrameId} {step : Step} {state : ChainState} {limit : UInt64}

/-- The close of a frame that executes code is refused exactly if no outcome lies on the stack, or a
creation went well and its code cannot be looked up. -/
theorem settle_refused_iff (hexecutes : frame.action.isSelfDestruct = false) :
    (∃ e, (frame.settle id step state limit).result = .error e) ↔
    step.operands = [] ∨ frame.action.isCreation ∧ step.word 0 ≠ 0 ∧
      (state.code (Word.toAddress (step.word 0))).isOk = false := by
  by_cases hnil : step.operands = []
  · rw [settle_of_nil hnil]
    exact iff_of_true ⟨_, rfl⟩ (.inl hnil)
  have hword := Step.operand_of_lt (List.length_pos_iff.mpr hnil)
  rw [exists_error_iff, or_iff_right hnil]
  cases haction : frame.action with
  | create kind creator created init value =>
    rw [ne_eq, settle_creation_result hword id state limit haction]
    simp [Action.isCreation]
  | call kind sender recipient input value =>
    rw [settle_call_result hword id state limit haction]
    simp [Action.isCreation]
  | selfDestruct =>
    rw [haction] at hexecutes
    cases hexecutes

theorem settleCreated_refused {kind : FrameKind} {creator : Address} {init : Bytes} {value : Word}
    {created : Address} {e : Refusal} :
    (frame.settleCreated kind creator init value created state).result = .error e →
    (∃ cause, e = .lookup cause ∧ state.code created = .error cause) ∧
    (frame.settleCreated kind creator init value created state).frame =
      { frame with action := .create kind creator (some created) init value } := by
  unfold settleCreated
  split
  · rintro ⟨⟩
  next cause hcause =>
    rintro ⟨⟩
    exact ⟨⟨cause, rfl, hcause⟩, rfl⟩

/-- A close that is refused misses the outcome or the code of a new account. -/
theorem settle_refused (hexecutes : frame.action.isSelfDestruct = false) {e : Refusal}
    (h : (frame.settle id step state limit).result = .error e) :
    (step.Misses e ∨ ∃ cause, e = .lookup cause ∧
      state.code (Word.toAddress (step.word 0)) = .error cause) ∧
    frame.HalfSettles (frame.settle id step state limit).frame step := by
  rcases (settle_refused_iff hexecutes).mp ⟨e, h⟩ with hnil | ⟨hcreation, hzero, -⟩
  · rw [settle_of_nil hnil] at h ⊢
    cases h
    exact ⟨.inl ⟨0, Nat.le_of_eq (List.length_eq_zero_iff.mpr hnil), rfl⟩, .inl ⟨hnil, rfl⟩⟩
  cases haction : frame.action with
  | create kind creator created init value =>
    have hsettled : frame.settle id step state limit =
        (frame.chargeCreation step.gas).settleCreated kind creator init value
          (Word.toAddress (step.word 0)) state := by
      simp only [settle, Step.operand_of_word_ne_zero hzero, haction, if_neg hzero]
    rw [hsettled] at h ⊢
    obtain ⟨hcause, hframe⟩ := settleCreated_refused h
    exact ⟨.inr hcause, .inr ⟨kind, creator, created, init, value, haction, hzero, hframe⟩⟩
  | call | selfDestruct =>
    rw [haction] at hcreation
    cases hcreation

end Frame

/-! ## 4. Every step -/

namespace Tracer

variable {t : Tracer} {step : Step} {state : ChainState}

/-- A step closes the top, but what became of it is not known: no outcome lies on the stack, or the
top is a creation that went well and its code cannot be looked up. -/
structure Unanswered (t : Tracer) (step : Step) (state : ChainState) : Prop
    extends t.Closes step where
  outcome : step.operands = [] ∨
    (∃ frame, t.forest.get? t.top = some frame ∧ frame.action.isCreation) ∧
      step.word 0 ≠ 0 ∧ (state.code (Word.toAddress (step.word 0))).isOk = false

/-- When a step is refused, for which reason, and what it leaves behind. -/
structure Refusals (t : Tracer) (step : Step) (state : ChainState) : Prop where
  refused_iff : (∃ e, (t.observe step state).result = .error e) ↔
    step.error = none ∧
      (∃ kind, FrameKind.ofOpcode? step.opcode = some kind ∧ step.Lacks state kind) ∨
    t.Unanswered step state
  /-- The stack has no word at the position that the reason names, or the reason is that for which
  the chain state did not answer. No step is refused for its memory. -/
  reason : ∀ e, (t.observe step state).result = .error e → step.Misses e ∨
    ∃ cause, e = .lookup cause ∧
      (FrameKind.ofOpcode? step.opcode = some .selfDestruct ∧
          state.balance step.address = .error cause ∨
        step.Plain ∧ state.code (Word.toAddress (step.word 0)) = .error cause)
  /-- An instruction that adds a frame leaves the tracer as it was. -/
  unchanged : ∀ kind e, FrameKind.ofOpcode? step.opcode = some kind →
    (t.observe step state).result = .error e → (t.observe step state).tracer = t
  /-- A close is carried out: the top becomes the last child of the frame below it. -/
  closed : ∀ e, FrameKind.ofOpcode? step.opcode = none →
    (t.observe step state).result = .error e →
    ∃ id rest before frame, t.inner = id :: rest ∧ t.forest.get? id = some before ∧
      before.HalfSettles frame step ∧
      (t.observe step state).tracer =
        { t with
          inner := rest
          forest := (t.forest.modify id fun _ => frame).addChild (topOf rest) id
          awaitsAllowance := false }

/-- A step that is accepted and neither lacks anything nor closes the top without an answer. -/
theorem refusals_of_accepted (haccepted : (t.observe step state).result = .ok ())
    (hlacks : step.error = none →
      ∀ kind, FrameKind.ofOpcode? step.opcode = some kind → ¬step.Lacks state kind)
    (hunanswered : ¬t.Unanswered step state) : t.Refusals step state := by
  have never : ∀ e, (t.observe step state).result ≠ .error e := by
    intro e h
    rw [haccepted] at h
    cases h
  refine ⟨iff_of_false (fun ⟨e, h⟩ => never e h) ?_, fun e h => absurd h (never e),
    fun _ e _ h => absurd h (never e), fun e _ h => absurd h (never e)⟩
  rintro (⟨herror, kind, hkind, h⟩ | h)
  · exact hlacks herror kind hkind h
  · exact hunanswered h

theorem refusals_of_kind {kind : FrameKind} (herror : step.error = none)
    (hkind : FrameKind.ofOpcode? step.opcode = some kind) : t.Refusals step state := by
  have hentered := t.observe_of_kind state herror hkind
  constructor
  · rw [exists_error_iff, hentered, ne_eq, enter_accepted_iff herror hkind, Classical.not_not]
    constructor
    · exact fun h => .inl ⟨herror, kind, hkind, h⟩
    · rintro (⟨-, other, hother, h⟩ | h)
      · obtain rfl : other = kind := Option.some.inj (hother.symm.trans hkind)
        exact h
      · exact absurd hkind (h.plain.adds_none kind)
  · intro e h
    rw [hentered] at h
    refine (enter_refused h).2.imp_right ?_
    rintro ⟨rfl, cause, hcause, hbalance⟩
    exact ⟨cause, hcause, .inl ⟨hkind, hbalance⟩⟩
  · intro _ e _ h
    rw [hentered] at h ⊢
    exact (enter_refused h).1
  · intro e hnone
    rw [hkind] at hnone
    cases hnone

theorem Nested.refusals_of_closes (h : t.Nested) (hcloses : t.Closes step) :
    t.Refusals step state := by
  obtain ⟨id, below, frame, hinner, hframe, hexecutes, htracer, hresult⟩ :=
    h.observe_of_closes hcloses state
  have htop := top_of_cons hinner
  have hplain := hcloses.plain
  constructor
  · rw [hresult, Frame.settle_refused_iff hexecutes]
    constructor
    · rintro (hnil | ⟨hcreation, hcode⟩)
      · exact .inr ⟨hcloses, .inl hnil⟩
      · exact .inr ⟨hcloses, .inr ⟨⟨frame, htop ▸ hframe, hcreation⟩, hcode⟩⟩
    · rintro (⟨-, kind, hkind, -⟩ | ⟨-, hnil | ⟨⟨other, hother, hcreation⟩, hcode⟩⟩)
      · exact absurd hkind (hplain.adds_none kind)
      · exact .inl hnil
      · obtain rfl : other = frame := Option.some.inj (hother.symm.trans (htop ▸ hframe))
        exact .inr ⟨hcreation, hcode⟩
  · intro e he
    rw [hresult] at he
    refine (Frame.settle_refused hexecutes he).1.imp_right ?_
    rintro ⟨cause, hcause, hcode⟩
    exact ⟨cause, hcause, .inr ⟨hplain, hcode⟩⟩
  · intro kind e hkind
    exact absurd hkind (hplain.adds_none kind)
  · intro e _ he
    rw [hresult] at he
    refine ⟨id, below, frame, _, hinner, hframe, (Frame.settle_refused hexecutes he).2, ?_⟩
    rw [htracer]
    congr 2
    exact Forest.modify_congr fun other hother => by
      rw [hframe, Option.some.injEq] at hother
      rw [hother]

theorem Nested.refusals (h : t.Nested) (step : Step) (state : ChainState) :
    t.Refusals step state := by
  rcases t.step_cases step with
    ⟨message, hsome⟩ | ⟨hnone, kind, hkind⟩ | ⟨hnone, hrevert⟩ | hcloses | ⟨hplain, hstays⟩
  · refine refusals_of_accepted (by rw [t.observe_of_error state hsome]; rfl) ?_ ?_
    · intro hnone
      rw [hsome] at hnone
      cases hnone
    · intro hunanswered
      rw [hunanswered.plain.error] at hsome
      cases hsome
  · exact refusals_of_kind hnone hkind
  · refine refusals_of_accepted (by rw [t.observe_of_revert state hnone hrevert]; rfl) ?_
      fun hunanswered => hunanswered.plain.opcode hrevert
    have hnever : FrameKind.ofOpcode? step.opcode = none := hrevert ▸ by decide
    intro _ kind hkind
    rw [hnever] at hkind
    cases hkind
  · exact h.refusals_of_closes hcloses
  · refine refusals_of_accepted (observe_of_not_closes hplain hstays state).2 ?_
      fun hunanswered => hstays hunanswered.toCloses
    exact fun _ kind hkind => absurd hkind (hplain.adds_none kind)

/-- After any operations a step is refused exactly if something that it needs is missing. An
instruction that adds a frame then leaves the tracer as it was, and a close is carried out. -/
theorem refusals_after (settings : Settings) (operations : List Operation) (step : Step)
    (state : ChainState) : (after settings operations).Refusals step state :=
  (nested_after settings operations).refusals step state

end Tracer

end CallTree
