import CallTree.Proofs.Script.Replay
import CallTree.Proofs.Tracer.Depth
import CallTree.Proofs.Tracer.Ownership

/-!
# Moves

A step or a report of failure does a few things to a tracer, one after the other. Each of them is a
`Move`, which says what is done and under which condition: the top is granted gas or gives back its
changes, a frame is opened or added, or the top returns or fails and is closed.

A host that drives a tracer through a transaction asks it for nothing else. Such operations advance
the transaction (`Operation.Advances`), and they leave its settings and its end alone.

Results:
1. `enter_inversion`: an instruction that adds a frame has found all that it needs.
2. `moves_observe`, `moves_foldl`: operations as moves.
3. `Moves.changes`, `Nested.moves`: moves are changes, so that they keep the order of ownership.
   `settings_after`: the settings are those of the beginning.
4. `exists_opens`: a step that opens a frame has found all that it needs.
-/

namespace CallTree

/-! ## 1. What an instruction finds -/

/-- A computation that does not fail begins with one that does not fail. -/
theorem exists_of_bind_eq_ok {ε α β : Type} {first : Except ε α} {next : α → Except ε β} {b : β}
    (h : first >>= next = .ok b) : ∃ a, first = .ok a ∧ next a = .ok b := by
  cases first with
  | error e => cases h
  | ok a => exact ⟨a, rfl, h⟩

namespace Step

variable {step : Step} {kind : FrameKind}

theorem lt_length_of_operand {position : Nat} {word : Word}
    (h : step.operand position = .ok word) : position < step.operands.length :=
  (List.getElem?_eq_some_iff.mp (operand_eq_ok_iff.mp h)).1

theorem word_of_operand {position : Nat} {word : Word} (h : step.operand position = .ok word) :
    step.word position = word := by
  rw [Step.word, operand?, operand_eq_ok_iff.mp h]
  rfl

theorem length_of_creationOperands {found : Word × Region}
    (h : step.creationOperands = .ok found) : 3 ≤ step.operands.length := by
  obtain ⟨value, -, h⟩ := exists_of_bind_eq_ok h
  obtain ⟨offset, -, h⟩ := exists_of_bind_eq_ok h
  obtain ⟨len, hlen, -⟩ := exists_of_bind_eq_ok h
  exact lt_length_of_operand hlen

theorem length_of_returnRegion {region : Region} (h : step.returnRegion kind = .ok region) :
    6 + kind.valueOperands ≤ step.operands.length := by
  obtain ⟨offset, -, h⟩ := exists_of_bind_eq_ok h
  obtain ⟨len, hlen, -⟩ := exists_of_bind_eq_ok h
  have hlt := lt_length_of_operand hlen
  omega

theorem eq_of_callee {recipient : Address} (h : step.callee = .ok recipient) :
    recipient = Word.toAddress (step.word 1) := by
  obtain ⟨word, hword, h⟩ := exists_of_bind_eq_ok h
  rw [word_of_operand hword]
  exact (Except.ok.inj h).symm

/-- A creation that finds its operands opens a frame. -/
theorem opens_of_creationOperands {found : Word × Region} {state : ChainState}
    (herror : step.error = none) (hkind : FrameKind.ofOpcode? step.opcode = some kind)
    (hcreation : kind.isCreation) (hfound : step.creationOperands = .ok found) :
    step.Opens state kind step.depth := by
  refine ⟨herror, hkind, ?_, ?_, fun hcall => ?_, rfl⟩
  · rintro rfl
    cases hcreation
  · rw [FrameKind.operandCount, if_pos hcreation]
    exact length_of_creationOperands hfound
  · rw [FrameKind.isCreation_eq_false hcall] at hcreation
    cases hcreation

/-- A call that finds its operands opens a frame, unless its callee is built in. -/
theorem opens_of_returnRegion {recipient : Address} {region : Region} {state : ChainState}
    (herror : step.error = none) (hkind : FrameKind.ofOpcode? step.opcode = some kind)
    (hcall : kind.isCall) (hcallee : step.callee = .ok recipient)
    (hbuiltIn : state.isBuiltIn recipient = false) (hreturn : step.returnRegion kind = .ok region) :
    step.Opens state kind step.depth := by
  refine ⟨herror, hkind, ?_, ?_, fun _ => ?_, rfl⟩
  · rintro rfl
    cases hcall
  · rw [FrameKind.operandCount, FrameKind.isCreation_eq_false hcall]
    exact length_of_returnRegion hreturn
  · rw [← eq_of_callee hcallee]
    exact hbuiltIn

theorem opened_openedFrame (step : Step) (settings : Settings) (kind : FrameKind) :
    (step.openedFrame settings kind).Opened := by
  refine ⟨rfl, ?_⟩
  simp only [openedFrame, opened]
  split <;> rfl

end Step

namespace Tracer

variable {t t' : Tracer} {step : Step} {state : ChainState} {kind : FrameKind}

section

variable (t : Tracer) (state : ChainState) (herror : step.error = none)
  (hkind : FrameKind.ofOpcode? step.opcode = some kind)
include herror hkind

theorem enterCreation_inversion (hcreation : kind.isCreation) :
    (t.enterCreation kind step).tracer = t ∨ step.Opens state kind step.depth := by
  cases hfound : step.creationOperands with
  | error e => exact .inl (by simp only [enterCreation, hfound, Outcome.refused])
  | ok found => exact .inr (Step.opens_of_creationOperands herror hkind hcreation hfound)

theorem enterCall_inversion (hcall : kind.isCall) :
    (t.enterCall kind step state).tracer = t ∨ step.Opens state kind step.depth := by
  unfold enterCall
  split
  · exact .inl rfl
  next recipient hcallee =>
  split
  · exact .inl rfl
  next hbuiltIn =>
  split
  · exact .inl rfl
  split
  · exact .inl rfl
  next returnRegion hreturn =>
    exact .inr (Step.opens_of_returnRegion herror hkind hcall hcallee
      (Bool.eq_false_iff.mpr hbuiltIn) hreturn)

omit hkind in
theorem addSelfDestruct_inversion
    (hkind : FrameKind.ofOpcode? step.opcode = some .selfDestruct) :
    (t.addSelfDestruct step state).tracer = t ∨
    (step.SelfDestructs state step.depth ∧
      (t.addSelfDestruct step state).tracer = t.pushLeaf (step.leaf state)) := by
  unfold addSelfDestruct
  split
  · exact .inl rfl
  next beneficiary hbeneficiary =>
  split
  · exact .inl rfl
  next balance hbalance =>
    refine .inr ⟨⟨herror, hkind, Step.lt_length_of_operand hbeneficiary, ?_, rfl⟩, ?_⟩
    · rw [hbalance]
      rfl
    · rw [Step.leaf, Step.word_of_operand hbeneficiary, hbalance]
      rfl

/-- An instruction that changes the tracer has found all that it needs. -/
theorem enter_inversion :
    (t.enter kind step state).tracer = t ∨ step.Opens state kind step.depth ∨
    (step.SelfDestructs state step.depth ∧
      (t.enter kind step state).tracer = t.pushLeaf (step.leaf state)) := by
  cases kind with
  | create | create2 =>
    exact (t.enterCreation_inversion state herror hkind rfl).imp_right .inl
  | call | callCode | delegateCall | staticCall =>
    exact (t.enterCall_inversion state herror hkind rfl).imp_right .inl
  | selfDestruct => exact (t.addSelfDestruct_inversion state herror hkind).imp_right .inr

end

/-! ## 2. Moves -/

/-- One thing that a step or a report of failure does to a tracer. -/
inductive Move (t : Tracer) : Tracer → Prop
  /-- No allowance is awaited any longer. -/
  | rest : Move t { t with awaitsAllowance := false }
  /-- The top is granted the gas that a step of its own shows. -/
  | grant {step : Step} : t.awaitsAllowance → t.openCount ≤ step.depth →
      Move t (t.amend t.top (Frame.grant step.gas))
  /-- The top gives back its changes. -/
  | revert : Move t (t.amend t.top Frame.revert)
  /-- An instruction opens a frame. -/
  | push {step : Step} {state : ChainState} {kind : FrameKind} :
      step.Opens state kind step.depth → Move t (t.push (step.openedFrame t.settings kind))
  /-- An account is given up. -/
  | pushLeaf {step : Step} {state : ChainState} :
      step.SelfDestructs state step.depth → Move t (t.pushLeaf (step.leaf state))
  /-- The top returns to the frame below it. -/
  | settle {step : Step} {state : ChainState} : t.inner ≠ [] → step.Plain →
      step.depth + 1 = t.openCount →
      Move t (t.amend t.top fun frame =>
        (frame.settle t.top step state t.settings.paddingLimit).frame).pop
  /-- The top fails. -/
  | fail {message : String} : (t.forest.get? t.top).any Frame.failed = false →
      Move t (t.amend t.top (Frame.fail message)).pop

/-- One tracer becomes another by moves. -/
def Moves : Tracer → Tracer → Prop :=
  Relation.ReflTransGen Move

theorem moves_fail (t : Tracer) (message : String) : Moves t (t.fail message) := by
  rw [fail_eq]
  split
  · exact .refl
  next h => exact .single (.fail (Bool.eq_false_iff.mpr h))

theorem moves_sampleAllowance (t : Tracer) (step : Step) : Moves t (t.sampleAllowance step) := by
  rw [sampleAllowance_eq]
  split
  next h => exact .tail (.single (.grant h.1 h.2)) .rest
  · exact .single .rest

theorem moves_close (t : Tracer) (state : ChainState) (h : step.Plain)
    (hdepth : step.depth + 1 = t.openCount) : Moves t (t.close step state).tracer := by
  cases hinner : t.inner with
  | nil =>
    rw [close_of_nil hinner]
    exact .refl
  | cons id rest =>
    rw [close_of_cons hinner, ← top_of_cons hinner]
    exact .single (.settle (by simp [hinner]) h hdepth)

theorem moves_observe (t : Tracer) (step : Step) (state : ChainState) :
    Moves t (t.observe step state).tracer := by
  have hsampled := t.moves_sampleAllowance step
  rcases step.sort_cases with ⟨message, h⟩ | ⟨h, kind, hkind⟩ | ⟨h, hrevert⟩ | h
  · rw [t.observe_of_error state h]
    exact t.moves_fail message
  · have hentered := t.observe_of_kind state h hkind
    rcases t.enter_inversion state h hkind with hsame | hopens | ⟨hleaf, hadded⟩
    · rw [hentered, hsame]
      exact .refl
    · obtain ⟨hpush, -⟩ := @observe_opening _ t ⟨step, state⟩ kind hopens
      rw [hpush]
      exact .single (.push hopens)
    · rw [hentered, hadded]
      exact .single (.pushLeaf hleaf)
  · rw [t.observe_of_revert state h hrevert]
    exact hsampled.tail .revert
  · rw [t.observe_of_plain state h]
    split
    next hdepth =>
      rw [← t.openCount_sampleAllowance step] at hdepth
      exact hsampled.trans (moves_close _ state h hdepth)
    · exact hsampled

/-- The operation goes on with the transaction: it takes in a step or a report of failure. -/
def Operation.Advances : Operation → Prop
  | .observe .. | .fail .. => True
  | .finish .. | .reset | .trace .. => False

theorem moves_perform (t : Tracer) {operation : Operation} (h : operation.Advances) :
    Moves t (t.perform operation) := by
  cases operation with
  | observe step state => exact t.moves_observe step state
  | fail message => exact t.moves_fail message
  | finish | reset | trace => cases h

theorem moves_foldl (t : Tracer) {operations : List Operation}
    (h : ∀ operation ∈ operations, operation.Advances) :
    Moves t (operations.foldl perform t) := by
  refine List.foldlRecOn operations perform .refl fun t' ht operation hmem => ?_
  exact ht.trans (t'.moves_perform (h operation hmem))

theorem moves_observeAll (t : Tracer) (steps : List Step) (state : ChainState) :
    Moves t (t.observeAll steps state).tracer :=
  observeAll_induction (fun step h => h.trans (moves_observe _ step state)) .refl steps

/-! ## 3. What moves keep -/

@[simp] theorem settings_pop (t : Tracer) : t.pop.settings = t.settings := by
  cases hinner : t.inner <;> simp [pop, hinner]

@[simp] theorem transaction_pop (t : Tracer) : t.pop.transaction = t.transaction := by
  cases hinner : t.inner <;> simp [pop, hinner]

theorem Move.settings (h : Move t t') : t'.settings = t.settings := by
  cases h with
  | rest | grant | revert | push | pushLeaf => rfl
  | settle | fail => exact settings_pop _

theorem Move.transaction (h : Move t t') : t'.transaction = t.transaction := by
  cases h with
  | rest | grant | revert | push | pushLeaf => rfl
  | settle | fail => exact transaction_pop _

theorem Move.changes (h : Move t t') : Changes t t' := by
  cases h with
  | rest => exact .single (.note rfl rfl)
  | grant | revert => exact .single (.amend t.top_mem_openIds ⟨fun _ => rfl, fun _ h => h⟩)
  | push => exact .single (.push (Step.opened_openedFrame ..))
  | pushLeaf => exact .single (.pushLeaf rfl)
  | settle => exact .tail (.single (.amend t.top_mem_openIds (Frame.amends_settle ..))) .pop
  | fail => exact .tail (.single (.amend t.top_mem_openIds (Frame.amends_fail _))) .pop

namespace Moves

theorem settings (h : Moves t t') : t'.settings = t.settings := by
  induction h with
  | refl => rfl
  | tail _ hmove ih => rw [hmove.settings, ih]

theorem transaction (h : Moves t t') : t'.transaction = t.transaction := by
  induction h with
  | refl => rfl
  | tail _ hmove ih => rw [hmove.transaction, ih]

theorem changes (h : Moves t t') : Changes t t' := by
  induction h with
  | refl => exact .refl
  | tail _ hmove ih => exact ih.trans hmove.changes

end Moves

/-- No operation changes the settings. -/
theorem settings_perform (t : Tracer) (operation : Operation) :
    (t.perform operation).settings = t.settings := by
  cases operation with
  | observe step state => exact (t.moves_observe step state).settings
  | fail message => exact (t.moves_fail message).settings
  | finish | reset => rfl
  | trace steps state tx =>
    have hobserved := (t.reset.moves_observeAll steps state).settings
    simp only [perform, trace]
    split <;> exact hobserved

theorem settings_after (settings : Settings) (operations : List Operation) :
    (after settings operations).settings = settings := by
  refine List.foldlRecOn (motive := fun t : Tracer => t.settings = settings) operations perform
    (b := fresh settings) rfl fun t ht operation _ => ?_
  rw [settings_perform, ht]

theorem Nested.moves (h : t.Nested) (hmoves : Moves t t') : t'.Nested :=
  h.changes hmoves.changes

/-! ## 4. Opening a frame -/

/-- A step that opens a frame has found all that it needs. -/
theorem exists_opens (h : t.opens step state) : ∃ kind, step.Opens state kind step.depth := by
  obtain ⟨hnone, kind, hkind⟩ := exists_kind_of_opens h
  have hmore : t.openCount < (t.enter kind step state).tracer.openCount := by
    rw [← t.observe_of_kind state hnone hkind]
    exact of_decide_eq_true h
  rcases t.enter_inversion state hnone hkind with hsame | hopens | ⟨-, hadded⟩
  · rw [hsame] at hmore
    exact absurd hmore (Nat.lt_irrefl _)
  · exact ⟨kind, hopens⟩
  · rw [hadded] at hmore
    exact absurd hmore (Nat.lt_irrefl t.openCount)

end Tracer

end CallTree
