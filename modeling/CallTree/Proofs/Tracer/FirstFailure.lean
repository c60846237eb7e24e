import CallTree.Proofs.Tracer.Allowance
import CallTree.Proofs.Tracer.Attribution
import CallTree.Proofs.Tracer.Standing

/-!
# The first message of a frame

A frame that has failed keeps the message with which it failed first. A close, a report of failure and
the end of the transaction all look whether there is a message already. The instruction that gives
back the changes of the top does not look. Above the root that makes no difference: a frame that
stays open after it has failed has given back its changes, and would only get the same message
again. But the root stays open whatever happens, and there the message is replaced.

Results:
1. `Frame.error_settle_of_failed`: a close keeps the message.
2. `errorOf_top`: the messages of open frames above the root.
3. `errorOf_observe`, `errorOf_perform_after`: the message of a frame after any operation.
4. `errorOf_revertAgain`: a root that is out of gas and gives back its changes loses its message.
-/

namespace CallTree

/-! ## 1. Closes -/

/-- A frame that has failed keeps its message when it is closed, whatever the outcome is. -/
theorem Frame.error_settle_of_failed {frame : Frame} {message : String}
    (h : frame.error = some message) (id : FrameId) (step : Step) (state : ChainState)
    (limit : UInt64) : (frame.settle id step state limit).frame.error = some message := by
  cases houtcome : step.operand 0 with
  | error e => simp only [settle, houtcome, h]
  | ok outcome =>
    cases haction : frame.action with
    | create =>
      rw [settle_creation houtcome id state limit haction]
      simp [h]
    | call =>
      rw [settle_call houtcome id state limit haction]
      simp [h]
    | selfDestruct => simp only [settle, houtcome, haction, h]

namespace Tracer

/-! ## 2. Open frames -/

/-- A frame above the root that is open has not failed, or has given back its changes. -/
theorem each_reverted (settings : Settings) (operations : List Operation) :
    (after settings operations).Each
      (fun id frame => id ≠ rootId →
        frame.error = none ∨ frame.error = some Failure.revertedMessage)
      fun _ _ => True :=
  each_after
    { root := fun hne => absurd rfl hne
      child := fun _ h => h
      grant := fun _ h => h
      revert := fun _ _ => .inr rfl
      failRoot := fun _ _ hne => absurd rfl hne
      fail := fun _ _ _ => trivial
      push := fun _ _ _ _ => .inl rfl
      leaf := fun _ => trivial }
    (fun _ _ _ _ _ => trivial) (fun _ _ hne => absurd rfl hne) settings operations

/-- The only message of a top above the root is that it has given back its changes. -/
theorem errorOf_top (settings : Settings) (operations : List Operation) {message : String}
    (hne : (after settings operations).top ≠ rootId)
    (h : (after settings operations).errorOf (after settings operations).top = some message) :
    message = Failure.revertedMessage := by
  obtain ⟨frame, hframe, herror⟩ := Option.bind_eq_some_iff.mp h
  rcases (each_reverted settings operations).opened _ (top_mem_openIds _) frame hframe hne with
    hnone | hreverted
  · cases hnone.symm.trans herror
  · exact Option.some.inj (herror.symm.trans hreverted)

/-! ## 3. Operations -/

/-- The operation takes in a step that gives back the changes of the root, above which no frame is
open. -/
def Operation.RevertsRoot (t : Tracer) : Operation → Prop
  | .observe step _ => step.error = none ∧ step.opcode = revertOpcode ∧ t.inner = []
  | .fail .. | .finish .. | .reset | .trace .. => False

instance (t : Tracer) : DecidablePred (Operation.RevertsRoot t)
  | .observe .. => inferInstanceAs (Decidable (_ ∧ _ ∧ _))
  | .fail .. | .finish .. | .reset | .trace .. => inferInstanceAs (Decidable False)

variable {t : Tracer} {step : Step} {state : ChainState} {id : FrameId} {message : String}

theorem lt_size_of_errorOf (h : t.errorOf id = some message) : id < t.forest.size := by
  obtain ⟨frame, hframe, -⟩ := Option.bind_eq_some_iff.mp h
  exact Forest.lt_size_of_get? hframe

theorem errorOf_sampleAllowance (t : Tracer) (step : Step) (id : FrameId) :
    (t.sampleAllowance step).errorOf id = t.errorOf id := by
  have hgrant : ∀ frame : Frame, (frame.grant step.gas).error = frame.error := fun _ => rfl
  rw [sampleAllowance_eq]
  split
  · exact bind_get?_amend hgrant t t.top id
  · rfl

/-- A change of one frame keeps a message that there is, if it keeps that of the frame. -/
theorem errorOf_amend_of_failed {target : FrameId} {f : Frame → Frame}
    (hf : ∀ frame : Frame, frame.error = some message → (f frame).error = some message)
    (h : t.errorOf id = some message) : (t.amend target f).errorOf id = some message := by
  obtain ⟨frame, hframe, herror⟩ := Option.bind_eq_some_iff.mp h
  rw [errorOf_amend]
  split
  · rw [hframe, Option.bind_some, hf frame herror]
  · exact h

theorem errorOf_close (h : t.errorOf id = some message) :
    (t.close step state).tracer.errorOf id = some message := by
  cases hinner : t.inner with
  | nil => rw [close_of_nil hinner, h]
  | cons last rest =>
    rw [close_of_cons hinner, errorOf_pop]
    exact errorOf_amend_of_failed (fun _ herror => Frame.error_settle_of_failed herror ..) h

/-- A report marks no frame that has failed. -/
theorem Nested.errorOf_fail_of_failed (hnested : t.Nested) (h : t.errorOf id = some message)
    (again : String) : (t.fail again).errorOf id = some message := by
  by_cases hfailed : t.errorOf t.top = none
  · rw [errorOf_fail hfailed hnested.top_lt]
    split
    next htop =>
      rw [← htop, hfailed] at h
      cases h
    · exact h
  · rw [fail_of_failed hfailed, h]

/-- A step replaces a message only by that of a frame which gives back its changes. -/
theorem Nested.errorOf_observe (hnested : t.Nested) (h : t.errorOf id = some message) (step : Step)
    (state : ChainState) :
    (t.observe step state).tracer.errorOf id =
    if (step.error = none ∧ step.opcode = revertOpcode) ∧ t.top = id then
      some Failure.revertedMessage
    else some message := by
  rcases step.sort_cases with ⟨cause, hsome⟩ | ⟨hnone, kind, hkind⟩ | ⟨hnone, hrevert⟩ | hplain
  · rw [t.observe_of_error state hsome, if_neg fun hreverts => by cases hsome.symm.trans hreverts.1.1]
    exact hnested.errorOf_fail_of_failed h cause
  · have hadds : step.opcode ≠ revertOpcode := by
      intro hrevert
      rw [hrevert] at hkind
      cases hkind
    rw [t.observe_of_kind state hnone hkind, if_neg fun hreverts => hadds hreverts.1.2, ← h]
    exact bind_get?_enter (fun _ _ => rfl) (lt_size_of_errorOf h) kind step state
  · rw [t.observe_of_revert state hnone hrevert, if_congr (and_iff_right ⟨hnone, hrevert⟩) rfl rfl]
    have hsampled := (t.errorOf_sampleAllowance step id).trans h
    have htop : (t.sampleAllowance step).top = t.top := by rw [top, top, inner_sampleAllowance]
    obtain ⟨frame, hframe, -⟩ := Option.bind_eq_some_iff.mp hsampled
    show (t.sampleAllowance step).revertTop.errorOf id = _
    rw [revertTop_eq, errorOf_amend, hframe, htop, hsampled]
    rfl
  · have hsampled := (t.errorOf_sampleAllowance step id).trans h
    have hneg : ¬((step.error = none ∧ step.opcode = revertOpcode) ∧ t.top = id) :=
      fun hreverts => hplain.opcode hreverts.1.2
    rw [t.observe_of_plain state hplain, if_neg hneg]
    split
    · exact errorOf_close hsampled
    · exact hsampled

/-- After any operations, a frame that has failed keeps its message, whatever step, report or end of
the transaction comes next and whether or not the step is accepted. The one exception is the root when
it gives back its changes: it then says so, whatever it said before. -/
theorem errorOf_perform_after (settings : Settings) (operations : List Operation)
    (operation : Operation) (hcontinues : operation.Continues) (id : FrameId) (message : String)
    (h : (after settings operations).errorOf id = some message) :
    ((after settings operations).perform operation).errorOf id =
    if operation.RevertsRoot (after settings operations) ∧ id = rootId then
      some Failure.revertedMessage
    else some message := by
  have hnested := nested_after settings operations
  have htop : (after settings operations).top ≠ rootId →
      (after settings operations).errorOf (after settings operations).top = some message →
      message = Failure.revertedMessage := errorOf_top settings operations
  generalize after settings operations = t at h hnested htop
  cases operation with
  | observe step state =>
    show (t.observe step state).tracer.errorOf id = _
    rw [hnested.errorOf_observe h]
    split
    next hreverts =>
      obtain ⟨⟨hnone, hrevert⟩, rfl⟩ := hreverts
      cases hinner : t.inner with
      | nil => rw [if_pos ⟨⟨hnone, hrevert, hinner⟩, top_of_nil hinner⟩]
      | cons last rest =>
        -- The top has given back its changes before.
        have hne : t.top ≠ rootId := top_of_cons hinner ▸ hnested.ne_root (hinner ▸ List.mem_cons_self)
        rw [htop hne h]
        exact (ite_self _).symm
    next hkeeps =>
      rw [if_neg]
      rintro ⟨⟨hnone, hrevert, hinner⟩, rfl⟩
      exact hkeeps ⟨⟨hnone, hrevert⟩, top_of_nil hinner⟩
  | fail again => exact hnested.errorOf_fail_of_failed h again
  | finish tx =>
    refine errorOf_amend_of_failed (fun frame herror => ?_) h
    rw [Frame.describe, herror]
    rfl
  | reset | trace => cases hcontinues

/-- A transaction that ends with a message. -/
def endedWith (message : String) : Transaction :=
  ⟨.call, 0, 100, 0, 100000, 100000, [], [], none, none, none, none, none, some message⟩

/-- An instruction that gives back changes cannot be executed for lack of gas. -/
def revertOutOfGas : List Operation :=
  [.observe { Step.reverting 1 100 with error := some "out of gas" } .empty]

theorem errorOf_perform_revertOutOfGas :
    (after {} revertOutOfGas).errorOf rootId = some "out of gas" ∧
    ((after {} revertOutOfGas).perform (.finish (endedWith "execution reverted"))).errorOf rootId =
      some "out of gas" := by
  have hfailed : (after {} revertOutOfGas).errorOf rootId = some "out of gas" := by decide
  refine ⟨hfailed, (errorOf_perform_after {} revertOutOfGas (.finish _) trivial rootId _ hfailed).trans
    (if_neg fun hreverts => hreverts.1)⟩

/-! ## 4. A root that loses its message -/

/-- The root is out of gas, and then it gives back its changes all the same. -/
theorem errorOf_revertAgain :
    (after {} revertOutOfGas).errorOf rootId = some "out of gas" ∧
    ((after {} revertOutOfGas).perform (.observe (.reverting 1 100) .empty)).errorOf rootId =
      some "execution reverted" := by
  decide

end Tracer

end CallTree
