import CallTree.Proofs.Record.Schema
import CallTree.Proofs.Tracer.Attribution

/-!
# What the records of failed frames conceal

Nothing comes of a frame before its close: an open frame has no output, and an open creation has no
account. A report of failure leaves it at that, and so does a close that finds a zero on top of the
stack. Only a frame that gave back its changes and of which the caller is told that it succeeded
would have a message and an output, too (`SeesFailures` rules that out).

The root of a transaction that gave back its changes retains the output. Its message is one of those
that hide the result, so the record shows none of it.

Results:
1. `Frame.Bare.settle`: a close of a frame that has failed.
2. `each_bare`: each frame, throughout a run.
3. `Record.bytes?_ofFrame`, `Record.address?_ofFrame`, `Record.result_describe`: the record of a
   frame.
4. `conceals_records`: the records of a transaction.
-/

namespace CallTree

/-- The account that a creation has made. -/
def Action.created? : Action → Option Address
  | .create _ _ created _ _ => created
  | .call .. | .selfDestruct .. => none

/-! ## 1. A frame -/

namespace Frame

/-- Nothing has come of the frame. -/
structure Bare (frame : Frame) : Prop where
  output : frame.output = none
  created : frame.action.created? = none

variable {frame : Frame}

/-- A frame of which nothing has come is as bare after its close, if it has failed by then. -/
theorem Bare.settle (h : frame.Bare) {step : Step}
    (hzero : frame.error ≠ none → step.operands.head? = some 0) (id : FrameId) (state : ChainState)
    (limit : UInt64) (hfailed : (frame.settle id step state limit).frame.error ≠ none) :
    (frame.settle id step state limit).frame.Bare := by
  cases houtcome : step.operand 0 with
  | error e =>
    have hsame : (frame.settle id step state limit).frame = frame := by
      simp only [Frame.settle, houtcome]
    exact hsame.symm ▸ h
  | ok outcome =>
    by_cases hfailure : outcome = 0
    · subst hfailure
      obtain ⟨haction, houtput⟩ := settle_of_zero houtcome frame id state limit
      exact ⟨houtput.trans h.output, haction ▸ h.created⟩
    -- A frame that is said to have succeeded carries no message before its close, nor after it.
    · rw [error_settle_of_ne_zero houtcome id state limit hfailure] at hfailed
      have hzero := hzero hfailed
      rw [List.head?_eq_getElem?, Step.operand_eq_ok_iff.mp houtcome] at hzero
      exact absurd (Option.some.inj hzero) hfailure

theorem lasting_bare :
    Lasting (fun _ => Bare) (fun _ frame => frame.error ≠ none → frame.Bare) where
  root := ⟨rfl, rfl⟩
  child _ h := ⟨h.output, h.created⟩
  grant _ h := ⟨h.output, h.created⟩
  revert h := ⟨h.output, h.created⟩
  failRoot _ h := ⟨h.output, h.created⟩
  fail _ _ h := fun _ => ⟨h.output, h.created⟩
  push {_ step _ kind} settings _ _ := by
    refine ⟨rfl, ?_⟩
    show (step.opened settings kind none).created? = none
    unfold Step.opened
    split <;> rfl
  leaf _ := fun hfailed => absurd rfl hfailed

end Frame

/-! ## 2. A run -/

namespace Tracer

variable {t : Tracer}

/-- Each step that closes a frame that has failed before finds a zero on top of the stack. -/
def SeesFailures (t : Tracer) : List Event → Prop
  | [] => True
  | ⟨step, state⟩ :: events =>
    ((t.observe step state).tracer.openCount < t.openCount → t.errorOf t.top ≠ none →
      step.operands.head? = some 0) ∧
    SeesFailures (t.observe step state).tracer events

instance decidableSeesFailures (t : Tracer) :
    (events : List Event) → Decidable (t.SeesFailures events)
  | [] => .isTrue trivial
  | ⟨step, state⟩ :: events =>
    have := decidableSeesFailures (t.observe step state).tracer events
    inferInstanceAs (Decidable (_ ∧ _))

theorem Nested.openCount_of_closes (h : t.Nested) {step : Step} (hcloses : t.Closes step)
    (state : ChainState) : (t.observe step state).tracer.openCount < t.openCount := by
  obtain ⟨id, below, frame, hinner, -, -, htracer, -⟩ := h.observe_of_closes hcloses state
  rw [htracer, openCount, openCount, hinner]
  exact Nat.lt_succ_self _

/-- Throughout a run nothing has come of the open frames or of those that have failed. -/
theorem each_bare (h : t.Each (fun _ => Frame.Bare) fun _ frame => frame.error ≠ none → frame.Bare)
    (hnested : t.Nested) {events : List Event} (hsees : t.SeesFailures events) :
    (t.observeOn events).Each (fun _ => Frame.Bare) fun _ frame =>
      frame.error ≠ none → frame.Bare := by
  induction events generalizing t with
  | nil => exact h
  | cons event events ih =>
    obtain ⟨step, state⟩ := event
    refine ih ?_ (hnested.changes (changes_observe t step state)) hsees.2
    refine h.observe Frame.lasting_bare hnested step state fun hcloses frame hframe hbare => ?_
    refine hbare.settle (fun herror => hsees.1 (hnested.openCount_of_closes hcloses state) ?_) _ _ _
    rwa [errorOf, hframe]

end Tracer

/-! ## 3. The record of a frame -/

namespace Record

/-- The output of a call or the code of a creation, as far as a result shows it. -/
def Result.bytes? : Result → Option Bytes
  | .call _ output => output
  | .create _ _ code => code

/-- The account of a creation, as far as a result shows it. -/
def Result.address? : Result → Option Address
  | .call .. => none
  | .create _ address _ => address

variable {frame : Frame} {tx : Option Transaction} {path : List Nat} {isRoot : Bool}

theorem error_ofFrame_eq_none_iff :
    (ofFrame frame tx path isRoot).error = none ↔ frame.error = none := by
  simp only [ofFrame, shownFailure, Option.map_eq_none_iff]

theorem bytes?_ofFrame (h : frame.output = none) :
    (ofFrame frame tx path isRoot).result.bind Result.bytes? = none := by
  simp only [ofFrame, Result.ofFrame?]
  split
  · rfl
  · cases frame.action with
    | call | create => exact h
    | selfDestruct => rfl

theorem address?_ofFrame (h : frame.action.created? = none) :
    (ofFrame frame tx path isRoot).result.bind Result.address? = none := by
  simp only [ofFrame, Result.ofFrame?]
  split
  · rfl
  · cases haction : frame.action with
    | create => rwa [haction] at h
    | call | selfDestruct => rfl

/-- A root that failed and retains an output has a record without a result. -/
theorem result_describe {root : Frame} {tx : Transaction}
    (hfailed : (root.describe tx).error ≠ none) (houtput : (root.describe tx).output ≠ none)
    (shown : Option Transaction) (path : List Nat) (isRoot : Bool) :
    (ofFrame (root.describe tx) shown path isRoot).result = none := by
  obtain ⟨message, hmessage⟩ := Option.ne_none_iff_exists'.mp hfailed
  have hretains : Failure.retainsOutput (some message) tx.output := by
    rw [← hmessage]
    by_contra hdrops
    exact houtput (if_neg hdrops)
  have hhides := Failure.hidesResult_iff.mp (Failure.hidesResult_of_retainsOutput hretains)
  exact result_ofFrame_eq_none_iff.mpr (.inr ⟨message, hmessage, hhides⟩)

theorem bytes?_describe {root : Frame} {tx : Transaction}
    (hfailed : (root.describe tx).error ≠ none) (shown : Option Transaction) (path : List Nat)
    (isRoot : Bool) :
    (ofFrame (root.describe tx) shown path isRoot).result.bind Result.bytes? = none := by
  cases houtput : (root.describe tx).output with
  | none => exact bytes?_ofFrame houtput
  | some output =>
    rw [result_describe hfailed (houtput ▸ Option.some_ne_none output)]
    rfl

end Record

/-! ## 4. The records of a transaction -/

namespace Tracer

/-- The records of the frames that failed show nothing that came of them: no output, no code, and
above the root no new account. This holds of a root, too, that has retained its output. -/
structure Conceals (t : Tracer) (records : List Record) : Prop where
  bytes : ∀ record ∈ records, record.error ≠ none → record.result.bind Record.Result.bytes? = none
  address : ∀ i record, records[i]? = some record → i ≠ rootId → record.error ≠ none →
    record.result.bind Record.Result.address? = none
  root : ∀ root, t.forest.root? = some root → root.error ≠ none → root.output ≠ none →
    ∃ record, records[rootId]? = some record ∧ record.error ≠ none ∧ record.result = none

/-- The records that a transaction gives conceal what came of failed frames, if the machine tells
the caller of each frame that gave back its changes that it failed. -/
theorem conceals_records (t : Tracer) (steps : List Step) (state : ChainState) (tx : Transaction)
    (records : List Record) (hsees : t.reset.SeesFailures (steps.map (⟨·, state⟩)))
    (h : (t.trace steps state tx).result = .ok records) :
    (t.trace steps state tx).tracer.Conceals records := by
  have heach : (t.taken steps state).Each (fun _ => Frame.Bare) fun _ frame =>
      frame.error ≠ none → frame.Bare :=
    each_bare (.fresh Frame.lasting_bare.root t.settings) (Nested.fresh t.settings) hsees
  refine ⟨fun record hmem hfailed => ?_, fun i record hrecord hne hfailed => ?_,
    fun root hroot hfailed houtput => ?_⟩
  · obtain ⟨i, hrecord⟩ := List.getElem?_of_mem hmem
    obtain ⟨frame, path, -, rfl, hstands⟩ := heach.exists_frame h hrecord
    rw [ne_eq, Record.error_ofFrame_eq_none_iff] at hfailed
    rcases hstands with ⟨-, root, -, rfl⟩ | ⟨-, hbare⟩
    · exact Record.bytes?_describe hfailed ..
    · exact Record.bytes?_ofFrame (hbare hfailed).output
  · obtain ⟨frame, path, -, rfl, hstands⟩ := heach.exists_frame h hrecord
    rw [ne_eq, Record.error_ofFrame_eq_none_iff] at hfailed
    rcases hstands with ⟨hroot, -⟩ | ⟨-, hbare⟩
    · exact absurd hroot hne
    · exact Record.address?_ofFrame (hbare hfailed).created
  · obtain ⟨record, hrecord⟩ := exists_rootRecord h
    obtain ⟨frame, path, hframe, rfl, hstands⟩ := heach.exists_frame h hrecord
    obtain rfl : frame = root := Option.some.inj (hframe.symm.trans hroot)
    refine ⟨_, hrecord, ?_, ?_⟩
    · rwa [ne_eq, Record.error_ofFrame_eq_none_iff]
    · rcases hstands with ⟨-, before, -, rfl⟩ | ⟨hne, -⟩
      · exact Record.result_describe hfailed houtput ..
      · exact absurd rfl hne

/-- One callee gives back its changes, another one fails with a message that has no label, and then
the transaction gives back its changes with an output. -/
def revertAfterFailures : List Step :=
  [.emptyCall 1 100000 0, .reverting 2 50000, .idle 1 90000 0, .emptyCall 1 80000 0,
    .faulty 2 "stack limit reached", .idle 1 30000 0, .reverting 1 20000]

/-- A transaction that gave back its changes, with an output. -/
def revertedTransaction : Transaction :=
  ⟨.call, 0, 7, 0, 200000, 150000, [], [1, 2], none, none, none, none, none,
    some Failure.revertedMessage⟩

theorem conceals_records_revertAfterFailures :
    let traced := (fresh {}).trace revertAfterFailures .empty revertedTransaction
    let records := traced.tracer.records
    (fresh {}).SeesFailures (revertAfterFailures.map (⟨·, .empty⟩)) ∧
    traced.result = .ok records ∧
    records.map (·.error) = [some "Reverted", some "Reverted", some "stack limit reached"] ∧
    (traced.tracer.forest.root?.bind (·.output)) = some [1, 2] ∧
    traced.tracer.Conceals records := by
  refine ⟨by decide, rfl, by decide +kernel, by decide, ?_⟩
  exact conceals_records (fresh {}) revertAfterFailures .empty revertedTransaction _ (by decide) rfl

end Tracer

end CallTree
