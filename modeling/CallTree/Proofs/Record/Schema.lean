import CallTree.Proofs.Tracer.Records

/-!
# The form of a record

A record tells the kind of its frame more than once: by the shape of its action, by the name that
the action carries, by the type of the record and by the shape of the result. They all agree, as an
action is built for its kind when a frame is opened (`Action.Fits`), and its close changes no more
of it than the account of a creation. The root, which is opened before anything is known about it,
gets an action that fits from its transaction.

A self-destruction is never open. So no report, no return of changes and no close can reach it, and
its record has neither an error nor children.

Results:
1. `Failure.hidesResult_iff`: the messages for which a record shows no result.
2. `Frame.Executes.settle`, `Frame.executes_describe`: closes and transactions keep to the form.
3. `each_wellFormed`: each frame, throughout a run.
4. `Record.consistent_ofFrame`: the record of a frame.
5. `consistent_records`: the records of a transaction.
-/

namespace CallTree

/-! ## 1. Messages that hide the result -/

/-- The message has a label: it is one of the messages with a label of their own, or it is about an
unknown instruction. -/
def Failure.Labelled (message : String) : Prop :=
  message ∈ Failure.labels.map Prod.fst ∨ Failure.badInstructionMarker.toList <:+: message.toList

theorem Failure.hidesResult_iff {message : String} :
    (Failure.shown message).hidesResult ↔ Failure.Labelled message := by
  have hlabels : message ∈ Failure.labels.map Prod.fst ↔
      (Failure.labels.lookup message).isSome := by
    simp [List.lookup_isSome_iff]
  rw [Failure.hidesResult_shown, Failure.Labelled, hlabels, ← Failure.isBadInstruction_iff,
    Failure.label?]
  cases Failure.labels.lookup message with
  | some label => simp
  | none => cases Failure.isBadInstruction message <;> simp

/-! ## 2. Frames -/

/-- The kind of an action suits its shape, and a call has a value of its own if its kind takes
one. -/
def Action.Fits : Action → Prop
  | .call kind _ _ _ value => kind.isCall ∧ value.isSome = kind.takesValue
  | .create kind .. => kind.isCreation
  | .selfDestruct .. => True

namespace Frame

/-- The frame executes code, and what it does is in order. -/
structure Executes (frame : Frame) : Prop where
  executes : frame.action.isSelfDestruct = false
  fits : frame.action.Fits

/-- What the frame does is in order, and if it is a self-destruction, it has neither failed nor got
any children. -/
structure WellFormed (frame : Frame) : Prop where
  fits : frame.action.Fits
  leaf : frame.action.isSelfDestruct → frame.error = none ∧ frame.children = []

variable {frame : Frame}

theorem Executes.of_action (h : frame.Executes) {other : Frame}
    (haction : other.action = frame.action) : other.Executes :=
  ⟨haction ▸ h.executes, haction ▸ h.fits⟩

theorem Executes.wellFormed (h : frame.Executes) : frame.WellFormed := by
  refine ⟨h.fits, fun hleaf => ?_⟩
  rw [h.executes] at hleaf
  cases hleaf

/-- A close completes a creation by its account, and leaves any other action alone. -/
theorem Executes.settle (h : frame.Executes) (id : FrameId) (step : Step) (state : ChainState)
    (limit : UInt64) : (frame.settle id step state limit).frame.Executes := by
  refine ⟨(keeps_settle ..).executes h.executes, ?_⟩
  have hfits := h.fits
  cases houtcome : step.operand 0 with
  | error e =>
    simp only [Frame.settle, houtcome]
    exact hfits
  | ok outcome =>
    cases haction : frame.action with
    | create kind creator created init value =>
      rw [haction] at hfits
      rw [settle_creation houtcome id state limit haction]
      exact hfits
    | call kind sender recipient input value =>
      rw [settle_call houtcome id state limit haction]
      exact hfits
    | selfDestruct address beneficiary balance =>
      have hexecutes := h.executes
      rw [haction] at hexecutes
      cases hexecutes

theorem executes_describe (root : Frame) (tx : Transaction) : (root.describe tx).Executes := by
  have haction : (root.describe tx).action = tx.action := rfl
  constructor <;> rw [haction, Transaction.action] <;> split
  · rfl
  · rfl
  · exact ⟨rfl, rfl⟩
  · rfl

theorem executes_openedFrame {step : Step} {kind : FrameKind} (hexecutes : kind ≠ .selfDestruct)
    (settings : Settings) : (step.openedFrame settings kind).Executes := by
  refine ⟨(step.opened_openedFrame settings kind).executes, ?_⟩
  show (step.opened settings kind none).Fits
  rw [Step.opened]
  split
  next hcreation => exact hcreation
  next hcreation =>
    constructor
    · by_contra hcall
      exact hcreation (FrameKind.isCreation_of_executes hexecutes hcall)
    · cases kind.takesValue <;> rfl

theorem lasting_wellFormed :
    Lasting (fun id frame => id ≠ rootId → frame.Executes) (fun _ => WellFormed) where
  root hne := absurd rfl hne
  child _ h hne := (h hne).of_action rfl
  grant _ h hne := (h hne).of_action rfl
  revert h hne := (h hne).of_action rfl
  failRoot _ _ hne := absurd rfl hne
  fail _ hne h := Executes.wellFormed ((h hne).of_action rfl)
  push settings hopens _ _ := executes_openedFrame hopens.executes settings
  leaf _ := ⟨trivial, fun _ => ⟨rfl, rfl⟩⟩

end Frame

/-! ## 3. Runs -/

namespace Tracer

variable {t : Tracer}

/-- Throughout a run every frame is in order, except that nothing is known of the root. -/
theorem each_wellFormed
    (h : t.Each (fun id frame => id ≠ rootId → frame.Executes) (fun _ => Frame.WellFormed))
    (hnested : t.Nested) (events : List Event) :
    (t.observeOn events).Each (fun id frame => id ≠ rootId → frame.Executes)
      (fun _ => Frame.WellFormed) := by
  induction events generalizing t with
  | nil => exact h
  | cons event events ih =>
    obtain ⟨step, state⟩ := event
    refine ih ?_ (hnested.changes (changes_observe t step state))
    refine h.observe Frame.lasting_wellFormed hnested step state fun hcloses frame _ hopened => ?_
    -- The root may not be in order, but it is never closed.
    obtain ⟨top, below, hinner⟩ := hcloses.exists_inner_eq
    have hne : t.top ≠ rootId := by
      rw [top_of_cons hinner]
      exact hnested.ne_root (hinner ▸ List.mem_cons_self)
    exact ((hopened hne).settle ..).wellFormed

end Tracer

/-! ## 4. The record of a frame -/

theorem FrameKind.name_of_isCall : ∀ kind : FrameKind, kind.isCall →
    kind.name ∈ ["call", "callcode", "delegatecall", "staticcall"] ∧ kind.name = kind.recordType ∧
      (kind.takesValue ↔ kind.name ∈ ["call", "callcode"]) := by
  intro kind
  cases kind <;> decide

theorem FrameKind.name_of_isCreation : ∀ kind : FrameKind, kind.isCreation →
    kind.name ∈ ["create", "create2"] ∧ kind.name = kind.recordType := by
  intro kind
  cases kind <;> decide

namespace Record

/-- The action is a self-destruction. -/
def Action.isSelfDestruct : Action → Bool
  | .selfDestruct .. => true
  | .call .. | .create .. => false

/-- The name that an action carries suits its shape and is the type of its record, and a call has a
value of its own exactly if it carries one of the first two names. A self-destruction carries no
name and has a type of its own. -/
def Action.NamedAs (type : String) : Action → Prop
  | .call kind _ _ _ _ value =>
    kind.name ∈ ["call", "callcode", "delegatecall", "staticcall"] ∧ kind.name = type ∧
      (value.isSome ↔ kind.name ∈ ["call", "callcode"])
  | .create _ _ _ _ kind => kind.name ∈ ["create", "create2"] ∧ kind.name = type
  | .selfDestruct .. => type = "suicide"

/-- The result has the shape of an action. -/
def Result.Suits : Action → Result → Prop
  | .call .., .call .. => True
  | .create .., .create .. => True
  | _, _ => False

/-- The parts of a record agree with each other, with the message of a frame and with a
transaction. -/
structure Consistent (record : Record) (message : Option String) (tx : Transaction)
    (isRoot : Bool) : Prop where
  named : record.action.NamedAs record.kind.recordType
  leaf : record.action.isSelfDestruct →
    record.result = none ∧ record.error = none ∧ record.childCount = 0
  shape : ∀ result, record.result = some result → result.Suits record.action
  absent : record.result = none ↔
    record.action.isSelfDestruct ∨ ∃ text, message = some text ∧ Failure.Labelled text
  time : record.time = if isRoot then tx.time else none
  blockHash : record.blockHash = tx.blockHash
  blockNumber : record.blockNumber = tx.blockNumber
  transactionHash : record.transactionHash = tx.transactionHash
  transactionPosition : record.transactionPosition = tx.transactionPosition

variable {frame : Frame}

theorem Action.namedAs_ofFrame (h : frame.action.Fits) :
    (Action.ofFrame frame).NamedAs frame.kind.recordType := by
  rw [Frame.kind]
  cases haction : frame.action with
  | call kind sender recipient input value =>
    rw [haction] at h
    obtain ⟨hname, htype, hvalue⟩ := kind.name_of_isCall h.1
    simp only [Action.ofFrame, haction, Action.NamedAs, h.2]
    exact ⟨hname, htype, hvalue⟩
  | create kind creator created init value =>
    rw [haction] at h
    simp only [Action.ofFrame, haction, Action.NamedAs]
    exact kind.name_of_isCreation h
  | selfDestruct address beneficiary balance =>
    simp only [Action.ofFrame, haction, Action.NamedAs]
    rfl

theorem Action.isSelfDestruct_ofFrame (frame : Frame) :
    (Action.ofFrame frame).isSelfDestruct = frame.action.isSelfDestruct := by
  unfold Action.ofFrame
  cases frame.action <;> rfl

theorem Result.ofFrame?_eq_none_iff :
    Result.ofFrame? frame = none ↔ frame.action.isSelfDestruct := by
  unfold Result.ofFrame?
  cases frame.action <;> simp [CallTree.Action.isSelfDestruct]

theorem Result.suits_ofFrame? {result : Result} (h : Result.ofFrame? frame = some result) :
    result.Suits (Action.ofFrame frame) := by
  unfold Result.ofFrame? at h
  unfold Action.ofFrame
  cases haction : frame.action with
  | call | create =>
    rw [haction] at h
    cases h
    trivial
  | selfDestruct =>
    rw [haction] at h
    cases h

/-- A record shows no result for a self-destruction and for a message that hides it. -/
theorem result_ofFrame_eq_none_iff {tx : Option Transaction} {path : List Nat} {isRoot : Bool} :
    (ofFrame frame tx path isRoot).result = none ↔
    frame.action.isSelfDestruct ∨
      ∃ message, frame.error = some message ∧ Failure.Labelled message := by
  rw [← Result.ofFrame?_eq_none_iff]
  cases herror : frame.error with
  | none => simp [ofFrame, shownFailure, herror]
  | some message =>
    simp only [ofFrame, shownFailure, herror, ← Failure.hidesResult_iff]
    cases hhides : (Failure.shown message).hidesResult <;> simp [hhides]

theorem consistent_ofFrame (h : frame.WellFormed) (tx : Transaction) (path : List Nat)
    (isRoot : Bool) : (ofFrame frame (some tx) path isRoot).Consistent frame.error tx isRoot where
  named := Action.namedAs_ofFrame h.fits
  leaf hleaf := by
    have hdestroys : frame.action.isSelfDestruct := Action.isSelfDestruct_ofFrame frame ▸ hleaf
    obtain ⟨herror, hchildren⟩ := h.leaf hdestroys
    refine ⟨result_ofFrame_eq_none_iff.mpr (.inl hdestroys), ?_, ?_⟩
    · simp only [ofFrame, shownFailure, herror, Option.map_none]
    · simp only [ofFrame, hchildren, List.length_nil]
  shape result hresult := by
    simp only [ofFrame] at hresult
    split at hresult
    · cases hresult
    · exact Result.suits_ofFrame? hresult
  absent := by
    rw [result_ofFrame_eq_none_iff, ← Action.isSelfDestruct_ofFrame]
    rfl
  time := by
    cases isRoot <;> rfl
  blockHash := rfl
  blockNumber := rfl
  transactionHash := rfl
  transactionPosition := rfl

end Record

/-! ## 5. The records of a transaction -/

namespace Tracer

/-- The root has a record. Each record describes the frame in its place, and its parts agree with
each other, with the message of the frame and with the transaction. -/
structure ConsistentRecords (t : Tracer) (tx : Transaction) (records : List Record) : Prop where
  nonempty : records ≠ []
  consistent : ∀ i record, records[i]? = some record →
    ∃ frame path, t.forest.get? i = some frame ∧
      record = .ofFrame frame (some tx) path (i == rootId) ∧
      record.Consistent frame.error tx (i == rootId)

/-- Whatever steps a transaction takes in, the records that it gives are consistent. -/
theorem consistent_records (t : Tracer) (steps : List Step) (state : ChainState) (tx : Transaction)
    (records : List Record) (h : (t.trace steps state tx).result = .ok records) :
    (t.trace steps state tx).tracer.ConsistentRecords tx records := by
  have heach := each_wellFormed (.fresh Frame.lasting_wellFormed.root t.settings)
    (Nested.fresh t.settings) (steps.map (⟨·, state⟩))
  refine ⟨?_, fun i record hrecord => ?_⟩
  · obtain ⟨record, hrecord⟩ := exists_rootRecord h
    rintro rfl
    cases hrecord
  obtain ⟨frame, path, hframe, rfl, hstands⟩ := Each.exists_frame heach h hrecord
  refine ⟨frame, path, hframe, rfl, Record.consistent_ofFrame ?_ tx path _⟩
  rcases hstands with ⟨-, root, -, rfl⟩ | ⟨-, hwellFormed⟩
  · exact (root.executes_describe tx).wellFormed
  · exact hwellFormed

/-- The creation of an account. -/
def deployment : Transaction :=
  ⟨.create, 0, 7, 0, 200000, 150000, [], [1], Duration.ofParts? 1 0, none, some 9, none, some 2,
    none⟩

/-- The init code of the new account calls an account that destroys itself, and then one whose code
is no code. -/
def destroyAndFault : List Step :=
  [.emptyCall 1 100000 0,
    { opcode := FrameKind.selfDestruct.opcode, operands := [0], depth := 2 },
    .idle 1 90000 1, .emptyCall 1 80000 0,
    { opcode := 0xfe, depth := 2, error := some "invalid opcode: 0xfe" }, .idle 1 30000 0]

theorem consistent_records_destroyAndFault :
    let traced := (fresh {}).trace destroyAndFault .empty deployment
    let records := traced.tracer.records
    traced.result = .ok records ∧
    records.map (·.kind.recordType) = ["create", "call", "suicide", "call"] ∧
    records.map (·.result.isSome) = [true, true, false, false] ∧
    traced.tracer.ConsistentRecords deployment records := by
  refine ⟨rfl, by decide, by decide +kernel, consistent_records _ _ _ _ _ rfl⟩

end Tracer

end CallTree
