import CallTree.Proofs.Tracer.Moves

/-!
# What is granted to a frame

A call that takes a value and names no input is granted the stipend when it is opened. The gas of
any other frame is unknown then, and becomes known if a step shows it while the frame is the top and
its allowance is awaited.

Once the gas of a frame is known it stays the same, whatever steps and reports follow, and whether
or not the steps are accepted: a grant keeps what is known, and neither a close nor a report writes
it. Only the root is given another amount, by its transaction.

Results:
1. `Step.stipend_of_opens`: which instructions grant the stipend.
2. `KeepsGas.of_move`, `keepsGas_finish`: what is known stays, for each thing that is done to a
   tracer. `keepsGas_foldl`: for a run.
3. `allowances_after`: what is granted after any operations.
-/

namespace CallTree

/-! ## 1. The stipend -/

/-- A call that takes a value and whose input has length zero, wherever it lies. -/
def Step.GrantsStipend (step : Step) : Prop :=
  (step.opcode = FrameKind.call.opcode ∨ step.opcode = FrameKind.callCode.opcode) ∧
  step.operand? 4 = some 0

instance (step : Step) : Decidable step.GrantsStipend :=
  inferInstanceAs (Decidable (_ ∧ _))

theorem FrameKind.takesValue_iff : ∀ kind : FrameKind,
    kind.takesValue ↔ kind.opcode = call.opcode ∨ kind.opcode = callCode.opcode := by
  intro kind
  cases kind <;> decide

/-- The stipend is granted to the calls that take a value and name no input, and to no other
frame. -/
theorem Step.stipend_of_opens {step : Step} {state : ChainState} {kind : FrameKind}
    (h : step.Opens state kind step.depth) (settings : Settings) :
    step.stipend settings kind = if step.GrantsStipend then some settings.stipend else none := by
  have hopcode := FrameKind.ofOpcode?_eq_some_iff.mp h.instruction
  have hiff : (kind.takesValue && step.word (3 + kind.valueOperands) == 0) ↔ step.GrantsStipend := by
    rw [Bool.and_eq_true, beq_iff_eq, GrantsStipend, ← hopcode, ← kind.takesValue_iff]
    refine and_congr_right fun htakes => ?_
    have hvalue : kind.valueOperands = 1 := if_pos htakes
    have hcreation := FrameKind.isCreation_eq_false (kind.isCall_of_takesValue htakes)
    have hlength : 4 < step.operands.length := by
      have hoperands := h.operands
      rw [FrameKind.operandCount, hcreation, hvalue, if_neg Bool.false_ne_true] at hoperands
      omega
    rw [hvalue, operand?, operand_eq_ok_iff.mp (operand_of_lt hlength), Option.some.injEq]
  rw [stipend]
  exact if_congr hiff rfl rfl

/-! ## 2. What is known stays -/

namespace Tracer

/-- The gas granted to a frame, if it is known. -/
def gasOf (t : Tracer) (id : FrameId) : Option Gas :=
  (t.forest.get? id).bind (·.gas)

/-- If the gas of a frame is known in one tracer, it is the same in the other. -/
def KeepsGas (id : FrameId) (t t' : Tracer) : Prop :=
  ∀ gas, t.gasOf id = some gas → t'.gasOf id = some gas

/-- The operation goes on with the transaction, or takes in its end. -/
def Operation.Continues : Operation → Prop
  | .observe .. | .fail .. | .finish .. => True
  | .reset | .trace .. => False

variable {t t' : Tracer} {id : FrameId}

theorem gasOf_pop (t : Tracer) (id : FrameId) : t.pop.gasOf id = t.gasOf id :=
  bind_get?_pop (fun _ _ => rfl) t id

theorem lt_size_of_gasOf {gas : Gas} (h : t.gasOf id = some gas) : id < t.forest.size := by
  obtain ⟨frame, hframe, -⟩ := Option.bind_eq_some_iff.mp h
  exact Forest.lt_size_of_get? hframe

namespace KeepsGas

theorem refl (t : Tracer) : KeepsGas id t t :=
  fun _ h => h

theorem trans {t'' : Tracer} (h : KeepsGas id t t') (h' : KeepsGas id t' t'') :
    KeepsGas id t t'' :=
  fun gas hgas => h' gas (h gas hgas)

theorem amend {target : FrameId} {f : Frame → Frame}
    (hf : target = id → ∀ (frame : Frame) gas, frame.gas = some gas → (f frame).gas = some gas) :
    KeepsGas id t (t.amend target f) := by
  intro gas hgas
  obtain ⟨frame, hframe, hknown⟩ := Option.bind_eq_some_iff.mp hgas
  rw [gasOf, Tracer.amend, Forest.get?_modify]
  split
  next htarget => rw [hframe, Option.map_some, Option.bind_some, hf htarget frame gas hknown]
  · exact hgas

theorem pop : KeepsGas id t t.pop :=
  fun _ hgas => (t.gasOf_pop id).trans hgas

theorem push (frame : Frame) : KeepsGas id t (t.push frame) := by
  intro gas hgas
  rw [gasOf, get?_push_of_lt (lt_size_of_gasOf hgas)]
  exact hgas

theorem pushLeaf (frame : Frame) : KeepsGas id t (t.pushLeaf frame) := by
  intro gas hgas
  have hsame : (t.pushLeaf frame).gasOf id = t.gasOf id :=
    bind_get?_pushLeaf (fun _ _ => rfl) (lt_size_of_gasOf hgas) frame
  rw [hsame, hgas]

/-- Whatever a step or a report does, the gas of a frame stays what it is known to be. -/
theorem of_move (h : Move t t') : KeepsGas id t t' := by
  cases h with
  | rest => exact .refl t
  | grant =>
    -- What is granted is taken only where nothing is known.
    refine .amend fun _ frame gas hgas => ?_
    rw [Frame.grant, hgas, Option.some_or]
  | revert => exact .amend fun _ _ _ hgas => hgas
  | push => exact .push _
  | pushLeaf => exact .pushLeaf _
  | settle =>
    refine trans (amend fun _ frame gas hgas => ?_) .pop
    rw [(frame.keeps_settle ..).gas, hgas]
  | fail =>
    refine trans (amend fun _ frame gas hgas => ?_) .pop
    exact hgas

theorem of_moves (h : Moves t t') : KeepsGas id t t' := by
  induction h with
  | refl => exact .refl t
  | tail _ hmove ih => exact ih.trans (.of_move hmove)

end KeepsGas

/-- The transaction describes the root alone. -/
theorem keepsGas_finish (t : Tracer) (tx : Transaction) (hid : id ≠ rootId) :
    KeepsGas id t (t.finish tx) :=
  .amend fun hroot => absurd hroot.symm hid

theorem keepsGas_perform (t : Tracer) {operation : Operation} (h : operation.Continues)
    (hid : id ≠ rootId) : KeepsGas id t (t.perform operation) := by
  cases operation with
  | observe step state => exact .of_moves (t.moves_observe step state)
  | fail message => exact .of_moves (t.moves_fail message)
  | finish tx => exact t.keepsGas_finish tx hid
  | reset | trace => cases h

theorem keepsGas_foldl (t : Tracer) {operations : List Operation}
    (h : ∀ operation ∈ operations, operation.Continues) (hid : id ≠ rootId) :
    KeepsGas id t (operations.foldl perform t) := by
  refine List.foldlRecOn operations perform (.refl t) fun t' ht operation hmem => ?_
  exact ht.trans (t'.keepsGas_perform (h operation hmem) hid)

/-! ## 3. Any tracer -/

/-- How gas is granted by what follows a tracer. -/
structure Allowances (t : Tracer) (stipend : Gas) : Prop where
  /-- A frame that a step opens becomes the top, and its gas is unknown unless the step grants it the
  stipend. -/
  opened : ∀ step state, t.opens step state →
    (t.observe step state).tracer.top = t.forest.size ∧
    ∃ frame, (t.observe step state).tracer.forest.get? t.forest.size = some frame ∧
      frame.gas = if step.GrantsStipend then some stipend else none
  /-- The stipend is never replaced. -/
  stipend : ∀ step state (operations : List Operation), t.opens step state → step.GrantsStipend →
    (∀ operation ∈ operations, operation.Continues) →
    (operations.foldl perform (t.observe step state).tracer).gasOf t.forest.size = some stipend
  /-- No gas that is known is replaced, save that of the root. -/
  once : ∀ id gas (operations : List Operation), id ≠ rootId → t.gasOf id = some gas →
    (∀ operation ∈ operations, operation.Continues) →
    (operations.foldl perform t).gasOf id = some gas

/-- A step that opens a frame grants it the stipend or nothing. -/
theorem gas_of_opens {step : Step} {state : ChainState} (h : t.opens step state) :
    (t.observe step state).tracer.top = t.forest.size ∧
    ∃ frame, (t.observe step state).tracer.forest.get? t.forest.size = some frame ∧
      frame.gas = if step.GrantsStipend then some t.settings.stipend else none := by
  obtain ⟨kind, hopens⟩ := exists_opens h
  obtain ⟨hpush, -⟩ := @observe_opening _ t ⟨step, state⟩ kind hopens
  rw [hpush]
  refine ⟨rfl, step.openedFrame t.settings kind, ?_, Step.stipend_of_opens hopens t.settings⟩
  rw [push, Forest.get?_push, if_pos rfl]

/-- After any operations, a frame is opened with the stipend or with its gas unknown, and once it is
known the gas of a frame above the root never changes. -/
theorem allowances_after (settings : Settings) (operations : List Operation) :
    (after settings operations).Allowances settings.stipend := by
  have hsettings := settings_after settings operations
  have hnested := nested_after settings operations
  generalize after settings operations = t at hsettings hnested
  subst hsettings
  refine ⟨fun step state => gas_of_opens, fun step state later hopens hstipend hlater => ?_,
    fun id gas later hid hgas hlater => t.keepsGas_foldl hlater hid gas hgas⟩
  obtain ⟨-, frame, hframe, hgas⟩ := gas_of_opens hopens
  rw [if_pos hstipend] at hgas
  refine keepsGas_foldl _ hlater hnested.size_ne_root _ ?_
  rw [gasOf, hframe, Option.bind_some, hgas]

end Tracer

end CallTree
