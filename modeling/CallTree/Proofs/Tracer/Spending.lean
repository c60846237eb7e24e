import CallTree.Proofs.Tracer.Openings
import CallTree.Proofs.Tracer.Standing

/-!
# The gas that a frame uses

What a call used is found from amounts that different steps show: what the caller kept at the
instruction of the call, what was granted to the callee, and what the caller has after it. It is no
more than what was granted, if the caller has then at least what it kept. The sums may reach the
ends of the 64-bit numbers, where they are cut.

A frame that fails with a report has used exactly what it was granted, and nothing is known of what
it used if nothing is known of what it was granted.

Results:
1. `Frame.Settles.withinGrant`, `Frame.Unsettled.gasUsed_fail`: a call that returns, and a frame
   that fails.
2. `each_withinGrant`: the bound for each frame, throughout a run.
3. `Nested.closed_fail`: a report that closes a frame.
4. `spendsWithinGrants`: every run.
-/

namespace CallTree

/-- A call of the account 100 that hands over one byte. -/
def Step.byteCall (depth : Nat) (gas cost : Gas) : Step where
  opcode := FrameKind.call.opcode
  operands := [0, 100, 0, 0, 1, 0, 0]
  gas := gas
  cost := cost
  depth := depth

/-! ## 1. Each frame -/

namespace Frame

/-- The frame has used nothing so far, or exactly what it was granted. The first is true of every
open frame above the root, the second of a root that has failed. -/
def Unsettled (frame : Frame) : Prop :=
  frame.gasUsed = none ∨ frame.gasUsed = frame.gas

/-- The frame is not a call that has used more than it was granted. -/
def WithinGrant (frame : Frame) : Prop :=
  frame.action.isCall → ∀ granted used, frame.gas = some granted → frame.gasUsed = some used →
    used ≤ granted

variable {frame : Frame}

theorem Unsettled.withinGrant (h : frame.Unsettled) : frame.WithinGrant := by
  intro _ granted used hgas hused
  rcases h with hnone | hsame
  · rw [hnone] at hused
    cases hused
  · rw [hsame, hgas, Option.some.injEq] at hused
    rw [hused]
    exact UInt64.le_refl used

theorem Unsettled.grant (h : frame.Unsettled) (gas : Gas) : (frame.grant gas).Unsettled := by
  rcases h with hnone | hsame
  · exact .inl hnone
  cases hgas : frame.gas with
  | none => exact .inl (hsame.trans hgas)
  | some granted =>
    refine .inr (hsame.trans ?_)
    rw [Frame.grant, hgas]
    rfl

/-- A frame that fails has used what it was granted, if that is known. -/
theorem Unsettled.gasUsed_fail (h : frame.Unsettled) (message : String) :
    (frame.fail message).gasUsed = frame.gas := by
  show frame.gas.or frame.gasUsed = frame.gas
  rcases h with hnone | hsame
  · rw [hnone, Option.or_none]
  · rw [hsame, Option.or_self]

theorem Unsettled.fail (h : frame.Unsettled) (message : String) : (frame.fail message).Unsettled :=
  .inr (h.gasUsed_fail message)

/-- A call that returns has used no more than it was granted, if its caller has got back what it
kept. -/
theorem Settles.withinGrant {before : Frame} {settings : Settings} {kind : FrameKind}
    {opening : Step} {back : Event} (h : before.Settles frame settings kind opening back)
    (hexecutes : kind ≠ .selfDestruct)
    (hreturns : kind.isCall → Gas.cutSub opening.gas opening.cost ≤ back.step.gas) :
    frame.WithinGrant := by
  intro haction granted used hgas hused
  have hcall : kind.isCall := by
    by_contra hnot
    rw [h.action, Step.opened, if_pos (FrameKind.isCreation_of_executes hexecutes hnot)] at haction
    cases haction
  have hkept := UInt64.le_iff_toNat_le.mp (hreturns hcall)
  have hsum := h.callGasUsed hcall
  rw [hgas, hused, Option.map_some, Option.map_some, Option.some.injEq] at hsum
  rw [Gas.toNat_cutSub] at hkept
  rw [UInt64.le_iff_toNat_le, hsum]
  omega

theorem lasting_withinGrant : Lasting (fun _ => Unsettled) (fun _ => WithinGrant) where
  root := .inl rfl
  child _ h := h
  grant gas h := h.grant gas
  revert h := h
  failRoot message h := h.fail message
  fail message _ h := (h.fail message).withinGrant
  push _ _ _ := .inl rfl
  leaf _ := fun haction => by cases haction

end Frame

/-! ## 2. A run -/

namespace Tracer

variable {settings : Settings} {operations : List Operation}

/-- The caller of a call gets back at least the gas that it kept at the call. -/
def ReturnsGas (settings : Settings) (operations : List Operation) : Prop :=
  ∀ earlier opening kind inside back later,
    operations = earlier ++ .observe opening.step opening.state ::
      (inside ++ .observe back.step back.state :: later) →
    (after settings earlier).Lifetime kind opening inside back → kind.isCall →
    Gas.cutSub opening.step.gas opening.step.cost ≤ back.step.gas

/-- A step back in the caller settles a frame within its grant. -/
theorem withinGrant_settle {earlier later : List Operation} {step : Step} {state : ChainState}
    (hadvances : ∀ operation ∈ operations, operation.Advances)
    (hreturns : ReturnsGas settings operations)
    (hsplit : operations = earlier ++ .observe step state :: later)
    (hcloses : (after settings earlier).Closes step) {frame : Frame}
    (hframe : (after settings earlier).forest.get? (after settings earlier).top = some frame)
    (hunsettled : frame.Unsettled) :
    (frame.settle (after settings earlier).top step state
      (after settings earlier).settings.paddingLimit).frame.WithinGrant := by
  by_cases hnil : step.operands = []
  · rw [Frame.settle_of_nil hnil]
    exact hunsettled.withinGrant
  have hbefore : ∀ operation ∈ earlier, operation.Advances := fun operation hmem =>
    hadvances operation (hsplit ▸ List.mem_append_left _ hmem)
  obtain ⟨top, below, hinner⟩ := hcloses.exists_inner_eq
  have htop := top_of_cons hinner
  have hopen : top ∈ (after settings earlier).inner := hinner ▸ List.mem_cons_self
  obtain ⟨first, opening, kind, inside, hopened⟩ := exists_openedBy hbefore hopen
  have hlife : (after settings first).Lifetime kind opening inside ⟨step, state⟩ :=
    hopened.lifetime hbefore htop hcloses hnil
  obtain ⟨pending, hget, hpending⟩ := hopened.pending hbefore htop hcloses hnil
  obtain rfl : pending = frame := Option.some.inj (hget.symm.trans (htop ▸ hframe))
  obtain ⟨hsettles, -⟩ := @Frame.settles_of_pending _ _ _ _ ⟨step, state⟩ hpending hnil
    hopened.opens.executes (after settings earlier).top
  refine hsettles.withinGrant hopened.opens.executes
    (hreturns first opening kind inside ⟨step, state⟩ later ?_ hlife)
  rw [hsplit, hopened.operations, List.append_assoc, List.cons_append]

/-- Throughout a run no call has used more than it was granted. -/
theorem each_withinGrant (hadvances : ∀ operation ∈ operations, operation.Advances)
    (hreturns : ReturnsGas settings operations) {earlier later : List Operation}
    (hsplit : operations = earlier ++ later) :
    (after settings earlier).Each (fun _ => Frame.Unsettled) (fun _ => Frame.WithinGrant) := by
  induction earlier using List.reverseRecOn generalizing later with
  | nil => exact .fresh Frame.lasting_withinGrant.root settings
  | append_singleton earlier operation ih =>
    rw [List.append_assoc, List.singleton_append] at hsplit
    have hbefore := ih hsplit
    have hnested := nested_after settings earlier
    have hlast := hadvances operation (hsplit ▸ List.mem_append_right _ List.mem_cons_self)
    rw [after_concat]
    cases operation with
    | observe step state =>
      exact hbefore.observe Frame.lasting_withinGrant hnested step state fun hcloses _ =>
        withinGrant_settle hadvances hreturns hsplit hcloses
    | fail message => exact hbefore.fail Frame.lasting_withinGrant hnested message
    | finish | reset | trace => cases hlast

/-! ## 3. Reports -/

variable {t : Tracer} {id : FrameId} {message : String}

/-- The message of a report that an operation brings. -/
def Operation.message? : Operation → Option String
  | .observe step _ => step.error
  | .fail message => some message
  | .finish _ | .reset | .trace .. => none

theorem perform_of_message {operation : Operation} (h : operation.message? = some message)
    (t : Tracer) : t.perform operation = t.fail message := by
  cases operation with
  | observe step state =>
    show (t.observe step state).tracer = _
    rw [t.observe_of_error state h]
    rfl
  | fail other =>
    obtain rfl : other = message := Option.some.inj h
    rfl
  | finish | reset | trace => cases h

/-- A frame that a report closes is the top. It has failed, and it is a child from then on. -/
theorem Nested.closed_fail (h : t.Nested) (hopen : id ∈ t.inner)
    (hclosed : id ∉ (t.fail message).inner) :
    (t.fail message).Closed id ∧
    ∃ before, t.forest.get? id = some before ∧
      (t.fail message).forest.get? id = some (before.fail message) := by
  rw [fail_eq] at hclosed ⊢
  split at hclosed
  next => exact absurd hopen hclosed
  next hfailed =>
  rw [if_neg hfailed]
  obtain ⟨top, below, hinner⟩ := List.exists_cons_of_ne_nil (List.ne_nil_of_mem hopen)
  have htop := top_of_cons hinner
  obtain rfl : id = top := by
    rw [inner_pop] at hclosed
    rw [hinner] at hopen
    refine (List.mem_cons.mp hopen).resolve_right fun hbelow => hclosed ?_
    rwa [Tracer.amend, hinner, List.tail_cons]
  obtain ⟨⟨before, hbefore, -⟩, -⟩ := h.guarded.closing id below hinner
  have hne : topOf below ≠ id := by
    obtain ⟨others, hbelow, -⟩ := openIds_of_cons hinner
    rintro rfl
    exact h.not_mem_below hinner (hbelow ▸ List.mem_cons_self)
  refine ⟨htop ▸ h.closed_pop (List.ne_nil_of_mem hopen) _, before, hbefore, ?_⟩
  simp only [Tracer.pop, Tracer.amend, hinner, Forest.addChild, Forest.get?_modify, if_neg hne, htop,
    if_true, hbefore, Option.map_some]

/-! ## 4. Every run -/

/-- What the frames of a transaction have used when it is over. -/
structure SpendsWithinGrants (settings : Settings) (operations : List Operation) (tx : Transaction) :
    Prop where
  calls : ∀ id frame, ((after settings operations).finish tx).forest.get? id = some frame →
    frame.action.isCall → ∀ granted used, frame.gas = some granted → frame.gasUsed = some used →
      used ≤ granted
  /-- A frame above the root that a report has closed. -/
  reports : ∀ earlier operation later message id,
    operations = earlier ++ operation :: later → operation.message? = some message →
    id ∈ (after settings earlier).inner → id ∉ (after settings (earlier ++ [operation])).inner →
    ∃ before frame, (after settings earlier).forest.get? id = some before ∧
      ((after settings operations).finish tx).forest.get? id = some frame ∧
      frame.error = some message ∧ frame.gas = before.gas ∧ frame.gasUsed = frame.gas

theorem withinGrant_finish (h : t.Each (fun _ => Frame.Unsettled) (fun _ => Frame.WithinGrant))
    {tx : Transaction} (htx : tx.gasUsed ≤ tx.gas) {frame : Frame}
    (hframe : (t.finish tx).forest.get? id = some frame) : frame.WithinGrant := by
  rw [finish, Forest.get?_modify] at hframe
  split at hframe
  next =>
    obtain ⟨before, -, rfl⟩ := Option.map_eq_some_iff.mp hframe
    intro _ granted used hgas hused
    cases hgas
    cases hused
    exact htx
  next =>
    by_cases hopen : id ∈ t.openIds
    · exact (h.opened id hopen frame hframe).withinGrant
    · exact h.closed id hopen frame hframe

/-- When a transaction is over, no call has used more than it was granted, if the transaction itself
has not and if each caller of a call got back at least the gas that it kept. A frame that a report
has closed has used what it was granted, as far as that is known. The host may go on after steps
that are refused. -/
theorem spendsWithinGrants (settings : Settings) (operations : List Operation) (tx : Transaction)
    (hadvances : ∀ operation ∈ operations, operation.Advances)
    (hreturns : ReturnsGas settings operations) (htx : tx.gasUsed ≤ tx.gas) :
    SpendsWithinGrants settings operations tx := by
  have heach := fun earlier later (hsplit : operations = earlier ++ later) =>
    each_withinGrant hadvances hreturns hsplit
  refine ⟨fun id frame hframe => ?_, ?_⟩
  · exact withinGrant_finish (heach operations [] (List.append_nil _).symm) htx hframe
  · intro earlier operation later message id hsplit hmessage hopen hclosed
    rw [after_concat, perform_of_message hmessage] at hclosed
    obtain ⟨hfinal, before, hbefore, hfailed⟩ :=
      (nested_after settings earlier).closed_fail hopen hclosed
    have hunsettled :=
      (heach earlier _ hsplit).opened id (List.mem_append_left _ hopen) before hbefore
    have hrest : Changes ((after settings earlier).fail message)
        ((after settings operations).finish tx) := by
      have hafter : after settings operations =
          later.foldl perform ((after settings earlier).fail message) := by
        rw [hsplit, after, List.foldl_append, List.foldl_cons, ← after, perform_of_message hmessage]
      have hlater : ∀ other ∈ later, other.Advances := fun other hother =>
        hadvances other (hsplit ▸ List.mem_append_right _ (List.mem_cons_of_mem _ hother))
      rw [hafter]
      exact (moves_foldl _ hlater).changes.trans (changes_finish _ tx)
    refine ⟨before, before.fail message, hbefore, ?_, rfl, rfl, hunsettled.gasUsed_fail message⟩
    rw [(hrest.final hfinal).2, hfailed]

/-- A callee that is granted 50000 calls an account that fails, and returns. -/
def callAndFail : List Operation :=
  [.observe (.byteCall 1 100000 60000) .empty, .observe (.idle 2 50000 0) .empty,
    .observe (.byteCall 2 49000 30000) .empty, .fail "out of gas",
    .observe (.idle 1 45000 1) .empty]

/-- No caller keeps more than 40000, and no step shows less. -/
theorem returnsGas_callAndFail : ReturnsGas {} callAndFail := by
  have shown : ∀ step state, .observe step state ∈ callAndFail →
      (FrameKind.ofOpcode? step.opcode ≠ none → Gas.cutSub step.gas step.cost ≤ 40000) ∧
      40000 ≤ step.gas := by
    intro step state hmem
    simp only [callAndFail, List.mem_cons, Operation.observe.injEq, List.not_mem_nil, or_false,
      reduceCtorEq, false_or] at hmem
    rcases hmem with ⟨rfl, -⟩ | ⟨rfl, -⟩ | ⟨rfl, -⟩ | ⟨rfl, -⟩ <;> decide
  intro earlier opening kind inside back later hsplit hlife _
  have hopening : .observe opening.step opening.state ∈ callAndFail := by
    simp [hsplit]
  have hback : .observe back.step back.state ∈ callAndFail := by
    simp [hsplit]
  refine UInt64.le_trans ((shown _ _ hopening).1 ?_) (shown _ _ hback).2
  simp [hlife.instruction]

theorem spendsWithinGrants_callAndFail :
    (((after {} callAndFail).forest.get? 1).map fun frame => (frame.gas, frame.gasUsed)) =
      some (some 50000, some 45000) ∧
    SpendsWithinGrants {} callAndFail
      ⟨.call, 0, 0, 0, 160000, 115000, [], [], none, none, none, none, none, none⟩ := by
  refine ⟨by decide, spendsWithinGrants {} callAndFail _ ?_ returnsGas_callAndFail (by decide)⟩
  simp [callAndFail, Operation.Advances]

end Tracer

end CallTree
