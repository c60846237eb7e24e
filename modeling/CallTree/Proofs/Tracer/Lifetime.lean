import CallTree.Proofs.Tracer.Finality

/-!
# The life of a frame

From the instruction that opens a frame to the first step back in its caller anything may happen:
steps that are accepted and steps that are refused, frames that open, return and fail, and changes
given back. None of it touches what the opening instruction left to be settled (`Ending.Pending`),
nor the frames below, so that the frame is settled by the two steps at its ends alone. Its gas, its
message and its children come from the steps between.

Results:
1. `Carries.moves`: a frame stays pending until it is closed, above the same frames.
2. `Frame.settles_call`, `Frame.settles_creation`: what a step back makes of a pending frame.
3. `step_cases`, `Nested.observe_of_closes`: the steps that close the top.
   `returns_of_lifetime`: a frame that is opened and closed after any operations.
-/

namespace CallTree

open Ending (Pending)

/-- The frame `frame` is what the step `back` makes of the frame `before`, which was opened by
`opening`. -/
structure Frame.Settles (before frame : Frame) (settings : Settings) (kind : FrameKind)
    (opening : Step) (back : Event) : Prop where
  action : frame.action = opening.opened settings kind
    (if back.step.word 0 = 0 then none else some (Word.toAddress (back.step.word 0)))
  gas : frame.gas = before.gas
  creationGasUsed : kind.isCreation → frame.gasUsed.map UInt64.toNat =
    some (opening.gas.toNat - opening.cost.toNat - back.step.gas.toNat)
  callGasUsed : kind.isCall → frame.gasUsed.map UInt64.toNat = frame.gas.map fun granted =>
    min (UInt64.size - 1) (opening.gas.toNat - opening.cost.toNat + granted.toNat) -
      back.step.gas.toNat
  creationOutput : kind.isCreation → frame.output = if back.step.word 0 = 0 then none
    else (back.state.code (Word.toAddress (back.step.word 0))).toOption
  callOutput : kind.isCall → frame.output = if back.step.word 0 = 0 then none
    else ((opening.outputRegion kind).read back.step.memory settings.paddingLimit).toOption
  error : frame.error = if back.step.word 0 = 0
    then before.error.or (some Failure.unexplainedMessage) else before.error
  children : frame.children = before.children
  opening : frame.opening = none

namespace Tracer

/-- A frame that an instruction of a kind opened above the frames `below` is open and pending. -/
structure Carries (t : Tracer) (id : FrameId) (below : List FrameId) (opening : Step)
    (kind : FrameKind) : Prop where
  inner : ∃ above, t.inner = above ++ id :: below
  pending : ∃ frame, t.forest.get? id = some frame ∧ Pending frame opening t.settings kind

variable {t t' : Tracer} {id : FrameId} {below : List FrameId} {opening : Step} {kind : FrameKind}

/-! ## 1. While a frame is open -/

namespace Carries

theorem mem_openIds (h : t.Carries id below opening kind) : id ∈ t.openIds := by
  obtain ⟨above, hinner⟩ := h.inner
  rw [openIds, hinner]
  simp

/-- A change of a frame in place leaves alone the other frames, and it may leave a pending frame
pending. -/
theorem amend (h : t.Carries id below opening kind) {target : FrameId} {f : Frame → Frame}
    (hf : target = id → ∀ frame, Pending frame opening t.settings kind →
      Pending (f frame) opening t.settings kind) :
    (t.amend target f).Carries id below opening kind := by
  obtain ⟨frame, hframe, hpending⟩ := h.pending
  refine ⟨h.inner, ?_⟩
  rw [Tracer.amend, Forest.get?_modify]
  split
  next htarget => exact ⟨f frame, by rw [hframe, Option.map_some], hf htarget frame hpending⟩
  · exact ⟨frame, hframe, hpending⟩

theorem push (h : t.Carries id below opening kind) (hid : id < t.forest.size) (frame : Frame) :
    (t.push frame).Carries id below opening kind := by
  obtain ⟨above, hinner⟩ := h.inner
  refine ⟨⟨t.forest.size :: above, ?_⟩, ?_⟩
  · rw [Tracer.push, hinner, List.cons_append]
  · rw [Tracer.push, Forest.get?_push, if_neg (Nat.ne_of_lt hid)]
    exact h.pending

theorem pushLeaf (h : t.Carries id below opening kind) (hid : id < t.forest.size)
    (frame : Frame) : (t.pushLeaf frame).Carries id below opening kind := by
  obtain ⟨pending, hframe, hpending⟩ := h.pending
  refine ⟨h.inner, ?_⟩
  rw [Tracer.pushLeaf, Forest.addChild, Forest.get?_modify, Forest.get?_push,
    if_neg (Nat.ne_of_lt hid), hframe]
  split
  · exact ⟨_, rfl, hpending.action, hpending.gasUsed, hpending.output, hpending.opening⟩
  · exact ⟨pending, rfl, hpending⟩

/-- The top closes, which is another frame. -/
theorem pop (h : t.Carries id below opening kind) (htop : t.top ≠ id) :
    t.pop.Carries id below opening kind := by
  obtain ⟨above, hinner⟩ := h.inner
  obtain ⟨frame, hframe, hpending⟩ := h.pending
  cases above with
  | nil => exact absurd (top_of_cons hinner) htop
  | cons last above =>
    refine ⟨⟨above, by rw [inner_pop, hinner, List.cons_append, List.tail_cons]⟩, ?_⟩
    rw [settings_pop]
    simp only [Tracer.pop, hinner, List.cons_append, Forest.addChild, Forest.get?_modify, hframe]
    split
    · exact ⟨_, rfl, hpending.action, hpending.gasUsed, hpending.output, hpending.opening⟩
    · exact ⟨frame, rfl, hpending⟩

end Carries

/-- The top is closed by a close. -/
theorem Nested.closed_pop (h : t.Nested) (hinner : t.inner ≠ []) (f : Frame → Frame) :
    (t.amend t.top f).pop.Closed t.top := by
  obtain ⟨last, rest, hcons⟩ := List.exists_cons_of_ne_nil hinner
  have hlt := h.top_lt
  have hpop : (t.amend t.top f).pop =
      { t with
        inner := rest
        forest := (t.forest.modify t.top f).addChild (topOf rest) last } := by
    simp only [Tracer.pop, Tracer.amend, hcons]
  rw [hpop]
  constructor
  · rwa [Forest.size_addChild, Forest.size_modify]
  · rw [top_of_cons hcons]
    exact h.not_mem_below hcons

/-- A move leaves a frame pending or closes it. -/
theorem Carries.move (h : t.Carries id below opening kind) (hnested : t.Nested)
    (hmove : Move t t') : t'.Carries id below opening kind ∨ t'.Closed id := by
  have hid := hnested.mem_lt h.mem_openIds
  -- The top settles or fails, which closes it.
  have closes : ∀ f : Frame → Frame, (t.amend t.top f).pop.Carries id below opening kind ∨
      (t.amend t.top f).pop.Closed id := by
    intro f
    by_cases htop : t.top = id
    · obtain ⟨above, hinner⟩ := h.inner
      subst htop
      exact .inr (hnested.closed_pop (by simp [hinner]) f)
    · exact .inl ((h.amend fun hsame => absurd hsame htop).pop htop)
  cases hmove with
  | rest => exact .inl ⟨h.inner, h.pending⟩
  | grant | revert =>
    refine .inl (h.amend fun _ frame hframe => ?_)
    exact ⟨hframe.action, hframe.gasUsed, hframe.output, hframe.opening⟩
  | push => exact .inl (h.push hid _)
  | pushLeaf => exact .inl (h.pushLeaf hid _)
  | settle | fail => exact closes _

/-- A frame is pending until it is closed. -/
theorem Carries.moves (h : t.Carries id below opening kind) (hnested : t.Nested)
    (hmoves : Moves t t') : t'.Carries id below opening kind ∨ t'.Closed id := by
  induction hmoves with
  | refl => exact .inl h
  | tail hmoves hmove ih =>
    rcases ih with hcarries | hclosed
    · exact hcarries.move (hnested.moves hmoves) hmove
    · exact .inr (hmove.changes.final hclosed).1

/-- The instruction that opens a frame leaves it pending. -/
theorem carries_push (t : Tracer) (opening : Step) (kind : FrameKind) :
    (t.push (opening.openedFrame t.settings kind)).Carries t.forest.size t.inner opening kind := by
  refine ⟨⟨[], rfl⟩, opening.openedFrame t.settings kind, ?_, rfl, rfl, rfl, rfl⟩
  rw [Tracer.push, Forest.get?_push, if_pos rfl]

end Tracer

/-! ## 2. Settling a pending frame -/

section

variable {frame : Frame} {opening : Step} {settings : Settings} {kind : FrameKind} {back : Event}

theorem FrameKind.isCreation_of_executes (h : kind ≠ .selfDestruct) (hcall : ¬kind.isCall) :
    kind.isCreation := by
  cases kind <;> first | rfl | exact absurd rfl h | exact absurd rfl hcall

theorem Frame.settles_call (h : Pending frame opening settings kind) (hcall : kind.isCall)
    (hword : back.step.operand 0 = .ok (back.step.word 0)) (id : FrameId) :
    frame.Settles (frame.settle id back.step back.state settings.paddingLimit).frame settings kind
      opening back ∧
    (frame.settle id back.step back.state settings.paddingLimit).result = .ok () := by
  have hkind := FrameKind.isCreation_eq_false hcall
  have hnever : ¬kind.isCreation := Bool.eq_false_iff.mp hkind
  have haction := h.action
  simp only [Step.opened, if_neg hnever] at haction
  refine ⟨?_, settle_call_result hword id _ _ haction⟩
  rw [settle_call hword id _ _ haction]
  refine ⟨?_, rfl, fun hcreation => absurd hcreation hnever, fun _ => ?_,
    fun hcreation => absurd hcreation hnever, fun _ => ?_, rfl, rfl, rfl⟩
  · simp only [Step.opened, if_neg hnever]
    exact haction
  · simp only [h.opening, h.gasUsed, Step.openedFrame, Option.or_none]
    cases frame.gas with
    | none => rfl
    | some granted => simp [Opening.usedByCall, Opening.kept]
  · simp only [h.opening, h.output, Step.openedFrame, hkind, Option.or_none, Option.bind_some]
    rfl

theorem Frame.settles_creation (h : Pending frame opening settings kind)
    (hkind : kind.isCreation) (hword : back.step.operand 0 = .ok (back.step.word 0))
    (id : FrameId) :
    frame.Settles (frame.settle id back.step back.state settings.paddingLimit).frame settings kind
      opening back ∧
    ((frame.settle id back.step back.state settings.paddingLimit).result = .ok () ↔
      (back.step.word 0 ≠ 0 → (back.state.code (Word.toAddress (back.step.word 0))).isOk)) := by
  have hnever : ¬kind.isCall := fun hcall => by
    rw [FrameKind.isCreation_eq_false hcall] at hkind
    cases hkind
  have haction := h.action
  simp only [Step.opened, if_pos hkind] at haction
  refine ⟨?_, settle_creation_result hword id _ _ haction⟩
  rw [settle_creation hword id _ _ haction]
  refine ⟨?_, rfl, fun _ => ?_, fun hcall => absurd hcall hnever, fun _ => ?_,
    fun hcall => absurd hcall hnever, rfl, rfl, rfl⟩
  · simp only [Step.opened, if_pos hkind]
  · simp [h.opening, h.gasUsed, Step.openedFrame, Opening.usedByCreation, Opening.kept]
  · simp only [h.output, Option.or_none]

/-- What a step back makes of a pending frame. It is refused where a creation has gone well and the
chain state does not tell the code. -/
theorem Frame.settles_of_pending (h : Pending frame opening settings kind)
    (houtcome : back.step.operands ≠ []) (hexecutes : kind ≠ .selfDestruct) (id : FrameId) :
    frame.Settles (frame.settle id back.step back.state settings.paddingLimit).frame settings kind
      opening back ∧
    ((frame.settle id back.step back.state settings.paddingLimit).result = .ok () ↔
      (kind.isCreation → back.step.word 0 ≠ 0 →
        (back.state.code (Word.toAddress (back.step.word 0))).isOk)) := by
  have hword : back.step.operand 0 = .ok (back.step.word 0) :=
    Step.operand_of_lt (List.length_pos_iff.mpr houtcome)
  by_cases hcall : kind.isCall
  · obtain ⟨hsettles, hresult⟩ := settles_call h hcall hword id
    refine ⟨hsettles, iff_of_true hresult fun hcreation => ?_⟩
    rw [FrameKind.isCreation_eq_false hcall] at hcreation
    cases hcreation
  · have hkind := FrameKind.isCreation_of_executes hexecutes hcall
    obtain ⟨hsettles, hresult⟩ := settles_creation h hkind hword id
    exact ⟨hsettles, hresult.trans
      ⟨fun hanswered _ => hanswered, fun hanswered => hanswered hkind⟩⟩

end

/-! ## 3. From the opening to the close -/

theorem Forest.getLast?_childrenOf_addChild {forest : Forest} {parent child : Nat}
    (h : parent < forest.size) :
    ((forest.addChild parent child).childrenOf parent).getLast? = some child := by
  rw [childrenOf_addChild _ h, Function.update_self, List.getLast?_concat]

namespace Tracer

variable {t : Tracer} {id : FrameId} {below : List FrameId} {kind : FrameKind} {opening : Step}

/-- The tracer after a step and the operations that follow it. -/
def following (t : Tracer) (opening : Event) (operations : List Operation) : Tracer :=
  operations.foldl perform (t.observe opening.step opening.state).tracer

/-- The life of a frame: a step opens it, operations go on with the transaction, after them the
frame is the top, and a step back in its caller closes it. As a closed frame stays closed, the frame
is open all the while (`Lifetime.carries`). -/
structure Lifetime (t : Tracer) (kind : FrameKind) (opening : Event) (inside : List Operation)
    (back : Event) : Prop where
  instruction : FrameKind.ofOpcode? opening.step.opcode = some kind
  opens : t.opens opening.step opening.state
  advances : ∀ operation ∈ inside, operation.Advances
  top : (t.following opening inside).top = t.forest.size
  plain : back.step.Plain
  depth : back.step.depth + 1 = (t.following opening inside).openCount
  outcome : back.step.operands ≠ []

/-- After its life a frame is settled and has become the last child of the frame that was the top
before it. The frames that were open then are open again. -/
structure Returns (t : Tracer) (kind : FrameKind) (opening : Event) (inside : List Operation)
    (back : Event) : Prop where
  frame : ∃ before frame,
    (t.following opening inside).forest.get? t.forest.size = some before ∧
    ((t.following opening inside).observe back.step back.state).tracer.forest.get? t.forest.size =
      some frame ∧
    before.Settles frame t.settings kind opening.step back
  child : (((t.following opening inside).observe back.step back.state).tracer.forest.childrenOf
    t.top).getLast? = some t.forest.size
  openIds : ((t.following opening inside).observe back.step back.state).tracer.openIds = t.openIds
  accepted : ((t.following opening inside).observe back.step back.state).result = .ok () ↔
    (kind.isCreation → back.step.word 0 ≠ 0 →
      (back.state.code (Word.toAddress (back.step.word 0))).isOk)

theorem Carries.inner_of_top (h : t.Carries id below opening kind) (hnested : t.Nested)
    (htop : t.top = id) : t.inner = id :: below := by
  obtain ⟨above, hinner⟩ := h.inner
  cases above with
  | nil => exact hinner
  | cons last above =>
    obtain rfl : last = id := by
      rw [← htop, top, hinner]
      rfl
    exact absurd (by simp) (hnested.not_mem_below hinner)

/-- The first step back closes the top. It is not one of the frame's own steps, so that it grants no
gas. -/
theorem observe_closing {step : Step} (state : ChainState) (h : step.Plain)
    (hdepth : step.depth + 1 = t.openCount) (hinner : t.inner = id :: below) {frame : Frame}
    (hframe : t.forest.get? id = some frame) :
    (t.observe step state).tracer =
      { t with
        inner := below
        forest := (t.forest.modify id fun frame =>
          (frame.settle id step state t.settings.paddingLimit).frame).addChild (topOf below) id
        awaitsAllowance := false } ∧
    (t.observe step state).result = (frame.settle id step state t.settings.paddingLimit).result := by
  have hsampled : t.sampleAllowance step = { t with awaitsAllowance := false } := by
    rw [sampleAllowance_eq, if_neg fun hgrant => by omega]
  have hidle : ({ t with awaitsAllowance := false } : Tracer).inner = id :: below := hinner
  rw [observe_of_plain _ _ h, if_pos hdepth, hsampled]
  constructor
  · rw [close_of_cons hidle]
    simp only [pop, amend, hinner]
  · exact result_close hidle hframe step state

/-- An open frame above the root is not the root. -/
theorem Nested.ne_root (h : t.Nested) (hid : id ∈ t.inner) : id ≠ rootId := by
  have hsorted : (t.inner ++ [rootId]).Pairwise (· > ·) := h.layered.pairwise_gt
  exact Nat.ne_of_gt ((List.pairwise_append.mp hsorted).2.2 id hid rootId List.mem_cons_self)

/-- A step closes the top: it is plain and belongs to the frame below the top. -/
structure Closes (t : Tracer) (step : Step) : Prop where
  plain : step.Plain
  depth : step.depth + 1 = t.openCount
  inner : 2 ≤ t.openCount

/-- A step reports a failure, adds a frame, gives back changes, closes the top, or is plain and
closes nothing. -/
theorem step_cases (t : Tracer) (step : Step) :
    (∃ message, step.error = some message) ∨
    (step.error = none ∧ ∃ kind, FrameKind.ofOpcode? step.opcode = some kind) ∨
    (step.error = none ∧ step.opcode = revertOpcode) ∨
    t.Closes step ∨ step.Plain ∧ ¬t.Closes step := by
  rcases step.sort_cases with hreports | hadds | hreverts | hplain
  · exact .inl hreports
  · exact .inr (.inl hadds)
  · exact .inr (.inr (.inl hreverts))
  · have hcloses := (Classical.em (t.Closes step)).imp_right fun hstays => And.intro hplain hstays
    exact .inr (.inr (.inr hcloses))

theorem Closes.exists_inner_eq {step : Step} (h : t.Closes step) :
    ∃ id below, t.inner = id :: below :=
  List.exists_cons_of_length_pos (Nat.le_of_succ_le_succ h.inner)

/-- A step that closes the top settles it and makes it a child. -/
theorem Nested.observe_of_closes (h : t.Nested) {step : Step} (hcloses : t.Closes step)
    (state : ChainState) :
    ∃ id below frame, t.inner = id :: below ∧ t.forest.get? id = some frame ∧
      frame.action.isSelfDestruct = false ∧
      (t.observe step state).tracer =
        { t with
          inner := below
          forest := (t.forest.modify id fun frame =>
            (frame.settle id step state t.settings.paddingLimit).frame).addChild (topOf below) id
          awaitsAllowance := false } ∧
      (t.observe step state).result =
        (frame.settle id step state t.settings.paddingLimit).result := by
  obtain ⟨id, below, hinner⟩ := hcloses.exists_inner_eq
  obtain ⟨⟨frame, hframe, hexecutes⟩, -⟩ := h.guarded.closing id below hinner
  obtain ⟨htracer, hresult⟩ := observe_closing state hcloses.plain hcloses.depth hinner hframe
  exact ⟨id, below, frame, hinner, hframe, hexecutes, htracer, hresult⟩

/-- A plain step that does not close the top is accepted. At most it grants gas. -/
theorem observe_of_not_closes {step : Step} (hplain : step.Plain) (h : ¬t.Closes step)
    (state : ChainState) :
    (t.observe step state).tracer = t.sampleAllowance step ∧
    (t.observe step state).result = .ok () := by
  rw [observe_of_plain _ _ hplain]
  split
  next hdepth =>
    have hinner : (t.sampleAllowance step).inner = [] := by
      rw [inner_sampleAllowance]
      refine List.eq_nil_of_length_eq_zero (Nat.eq_zero_of_not_pos fun hpos => h ?_)
      exact ⟨hplain, hdepth, Nat.succ_le_succ hpos⟩
    rw [close_of_nil hinner]
    exact ⟨rfl, rfl⟩
  · exact ⟨rfl, rfl⟩

namespace Lifetime

variable {opening back : Event} {inside : List Operation}

theorem opening_opens (h : t.Lifetime kind opening inside back) :
    opening.step.Opens opening.state kind opening.step.depth := by
  obtain ⟨other, hopens⟩ := exists_opens h.opens
  obtain rfl : other = kind := Option.some.inj (hopens.instruction.symm.trans h.instruction)
  exact hopens

/-- A frame is open and pending throughout its life. -/
theorem carries (h : t.Lifetime kind opening inside back) (hnested : t.Nested) (n : Nat) :
    (t.following opening (inside.take n)).Nested ∧
    (t.following opening (inside.take n)).Carries t.forest.size t.inner opening.step kind := by
  obtain ⟨hpush, -⟩ := @observe_opening _ t opening kind h.opening_opens
  have hopened := hnested.push (Step.opened_openedFrame opening.step t.settings kind)
  have hbefore : Moves (t.push (opening.step.openedFrame t.settings kind))
      (t.following opening (inside.take n)) := by
    rw [following, hpush]
    exact moves_foldl _ fun operation hmem => h.advances operation (List.mem_of_mem_take hmem)
  have hafter : Moves (t.following opening (inside.take n)) (t.following opening inside) := by
    have hsplit : t.following opening inside =
        (inside.drop n).foldl perform (t.following opening (inside.take n)) := by
      rw [following, following, ← List.foldl_append, List.take_append_drop]
    rw [hsplit]
    exact moves_foldl _ fun operation hmem => h.advances operation (List.mem_of_mem_drop hmem)
  refine ⟨hopened.moves hbefore, ?_⟩
  rcases (t.carries_push opening.step kind).moves hopened hbefore with hcarries | hclosed
  · exact hcarries
  · -- A frame that is closed would not be the top again.
    have hfinal := (hafter.changes.final hclosed).1.closed
    exact absurd (h.top ▸ top_mem_openIds _) hfinal

theorem returns (h : t.Lifetime kind opening inside back) (hnested : t.Nested) :
    t.Returns kind opening inside back := by
  obtain ⟨hwhole, hcarries⟩ := h.carries hnested inside.length
  rw [List.take_length] at hwhole hcarries
  have hmoves : Moves t (t.following opening inside) :=
    (moves_observe ..).trans (moves_foldl _ h.advances)
  have hinner := hcarries.inner_of_top hwhole h.top
  obtain ⟨before, hbefore, hpending⟩ := hcarries.pending
  obtain ⟨htracer, hresult⟩ := observe_closing back.state h.plain h.depth hinner hbefore
  rw [hmoves.settings] at hpending htracer hresult
  obtain ⟨hsettles, haccepted⟩ := before.settles_of_pending hpending h.outcome
    h.opening_opens.executes t.forest.size
  have hne : topOf t.inner ≠ t.forest.size := Nat.ne_of_lt hnested.top_lt
  have hlt : topOf t.inner < (t.following opening inside).forest.size :=
    hwhole.mem_lt (topOf_mem_openIds hinner)
  refine ⟨⟨before, _, hbefore, ?_, hsettles⟩, ?_, ?_, hresult ▸ haccepted⟩
  · rw [htracer, Forest.addChild, Forest.get?_modify, if_neg hne, Forest.get?_modify, if_pos rfl,
      hbefore, Option.map_some]
  · rw [htracer]
    exact Forest.getLast?_childrenOf_addChild (by rwa [Forest.size_modify])
  · rw [htracer, openIds, openIds]

end Lifetime

/-- In a tracer that a host has reached in any way, a frame that is opened and, after any
operations that go on with the transaction, is closed by a step back in its caller, is settled by
these two steps and becomes the last child of its caller. -/
theorem returns_of_lifetime (settings : Settings) (earlier : List Operation) (kind : FrameKind)
    (opening : Event) (inside : List Operation) (back : Event)
    (h : (after settings earlier).Lifetime kind opening inside back) :
    (after settings earlier).Returns kind opening inside back :=
  h.returns (nested_after settings earlier)

/-- A callee calls an account that fails. -/
def failingCallee : List Operation :=
  [.observe (.idle 2 50000 0) .empty, .observe (.emptyCall 2 40000 0) .empty, .fail "out of gas"]

theorem returns_failingCallee :
    (after {} []).Returns .call ⟨.emptyCall 1 100000 0, .empty⟩ failingCallee
      ⟨.idle 1 60000 1, .empty⟩ := by
  refine returns_of_lifetime {} [] .call _ _ _ ⟨rfl, by decide, ?_, by decide, by decide, by decide,
    List.cons_ne_nil _ _⟩
  simp [failingCallee, Operation.Advances]

end Tracer

end CallTree
