import CallTree.Proofs.Tracer.Allowance
import CallTree.Proofs.Tracer.Attribution
import CallTree.Proofs.Tracer.Openings

/-!
# How long an allowance is awaited

After an instruction has opened a frame, the next step is to tell what gas was granted to it. But
the tracer does not count steps: it waits until one comes that tells an allowance (`Step.Tells`),
which a report of failure does not and neither does an instruction that could add a frame. What
comes in between may close the frame, and then the gas is taken for that of a frame below it.

Results:
1. `gasOf_observe`: what a step does to the gas of the frames that are there.
   `Nested.samples_iff`: when a step makes the gas of one of them known.
2. `awaits_observe`, `awaits_iff`: when an allowance is awaited.
3. `samples_after`: when a step samples an allowance, and whether it is that of the frame just opened.
4. `samples_callerOfFault`: a callee that fails at its first instruction hands the wait on to its
   caller.
-/

namespace CallTree

/-- The step tells the gas of the frame that executes it to a tracer that awaits an allowance. -/
def Step.Tells (step : Step) : Prop :=
  step.error = none ∧ FrameKind.ofOpcode? step.opcode = none

instance (step : Step) : Decidable step.Tells :=
  inferInstanceAs (Decidable (_ ∧ _))

namespace Tracer

/-- The operation takes in a step that tells an allowance. -/
def Operation.Tells : Operation → Prop
  | .observe step _ => step.Tells
  | .fail .. | .finish .. | .reset | .trace .. => False

/-- A step makes known the gas of a frame that was there before. -/
structure Samples (t : Tracer) (step : Step) (state : ChainState) (id : FrameId) : Prop where
  there : id < t.forest.size
  unknown : t.gasOf id = none
  known : (t.observe step state).tracer.gasOf id ≠ none

variable {t : Tracer} {step : Step} {state : ChainState} {id : FrameId}

/-! ## 1. One step -/

theorem gasOf_amend {target : FrameId} {f : Frame → Frame} (hf : ∀ frame, (f frame).gas = frame.gas) :
    (t.amend target f).gasOf id = t.gasOf id :=
  bind_get?_amend hf t target id

theorem gasOf_fail (message : String) : (t.fail message).gasOf id = t.gasOf id := by
  rw [fail_eq]
  split
  · rfl
  · rw [gasOf_pop]
    exact gasOf_amend fun _ => rfl

theorem gasOf_close : (t.close step state).tracer.gasOf id = t.gasOf id := by
  cases hinner : t.inner with
  | nil => rw [close_of_nil hinner]
  | cons last rest =>
    rw [close_of_cons hinner, gasOf_pop]
    exact gasOf_amend fun frame => (frame.keeps_settle ..).gas

/-- Gas is granted to the top alone, if it is awaited and the step is deep enough. -/
theorem gasOf_sampleAllowance (hid : id < t.forest.size) :
    (t.sampleAllowance step).gasOf id =
    if t.awaitsAllowance ∧ t.openCount ≤ step.depth ∧ id = t.top then
      (t.gasOf id).or (some step.gas)
    else t.gasOf id := by
  obtain ⟨frame, hframe⟩ := Forest.exists_get? hid
  rw [sampleAllowance_eq, if_congr and_assoc.symm rfl rfl]
  by_cases hgrants : t.awaitsAllowance ∧ t.openCount ≤ step.depth
  · rw [if_pos hgrants, if_congr ((and_iff_right hgrants).trans eq_comm) rfl rfl]
    show (t.amend t.top (Frame.grant step.gas)).gasOf id = _
    rw [gasOf, gasOf, Tracer.amend, Forest.get?_modify, hframe]
    split <;> rfl
  · rw [if_neg hgrants, if_neg fun h => hgrants h.1]
    rfl

/-- What a step does to the gas of a frame that is there. -/
theorem gasOf_observe (hid : id < t.forest.size) :
    (t.observe step state).tracer.gasOf id =
    if step.Tells ∧ t.awaitsAllowance ∧ t.openCount ≤ step.depth ∧ id = t.top then
      (t.gasOf id).or (some step.gas)
    else t.gasOf id := by
  have hsampled : (t.sampleAllowance step).gasOf id = _ := gasOf_sampleAllowance hid
  rcases step.sort_cases with ⟨message, h⟩ | ⟨h, kind, hkind⟩ | ⟨h, hrevert⟩ | h
  · rw [t.observe_of_error state h, if_neg fun htells => by cases h.symm.trans htells.1.1]
    exact gasOf_fail message
  · rw [t.observe_of_kind state h hkind, if_neg fun htells => by cases hkind.symm.trans htells.1.2]
    exact bind_get?_enter (fun _ _ => rfl) hid kind step state
  · have htells : step.Tells := ⟨h, hrevert ▸ by decide⟩
    rw [t.observe_of_revert state h hrevert, if_congr (and_iff_right htells) rfl rfl, ← hsampled]
    exact gasOf_amend fun _ => rfl
  · have htells : step.Tells := ⟨h.error, h.kind⟩
    rw [t.observe_of_plain state h, if_congr (and_iff_right htells) rfl rfl, ← hsampled]
    split
    · exact gasOf_close
    · rfl

/-- A step makes known the gas of the top alone: if nothing is known of it yet, an allowance is
awaited, and the step tells it and is deep enough. -/
theorem Nested.samples_iff (h : t.Nested) :
    t.Samples step state id ↔
    (step.Tells ∧ t.awaitsAllowance ∧ t.openCount ≤ step.depth ∧ id = t.top) ∧
      t.gasOf id = none := by
  constructor
  · rintro ⟨hid, hunknown, hknown⟩
    refine ⟨Classical.byContradiction fun hnot => hknown ?_, hunknown⟩
    rw [gasOf_observe hid, if_neg hnot, hunknown]
  · rintro ⟨hsamples, hunknown⟩
    have hid : id < t.forest.size := hsamples.2.2.2 ▸ h.top_lt
    refine ⟨hid, hunknown, ?_⟩
    rw [gasOf_observe hid, if_pos hsamples, hunknown, Option.none_or]
    exact Option.some_ne_none step.gas

/-! ## 2. When an allowance is awaited -/

theorem awaits_pop (t : Tracer) : t.pop.awaitsAllowance = t.awaitsAllowance := by
  cases hinner : t.inner <;> simp [pop, hinner]

theorem awaits_fail (t : Tracer) (message : String) :
    (t.fail message).awaitsAllowance = t.awaitsAllowance := by
  rw [fail_eq]
  split
  · rfl
  · rw [awaits_pop]
    rfl

theorem awaits_close (t : Tracer) (step : Step) (state : ChainState) :
    (t.close step state).tracer.awaitsAllowance = t.awaitsAllowance := by
  cases hinner : t.inner with
  | nil => rw [close_of_nil hinner]
  | cons last rest =>
    rw [close_of_cons hinner, awaits_pop]
    rfl

/-- A step that tells an allowance ends the wait. Any other step leaves it as it is, unless it opens
a frame. -/
theorem awaits_observe (t : Tracer) (step : Step) (state : ChainState) :
    (t.observe step state).tracer.awaitsAllowance = true ↔
    ¬step.Tells ∧ (t.opens step state = true ∨ t.awaitsAllowance = true) := by
  have hsampled : (t.sampleAllowance step).awaitsAllowance = false := by rw [sampleAllowance_eq]
  rcases step.sort_cases with ⟨message, h⟩ | ⟨h, kind, hkind⟩ | ⟨h, hrevert⟩ | h
  · have hsilent : ¬step.Tells := fun htells => by cases h.symm.trans htells.1
    have hopens : ¬t.opens step state = true := fun hopens => by
      cases h.symm.trans (exists_kind_of_opens hopens).1
    rw [and_iff_right hsilent, or_iff_right hopens, t.observe_of_error state h]
    show (t.fail message).awaitsAllowance = true ↔ _
    rw [awaits_fail]
  · have hsilent : ¬step.Tells := fun htells => by cases hkind.symm.trans htells.2
    have hentered := t.observe_of_kind state h hkind
    rw [and_iff_right hsilent, opens, hentered]
    rcases t.enter_cases kind step state with hsame | ⟨frame, -, hpush⟩ | ⟨frame, -, hleaf⟩
    · simp [hsame]
    · simp [hpush, push, openCount]
    · simp [hleaf, pushLeaf, openCount]
  · have htells : step.Tells := ⟨h, hrevert ▸ by decide⟩
    refine iff_of_false ?_ fun hawaits => hawaits.1 htells
    rw [t.observe_of_revert state h hrevert]
    exact Bool.eq_false_iff.mp hsampled
  · have htells : step.Tells := ⟨h.error, h.kind⟩
    refine iff_of_false ?_ fun hawaits => hawaits.1 htells
    rw [t.observe_of_plain state h]
    split
    · rw [awaits_close, hsampled]
      exact Bool.false_ne_true
    · exact Bool.eq_false_iff.mp hsampled

/-- An operation that tells no allowance leaves the wait as it is. -/
theorem awaits_perform {operation : Operation} (hadvances : operation.Advances)
    (hsilent : ¬operation.Tells) (h : t.awaitsAllowance = true) :
    (t.perform operation).awaitsAllowance = true := by
  cases operation with
  | observe step state => exact (t.awaits_observe step state).mpr ⟨hsilent, .inr h⟩
  | fail message => exact (t.awaits_fail message).trans h
  | finish | reset | trace => cases hadvances

theorem awaits_foldl {operations : List Operation}
    (hadvances : ∀ operation ∈ operations, operation.Advances)
    (hsilent : ∀ operation ∈ operations, ¬operation.Tells) (h : t.awaitsAllowance = true) :
    (operations.foldl perform t).awaitsAllowance = true := by
  refine List.foldlRecOn (motive := fun t => t.awaitsAllowance = true) operations perform h
    fun t ht operation hmem => ?_
  exact awaits_perform (hadvances operation hmem) (hsilent operation hmem) ht

/-- The allowance of a frame that was opened in the course of some operations is awaited at their
end: none of those that came since told an allowance, and none of them opened a frame. -/
structure Awaited (settings : Settings) (operations : List Operation) (id : FrameId)
    (earlier : List Operation) (opening : Event) (kind : FrameKind) (inside : List Operation) :
    Prop where
  openedBy : OpenedBy settings operations id earlier opening kind inside
  silent : ∀ operation ∈ inside, ¬operation.Tells
  latest : ∀ {other before later kind' rest},
    OpenedBy settings operations other before later kind' rest → inside.length ≤ rest.length

/-- The last of some operations opened the frame. -/
def JustOpened (settings : Settings) (operations : List Operation) (id : FrameId) : Prop :=
  ∃ earlier opening kind, OpenedBy settings operations id earlier opening kind []

variable {settings : Settings} {operations earlier inside : List Operation} {opening : Event}
  {kind : FrameKind}

theorem OpenedBy.after_eq (h : OpenedBy settings operations id earlier opening kind inside) :
    after settings operations = inside.foldl perform ((after settings earlier).push
      (opening.step.openedFrame (after settings earlier).settings kind)) := by
  rw [h.operations, after_following, following, (@observe_opening _ _ opening kind h.opens).1]

/-- An operation that opens no frame is not the one that opened the frame. -/
theorem OpenedBy.init {operation : Operation}
    (h : OpenedBy settings (operations ++ [operation]) id earlier opening kind inside)
    (hopens : ∀ step state, operation = .observe step state →
      ¬(after settings operations).opens step state = true) :
    ∃ rest, inside = rest ++ [operation] ∧
      OpenedBy settings operations id earlier opening kind rest := by
  rcases List.eq_nil_or_concat inside with rfl | ⟨rest, last, rfl⟩
  · obtain ⟨rfl, hlast⟩ := List.append_inj' h.operations rfl
    refine absurd ?_ (hopens _ _ (List.singleton_inj.mp hlast))
    exact (opens_iff ..).mpr ⟨_, (@observe_opening _ _ opening kind h.opens).1⟩
  · have hsplit : operations ++ [operation] =
        (earlier ++ .observe opening.step opening.state :: rest) ++ [last] := by
      rw [h.operations]
      simp
    obtain ⟨hinit, hlast⟩ := List.append_inj' hsplit rfl
    obtain rfl := List.singleton_inj.mp hlast
    exact ⟨rest, List.concat_eq_append .., hinit, h.opens, h.id⟩

/-- An operation that neither tells an allowance nor opens a frame prolongs the wait. -/
theorem Awaited.concat {operation : Operation}
    (h : Awaited settings operations id earlier opening kind inside) (hsilent : ¬operation.Tells)
    (hopens : ∀ step state, operation = .observe step state →
      ¬(after settings operations).opens step state = true) :
    Awaited settings (operations ++ [operation]) id earlier opening kind (inside ++ [operation]) := by
  refine ⟨h.openedBy.concat operation, fun other hother => ?_, fun hother => ?_⟩
  · rcases List.mem_append.mp hother with hinside | hlast
    · exact h.silent other hinside
    · exact List.mem_singleton.mp hlast ▸ hsilent
  · obtain ⟨rest, rfl, hbefore⟩ := hother.init hopens
    rw [List.length_append, List.length_append]
    exact Nat.add_le_add_right (h.latest hbefore) 1

/-- Where an allowance is awaited behind an operation, it was awaited before it or is that of the frame
that the operation opens. -/
theorem exists_awaited_concat {operation : Operation} (hadvances : operation.Advances)
    (hbefore : (after settings operations).awaitsAllowance = true →
      ∃ id earlier opening kind inside, Awaited settings operations id earlier opening kind inside)
    (h : ((after settings operations).perform operation).awaitsAllowance = true) :
    ∃ id earlier opening kind inside,
      Awaited settings (operations ++ [operation]) id earlier opening kind inside := by
  cases operation with
  | observe step state =>
    obtain ⟨hsilent, hawaits⟩ := (awaits_observe ..).mp h
    by_cases hopens : (after settings operations).opens step state = true
    · obtain ⟨kind, hkind⟩ := exists_opens hopens
      exact ⟨_, operations, ⟨step, state⟩, kind, [], ⟨rfl, hkind, rfl⟩,
        fun _ hmem => absurd hmem List.not_mem_nil, fun _ => Nat.zero_le _⟩
    · obtain ⟨last, earlier, opening, kind, inside, hawaited⟩ :=
        hbefore (hawaits.resolve_left hopens)
      refine ⟨last, earlier, opening, kind, _, hawaited.concat hsilent fun _ _ hsame => ?_⟩
      cases hsame
      exact hopens
  | fail message =>
    rw [perform, awaits_fail] at h
    obtain ⟨last, earlier, opening, kind, inside, hawaited⟩ := hbefore h
    exact ⟨last, earlier, opening, kind, _, hawaited.concat id fun _ _ hsame => by cases hsame⟩
  | finish | reset | trace => cases hadvances

theorem Awaited.awaits (h : Awaited settings operations id earlier opening kind inside)
    (hadvances : ∀ operation ∈ operations, operation.Advances) :
    (after settings operations).awaitsAllowance = true := by
  rw [h.openedBy.after_eq]
  refine awaits_foldl (fun operation hmem => hadvances operation ?_) h.silent rfl
  rw [h.openedBy.operations]
  exact List.mem_append_right _ (List.mem_cons_of_mem _ hmem)

/-- An allowance is awaited if and only if, since a frame was last opened, none has been told. -/
theorem awaits_iff (hadvances : ∀ operation ∈ operations, operation.Advances) :
    (after settings operations).awaitsAllowance = true ↔
    ∃ id earlier opening kind inside, Awaited settings operations id earlier opening kind inside := by
  refine ⟨fun h => ?_, fun ⟨_, _, _, _, _, h⟩ => h.awaits hadvances⟩
  induction operations using List.reverseRecOn with
  | nil => cases h
  | append_singleton operations operation ih =>
    rw [after_concat] at h
    refine exists_awaited_concat (hadvances operation (List.mem_append_right _ List.mem_cons_self))
      (ih fun other hother => hadvances other (List.mem_append_left _ hother)) h

/-! ## 3. Which frame is sampled -/

/-- The frame whose allowance is awaited is the top if nothing happened since it was opened. -/
theorem Awaited.justOpened_top_iff
    (h : Awaited settings operations id earlier opening kind inside) :
    JustOpened settings operations (after settings operations).top ↔ inside = [] := by
  constructor
  · rintro ⟨before, last, kind', hjust⟩
    exact List.length_eq_zero_iff.mp (Nat.le_zero.mp (h.latest hjust))
  · rintro rfl
    have hopened := h.openedBy
    have htop : (after settings operations).top = id := by
      rw [hopened.after_eq, ← hopened.id]
      rfl
    exact htop ▸ ⟨earlier, opening, kind, hopened⟩

/-- No frame that was opened since is open. -/
theorem Awaited.le_of_mem_openIds {other : FrameId}
    (h : Awaited settings operations id earlier opening kind inside)
    (hadvances : ∀ operation ∈ operations, operation.Advances)
    (hother : other ∈ (after settings operations).openIds) : other ≤ id := by
  rcases List.mem_append.mp hother with hinner | hroot
  · obtain ⟨before, later, kind', rest, hopened⟩ := exists_openedBy hadvances hinner
    have hsame := h.openedBy.operations.symm.trans hopened.operations
    have hle := h.latest hopened
    have hlength := congrArg List.length hsame
    simp only [List.length_append, List.length_cons] at hlength
    obtain ⟨between, rfl⟩ : before <+: earlier :=
      List.prefix_of_prefix_length_le (List.prefix_append ..) (hsame ▸ List.prefix_append ..)
        (by omega)
    rw [← h.openedBy.id, ← hopened.id, after, after, List.foldl_append]
    refine (moves_foldl _ fun operation hmem => hadvances operation ?_).changes.size_le
    rw [h.openedBy.operations]
    exact List.mem_append_left _ (List.mem_append_right _ hmem)
  · rw [List.mem_singleton.mp hroot]
    exact Nat.zero_le _

/-- The frame whose allowance is awaited is the top as long as it is open. -/
theorem Awaited.top_eq_iff (h : Awaited settings operations id earlier opening kind inside)
    (hadvances : ∀ operation ∈ operations, operation.Advances) :
    (after settings operations).top = id ↔ id ∈ (after settings operations).openIds := by
  constructor
  · rintro rfl
    exact top_mem_openIds _
  · intro hopen
    refine Nat.le_antisymm (h.le_of_mem_openIds hadvances (top_mem_openIds _)) ?_
    obtain ⟨others, hothers⟩ := (after settings operations).exists_openIds_eq
    have hsorted := (nested_after settings operations).layered.pairwise_gt
    rw [hothers] at hopen hsorted
    rcases List.mem_cons.mp hopen with rfl | hbelow
    · exact Nat.le_refl _
    · exact Nat.le_of_lt ((List.pairwise_cons.mp hsorted).1 id hbelow)

/-- After any steps and reports, a step makes the gas of a frame known if and only if the frame is the
top and nothing is known of its gas, the step tells an allowance and is deep enough, and since a frame
was last opened none has been told. The frame is the one that the last operation opened only if
nothing came between the opening and the step, and it is the frame that was opened last only if that
is still open. -/
theorem samples_after (settings : Settings) (operations : List Operation)
    (hadvances : ∀ operation ∈ operations, operation.Advances) (step : Step) (state : ChainState)
    (id : FrameId) :
    (after settings operations).Samples step state id ↔
    (step.Tells ∧ (after settings operations).openCount ≤ step.depth ∧
      id = (after settings operations).top ∧ (after settings operations).gasOf id = none) ∧
    ∃ opened earlier opening kind inside,
      Awaited settings operations opened earlier opening kind inside ∧
      (JustOpened settings operations id ↔ inside = []) ∧
      (id = opened ↔ opened ∈ (after settings operations).openIds) := by
  rw [(nested_after settings operations).samples_iff, awaits_iff hadvances]
  constructor
  · rintro ⟨⟨htells, ⟨opened, earlier, opening, kind, inside, hawaited⟩, hdepth, rfl⟩, hunknown⟩
    exact ⟨⟨htells, hdepth, rfl, hunknown⟩, opened, earlier, opening, kind, inside, hawaited,
      hawaited.justOpened_top_iff, hawaited.top_eq_iff hadvances⟩
  · rintro ⟨⟨htells, hdepth, htop, hunknown⟩, opened, earlier, opening, kind, inside, hawaited, -⟩
    exact ⟨⟨htells, ⟨opened, earlier, opening, kind, inside, hawaited⟩, hdepth, htop⟩, hunknown⟩

/-- A call whose callee fails at its first instruction. -/
def faultAtOnce : List Operation :=
  [.observe (.emptyCall 1 100000 0) .empty, .observe (.faulty 2 "invalid opcode: 0xfe") .empty]

theorem samples_after_faultAtOnce :
    (∀ operation ∈ faultAtOnce, operation.Advances) ∧
    ∃ opened earlier opening kind inside,
      Awaited {} faultAtOnce opened earlier opening kind inside ∧
      (JustOpened {} faultAtOnce rootId ↔ inside = []) ∧
      (rootId = opened ↔ opened ∈ (after {} faultAtOnce).openIds) := by
  have hadvances : ∀ operation ∈ faultAtOnce, operation.Advances := by
    simp [faultAtOnce, Operation.Advances]
  have hsamples := samples_after {} faultAtOnce hadvances (.idle 1 97400 0) .empty rootId
  exact ⟨hadvances, (hsamples.mp ⟨by decide, by decide, by decide⟩).2⟩

/-! ## 4. Callees that fail at once -/

/-- The next step of the caller is taken for the first one of the callee, and its gas for what was
granted to the root. -/
theorem samples_callerOfFault :
    (after {} faultAtOnce).Samples (.idle 1 97400 0) .empty rootId ∧
    ¬JustOpened {} faultAtOnce rootId ∧
    ((after {} faultAtOnce).observe (.idle 1 97400 0) .empty).tracer.gasOf rootId = some 97400 := by
  refine ⟨⟨by decide, by decide, by decide⟩, ?_, by decide⟩
  rintro ⟨earlier, opening, kind, hopened⟩
  have hlast := congrArg List.getLast? hopened.operations
  rw [List.getLast?_append, List.getLast?_singleton, Option.some_or] at hlast
  obtain rfl : opening = ⟨.faulty 2 "invalid opcode: 0xfe", .empty⟩ := by
    cases opening
    cases hlast
    rfl
  exact absurd hopened.opens.error (by decide)

end Tracer

end CallTree
