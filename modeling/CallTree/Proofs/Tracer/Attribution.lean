import CallTree.Proofs.Tracer.Ownership

/-!
# Which frame a failure is put down to

A step that reports a failure tells at which depth it was to be executed, and so which open frame
executes it. The tracer does not look at the depth: it hands the message to the top. The two frames
differ while the top has returned without the tracer having noticed, as a callee without code has
before the first step back in its caller.

Results:
1. `errorOf_fail`, `fail_of_failed`: the message goes to the top, unless the top has failed before.
2. `attributes_iff`: the executing frame is the only one that a message is put down to, if and only
   if it is the top, or both it and the top have failed before.
3. `not_attributes_caller`: a failure of the caller right after the return of its callee is put down
   to the callee if that has no code, and to no frame at all if the callee has given back its
   changes.
-/

namespace CallTree

/-- The instruction that gives back the changes of its frame, with no output. -/
def Step.reverting (depth : Nat) (gas : Gas) : Step where
  opcode := revertOpcode
  operands := [0, 0]
  gas := gas
  depth := depth

/-- An instruction that cannot be executed. -/
def Step.faulty (depth : Nat) (message : String) : Step where
  opcode := 0
  depth := depth
  error := some message

namespace Tracer

/-- The open frame that executes a step at a depth. -/
def executing? (t : Tracer) (depth : Nat) : Option FrameId :=
  t.openIds.reverse[depth - 1]?

/-- The message with which a frame has failed. -/
def errorOf (t : Tracer) (id : FrameId) : Option String :=
  (t.forest.get? id).bind (·.error)

/-- A step puts a message down to the frame that executes it, unless that frame has failed before,
and to no other frame. -/
structure Attributes (t : Tracer) (step : Step) (state : ChainState) (message : String) :
    Prop where
  others : ∀ id, t.executing? step.depth ≠ some id →
    (t.observe step state).tracer.errorOf id = t.errorOf id
  executing : ∀ id, t.executing? step.depth = some id → t.errorOf id = none →
    (t.observe step state).tracer.errorOf id = some message

variable {t : Tracer}

/-! ## 1. Where a message goes -/

theorem errorOf_amend (t : Tracer) (target id : FrameId) (f : Frame → Frame) :
    (t.amend target f).errorOf id =
    if target = id then (t.forest.get? id).bind fun frame => (f frame).error else t.errorOf id := by
  rw [errorOf, errorOf, amend, Forest.get?_modify]
  split
  · rw [Option.bind_map]
    rfl
  · rfl

theorem errorOf_pop (t : Tracer) (id : FrameId) : t.pop.errorOf id = t.errorOf id :=
  bind_get?_pop (fun _ _ => rfl) t id

theorem any_failed_iff (t : Tracer) (id : FrameId) :
    (t.forest.get? id).any Frame.failed = true ↔ t.errorOf id ≠ none := by
  rw [errorOf]
  cases t.forest.get? id <;> simp [Frame.failed, Option.isSome_iff_ne_none]

/-- A second failure of the top changes nothing. -/
theorem fail_of_failed (h : t.errorOf t.top ≠ none) (message : String) : t.fail message = t := by
  rw [fail_eq, if_pos ((t.any_failed_iff t.top).mpr h)]

/-- The first failure of the top closes it. -/
theorem fail_of_not_failed (h : t.errorOf t.top = none) (message : String) :
    t.fail message = (t.amend t.top (Frame.fail message)).pop := by
  rw [fail_eq, if_neg fun hany => (t.any_failed_iff t.top).mp hany h]

/-- The message goes to the top, unless the top has failed before. -/
theorem errorOf_fail (h : t.errorOf t.top = none) (htop : t.top < t.forest.size)
    (message : String) (id : FrameId) :
    (t.fail message).errorOf id = if t.top = id then some message else t.errorOf id := by
  rw [fail_of_not_failed h, errorOf_pop, errorOf_amend]
  split
  next hid =>
    subst hid
    obtain ⟨frame, hframe⟩ := Forest.exists_get? htop
    rw [hframe]
    rfl
  · rfl

/-! ## 2. When it is the executing frame -/

theorem executing?_openCount (t : Tracer) : t.executing? t.openCount = some t.top := by
  rw [executing?, ← length_openIds, ← List.length_reverse, ← List.getLast?_eq_getElem?,
    List.getLast?_reverse, head?_openIds]

/-- The top executes the steps at its own depth, and no others. -/
theorem Nested.executing?_eq_top_iff (h : t.Nested) {depth : Nat} (hdepth : 1 ≤ depth)
    (hopen : depth ≤ t.openCount) : t.executing? depth = some t.top ↔ depth = t.openCount := by
  constructor
  · intro htop
    have hlt : depth - 1 < t.openIds.reverse.length := by
      rw [List.length_reverse, length_openIds]
      omega
    have hnodup : t.openIds.reverse.Nodup := List.nodup_reverse.mpr h.layered.pairwise_gt.nodup
    have hsame := (List.getElem?_inj hlt hnodup).mp (htop.trans t.executing?_openCount.symm)
    omega
  · rintro rfl
    exact t.executing?_openCount

/-- While the top has not failed, a message is put down to the frame that executes the step exactly if
that is the top. -/
theorem Nested.attributes_iff_of_eq_none (h : t.Nested) {step : Step} (state : ChainState)
    {message : String} (hmessage : step.error = some message) (hdepth : 1 ≤ step.depth)
    (hopen : step.depth ≤ t.openCount) (hnone : t.errorOf t.top = none) :
    t.Attributes step state message ↔ step.depth = t.openCount := by
  have hobserved : ∀ id, (t.observe step state).tracer.errorOf id =
      if t.top = id then some message else t.errorOf id := by
    rw [t.observe_of_error state hmessage]
    exact errorOf_fail hnone h.top_lt message
  rw [← h.executing?_eq_top_iff hdepth hopen]
  constructor
  · rintro ⟨hothers, -⟩
    refine Classical.not_not.mp fun hne => ?_
    -- The top would get the message of a frame below it.
    have hsame := hothers t.top hne
    rw [hobserved, if_pos rfl, hnone] at hsame
    cases hsame
  · intro hexecutes
    constructor
    · intro id hid
      have hne : t.top ≠ id := by
        rintro rfl
        exact hid hexecutes
      rw [hobserved, if_neg hne]
    · intro id hid _
      rw [hobserved, if_pos (Option.some.inj (hexecutes.symm.trans hid))]

/-- Once the top has failed, a message is lost. -/
theorem attributes_iff_of_ne_none {step : Step} (state : ChainState) {message : String}
    (hmessage : step.error = some message) (hfailed : t.errorOf t.top ≠ none) :
    t.Attributes step state message ↔
    ∀ id, t.executing? step.depth = some id → t.errorOf id ≠ none := by
  have hobserved : (t.observe step state).tracer = t := by
    rw [t.observe_of_error state hmessage]
    exact fail_of_failed hfailed message
  constructor
  · rintro ⟨-, hexecuting⟩ id hid hnone
    have hset := hexecuting id hid hnone
    rw [hobserved, hnone] at hset
    cases hset
  · intro hexecuting
    exact ⟨fun id _ => by rw [hobserved], fun id hid hnone => absurd hnone (hexecuting id hid)⟩

/-- After any operations, a step at the depth of an open frame puts its message down to the frame
that executes it, and to no other frame, if and only if that frame is the top, or both have failed
before. -/
theorem attributes_iff (settings : Settings) (operations : List Operation) (step : Step)
    (state : ChainState) (message : String) (hmessage : step.error = some message)
    (hdepth : 1 ≤ step.depth) (hopen : step.depth ≤ (after settings operations).openCount) :
    (after settings operations).Attributes step state message ↔
    step.depth = (after settings operations).openCount ∨
    ((after settings operations).errorOf (after settings operations).top ≠ none ∧
      ∀ id, (after settings operations).executing? step.depth = some id →
        (after settings operations).errorOf id ≠ none) := by
  have h := nested_after settings operations
  generalize after settings operations = t at h hopen
  cases htop : t.errorOf t.top with
  | none =>
    rw [h.attributes_iff_of_eq_none state hmessage hdepth hopen htop]
    exact ⟨.inl, fun hcases => hcases.resolve_right fun hfailed => hfailed.1 rfl⟩
  | some before =>
    have hfailed : t.errorOf t.top ≠ none := htop ▸ Option.some_ne_none before
    rw [attributes_iff_of_ne_none state hmessage hfailed]
    refine ⟨fun hexecuting => .inr ⟨Option.some_ne_none before, hexecuting⟩, ?_⟩
    rintro (hsame | ⟨-, hexecuting⟩)
    · intro id hid
      have hexecutes := (h.executing?_eq_top_iff hdepth hopen).mpr hsame
      rwa [← Option.some.inj (hexecutes.symm.trans hid)]
    · exact hexecuting

/-- A callee runs out of gas at its first instruction. -/
theorem attributes_callee :
    (after {} [.observe (.emptyCall 1 100000 0) .empty]).Attributes (.faulty 2 "out of gas") .empty
      "out of gas" :=
  (attributes_iff {} [.observe (.emptyCall 1 100000 0) .empty] (.faulty 2 "out of gas") .empty
    "out of gas" rfl (by decide) (by decide)).mpr (.inl (by decide))

/-! ## 3. Callers that fail at once -/

/-- A call of an account without code. -/
def calleeWithoutCode : List Event :=
  [⟨.emptyCall 1 100000 0, .empty⟩]

/-- A call whose callee gives back its changes. -/
def revertedCallee : List Event :=
  [⟨.emptyCall 1 100000 0, .empty⟩, ⟨.reverting 2 50000, .empty⟩]

/-- The callee gets the message of its caller, or the message is lost. -/
theorem not_attributes_caller :
    ((fresh {}).Accepts calleeWithoutCode ∧
      ¬((fresh {}).observeOn calleeWithoutCode).Attributes (.faulty 1 "out of gas") .empty
        "out of gas") ∧
    (fresh {}).Accepts revertedCallee ∧
      ¬((fresh {}).observeOn revertedCallee).Attributes (.faulty 1 "out of gas") .empty
        "out of gas" := by
  refine ⟨⟨⟨rfl, trivial⟩, fun h => ?_⟩, ⟨rfl, rfl, trivial⟩, fun h => ?_⟩
  · have hcallee := h.others 1 (by decide)
    exact absurd hcallee (by decide)
  · have hcaller := h.executing 0 (by decide) (by decide)
    exact absurd hcaller (by decide)

end Tracer

end CallTree
