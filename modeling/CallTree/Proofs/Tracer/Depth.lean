import CallTree.Proofs.Tracer.Operation

/-!
# Open frames and depth

A machine runs one frame at a time, so a step at depth `d` is taken while `d` frames are open. The
tracer keeps up with the machine as long as it notices every return. It notices a return by the
first step back in the caller, but only if that step is plain: an instruction that adds a frame and
the one that gives back changes are dealt with before the depth is looked at.

Results:
1. `opens_iff`: a step opens a frame where the tracer pushes one.
2. `openCount_observe_iff`: one step of a machine that the tracer has kept up with.
3. `keepsUp_iff`: the tracer keeps up with a machine exactly as long as each return is noticed.
4. `not_keepsUp_callTwice`: two calls, the second one being the first step back from the first one,
   are enough to leave the tracer behind.
-/

namespace CallTree

/-- Where a machine stands: the depth of its latest step, and whether that step opened a frame. -/
structure Position where
  depth : Nat
  opened : Bool

namespace Position

/-- Before the first step, which is at depth 1. -/
def start : Position := ⟨1, false⟩

/-- How many frames are open. -/
def level (position : Position) : Nat :=
  position.depth + if position.opened then 1 else 0

/-- The next step of a machine may be at a depth: that of the latest step, one more if that step
opened a frame, or one less. -/
def Leads (position : Position) (depth : Nat) : Prop :=
  depth = position.depth ∨ (position.opened = true ∧ depth = position.depth + 1) ∨
  (1 ≤ depth ∧ depth + 1 = position.depth)

theorem Leads.bounds {position : Position} {depth : Nat} (h : position.Leads depth)
    (hposition : 1 ≤ position.depth) : 1 ≤ depth ∧ depth ≤ position.level := by
  simp only [level]
  rcases h with rfl | ⟨hopened, rfl⟩ | ⟨hdepth, hless⟩
  · omega
  · rw [if_pos hopened]
    omega
  · omega

end Position

namespace Tracer

/-- A step opens a frame. -/
def opens (t : Tracer) (step : Step) (state : ChainState) : Bool :=
  t.openCount < (t.observe step state).tracer.openCount

/-- Where the machine stands after a step. -/
def position (t : Tracer) (step : Step) (state : ChainState) : Position :=
  ⟨step.depth, t.opens step state⟩

/-- The steps are those of a machine, none of which reports a failure. -/
def Follows (t : Tracer) (position : Position) : List Event → Prop
  | [] => True
  | ⟨step, state⟩ :: events =>
    step.error = none ∧ position.Leads step.depth ∧
    Follows (t.observe step state).tracer (t.position step state) events

/-- After each step as many frames are open as the machine has. -/
def KeepsUp (t : Tracer) : List Event → Prop
  | [] => True
  | ⟨step, state⟩ :: events =>
    (t.observe step state).tracer.openCount = (t.position step state).level ∧
    KeepsUp (t.observe step state).tracer events

/-- Each step that comes back from a frame is plain and comes back from that frame alone. -/
def NoticesReturns (t : Tracer) (position : Position) : List Event → Prop
  | [] => True
  | ⟨step, state⟩ :: events =>
    (step.depth < position.level → step.depth + 1 = position.level ∧ step.Plain) ∧
    NoticesReturns (t.observe step state).tracer (t.position step state) events

/-! ## 1. One step -/

@[simp] theorem inner_pop (t : Tracer) : t.pop.inner = t.inner.tail := by
  cases hinner : t.inner <;> simp [pop, hinner]

theorem openCount_fail_le (t : Tracer) (message : String) :
    (t.fail message).openCount ≤ t.openCount := by
  rw [fail_eq]
  split
  · exact Nat.le_refl _
  · rw [openCount, inner_pop, List.length_tail]
    exact Nat.succ_le_succ (Nat.sub_le _ _)

/-- A close leaves one frame less open, but never less than the root. -/
theorem openCount_close (t : Tracer) (step : Step) (state : ChainState) :
    (t.close step state).tracer.openCount = max 1 (t.openCount - 1) := by
  cases hinner : t.inner with
  | nil =>
    rw [close_of_nil hinner]
    simp [openCount, hinner]
  | cons id rest =>
    rw [close_of_cons hinner, openCount, inner_pop]
    show t.inner.tail.length + 1 = max 1 (t.inner.length + 1 - 1)
    rw [hinner, List.tail_cons, List.length_cons]
    omega

/-- An instruction that adds a frame closes none. -/
theorem openCount_enter (t : Tracer) (kind : FrameKind) (step : Step) (state : ChainState) :
    (t.enter kind step state).tracer.openCount = t.openCount ∨
    (t.enter kind step state).tracer.openCount = t.openCount + 1 := by
  rcases t.enter_cases kind step state with h | ⟨frame, -, h⟩ | ⟨frame, -, h⟩
  · exact .inl (by rw [h])
  · exact .inr (by rw [h]; rfl)
  · exact .inl (by rw [h]; rfl)

/-- A step that is not plain closes no frame, whatever its depth is. -/
theorem openCount_observe_of_not_plain (t : Tracer) {step : Step} (state : ChainState)
    (herror : step.error = none) (h : ¬step.Plain) :
    (t.observe step state).tracer.openCount =
    t.openCount + if t.opens step state then 1 else 0 := by
  have hcount : (t.observe step state).tracer.openCount = t.openCount ∨
      (t.observe step state).tracer.openCount = t.openCount + 1 := by
    rcases step.sort_cases with ⟨message, hsome⟩ | ⟨-, kind, hkind⟩ | ⟨-, hrevert⟩ | hplain
    · rw [herror] at hsome
      cases hsome
    · rw [t.observe_of_kind state herror hkind]
      exact t.openCount_enter kind step state
    · rw [t.observe_of_revert state herror hrevert]
      exact .inl (t.openCount_sampleAllowance step)
    · exact absurd hplain h
  rcases hcount with hsame | hmore
  · simp [opens, hsame]
  · simp [opens, hmore]

/-- A step that opens a frame is one of the instructions that add a frame. -/
theorem exists_kind_of_opens {t : Tracer} {step : Step} {state : ChainState}
    (h : t.opens step state) :
    step.error = none ∧ ∃ kind, FrameKind.ofOpcode? step.opcode = some kind := by
  have hmore : t.openCount < (t.observe step state).tracer.openCount := of_decide_eq_true h
  rcases step.sort_cases with ⟨message, hsome⟩ | hkind | ⟨hnone, hrevert⟩ | hplain
  · rw [t.observe_of_error state hsome] at hmore
    exact absurd hmore (Nat.not_lt.mpr (t.openCount_fail_le message))
  · exact hkind
  · rw [t.observe_of_revert state hnone hrevert] at hmore
    exact absurd hmore (Nat.not_lt.mpr (Nat.le_of_eq (t.openCount_sampleAllowance step)))
  · have hclosed := openCount_close (t.sampleAllowance step) step state
    have hcount := t.openCount_sampleAllowance step
    have hroot : 1 ≤ t.openCount := Nat.le_add_left _ _
    rw [t.observe_of_plain state hplain] at hmore
    split at hmore
    · omega
    · change t.openCount < (t.sampleAllowance step).openCount at hmore
      omega

/-- A step opens a frame where the tracer pushes one. -/
theorem opens_iff (t : Tracer) (step : Step) (state : ChainState) :
    t.opens step state = true ↔ ∃ frame, (t.observe step state).tracer = t.push frame := by
  constructor
  · intro h
    obtain ⟨hnone, kind, hkind⟩ := exists_kind_of_opens h
    have hmore : t.openCount < (t.observe step state).tracer.openCount := of_decide_eq_true h
    rw [t.observe_of_kind state hnone hkind] at hmore ⊢
    rcases t.enter_cases kind step state with hsame | ⟨frame, -, hpush⟩ | ⟨frame, -, hleaf⟩
    · rw [hsame] at hmore
      exact absurd hmore (Nat.lt_irrefl _)
    · exact ⟨frame, hpush⟩
    · rw [hleaf] at hmore
      exact absurd hmore (Nat.lt_irrefl t.openCount)
  · rintro ⟨frame, hframe⟩
    rw [opens, hframe]
    exact decide_eq_true (Nat.lt_succ_self _)

/-- A plain step opens no frame. It closes the top where it is one level above it. -/
theorem openCount_observe_of_plain (t : Tracer) {step : Step} (state : ChainState)
    (h : step.Plain) (hdepth : 1 ≤ step.depth) :
    (t.observe step state).tracer.openCount =
      (if step.depth + 1 = t.openCount then step.depth else t.openCount) ∧
    t.opens step state = false := by
  have hcount : (t.observe step state).tracer.openCount =
      if step.depth + 1 = t.openCount then step.depth else t.openCount := by
    rw [t.observe_of_plain state h]
    by_cases hback : step.depth + 1 = t.openCount
    · rw [if_pos hback, if_pos hback, openCount_close, openCount_sampleAllowance]
      omega
    · rw [if_neg hback, if_neg hback]
      exact t.openCount_sampleAllowance step
  refine ⟨hcount, ?_⟩
  rw [opens, hcount]
  split
  · simp only [decide_eq_false_iff_not]
    omega
  · simp

/-- A step of a machine that the tracer has kept up with: the tracer still keeps up exactly if the
step does not come back, or comes back in such a way that the return is noticed. -/
theorem openCount_observe_iff {t : Tracer} {position : Position} {step : Step} (state : ChainState)
    (herror : step.error = none) (hdepth : 1 ≤ step.depth) (hlevel : step.depth ≤ position.level)
    (h : t.openCount = position.level) :
    (t.observe step state).tracer.openCount = (t.position step state).level ↔
    (step.depth < position.level → step.depth + 1 = position.level ∧ step.Plain) := by
  by_cases hplain : step.Plain
  · obtain ⟨hcount, hopens⟩ := t.openCount_observe_of_plain state hplain hdepth
    have hposition : (t.position step state).level = step.depth := by
      simp [Tracer.position, Position.level, hopens]
    rw [hcount, hposition, h]
    split
    · simp [hplain]
      omega
    · omega
  · have hposition : (t.position step state).level =
        step.depth + if t.opens step state then 1 else 0 := rfl
    rw [t.openCount_observe_of_not_plain state herror hplain, hposition, h]
    constructor
    · intro hsame hback
      omega
    · intro hback
      have hnot : ¬step.depth < position.level := fun hlt => hplain (hback hlt).2
      omega

/-! ## 2. A run -/

theorem keepsUp_iff_of_openCount {t : Tracer} {position : Position} {events : List Event}
    (h : t.openCount = position.level) (hposition : 1 ≤ position.depth)
    (hfollows : t.Follows position events) :
    t.KeepsUp events ↔ t.NoticesReturns position events := by
  induction events generalizing t position with
  | nil => exact Iff.rfl
  | cons event events ih =>
    obtain ⟨step, state⟩ := event
    obtain ⟨herror, hleads, hrest⟩ := hfollows
    obtain ⟨hdepth, hlevel⟩ := Position.Leads.bounds hleads hposition
    have hstep := openCount_observe_iff state herror hdepth hlevel h
    constructor
    · rintro ⟨hcount, hkeeps⟩
      exact ⟨hstep.mp hcount, (ih hcount hdepth hrest).mp hkeeps⟩
    · rintro ⟨hback, hnotices⟩
      have hcount := hstep.mpr hback
      exact ⟨hcount, (ih hcount hdepth hrest).mpr hnotices⟩

/-- A new tracer keeps up with a machine, having after each step as many open frames as the
machine, if and only if each step back is plain and comes back by one frame. This is so whether or
not the steps are accepted. -/
theorem keepsUp_iff (settings : Settings) (events : List Event)
    (h : (fresh settings).Follows .start events) :
    (fresh settings).KeepsUp events ↔ (fresh settings).NoticesReturns .start events :=
  keepsUp_iff_of_openCount rfl (Nat.le_refl 1) h

/-! ## 3. A machine that runs ahead -/

/-- A call whose callee runs one step, and back in the caller at once another call. -/
def callTwice : List Event :=
  [⟨.emptyCall 1 100000 0, .empty⟩, ⟨.idle 2 50000 0, .empty⟩,
    ⟨.emptyCall 1 97400 1, .empty⟩]

theorem not_keepsUp_callTwice :
    (fresh {}).Follows .start callTwice ∧ (fresh {}).Accepts callTwice ∧
    ¬(fresh {}).KeepsUp callTwice := by
  refine ⟨?_, ⟨rfl, rfl, rfl, trivial⟩, ?_⟩
  · simp only [Follows, callTwice, Position.Leads, and_true]
    decide
  · simp only [KeepsUp, callTwice, and_true]
    decide

/-- Two calls, the one within the other, each with a plain step behind it, and a third call. -/
def callAndReturn : List Event :=
  [⟨.emptyCall 1 100000 0, .empty⟩, ⟨.emptyCall 2 50000 0, .empty⟩,
    ⟨.idle 3 20000 0, .empty⟩, ⟨.idle 2 40000 1, .empty⟩, ⟨.idle 1 90000 1, .empty⟩,
    ⟨.emptyCall 1 90000 0, .empty⟩]

theorem keepsUp_callAndReturn :
    (fresh {}).Follows .start callAndReturn ∧ (fresh {}).KeepsUp callAndReturn := by
  have hfollows : (fresh {}).Follows .start callAndReturn := by
    simp only [Follows, callAndReturn, Position.Leads, and_true]
    decide
  refine ⟨hfollows, (keepsUp_iff {} callAndReturn hfollows).mpr ?_⟩
  simp only [NoticesReturns, callAndReturn, and_true]
  decide

end Tracer

end CallTree
