import CallTree.Proofs.Tracer.Allowance
import CallTree.Proofs.Tracer.Openings
import CallTree.Proofs.Tracer.Standing

/-!
# What a frame keeps for its close

An instruction that opens a frame leaves with it what is to be settled at its close: the gas of the
caller, and for a call the place of its output. The frame keeps this while it is open, and drops it
when it is closed, whether it returns, fails with a report, or returns to a step that is refused for
want of a code.

There is one exception. A step back in the caller which shows an empty stack closes the frame and is
refused before anything is settled. Such a frame keeps for good what was to be settled at its close.

Results:
1. `Frame.opening_settle`, `Frame.lasting_kept`: one frame.
2. `Nested.observe_of_closesEmpty`: a step that closes the top and shows an empty stack.
3. `each_pending`, `ClosedWithoutOutcome.keeps`: a run.
4. `pending_after`: every run. `not_keepsWhileOpen_emptyStackAfterCall`: the exception.
-/

namespace CallTree

/-! ## 1. One frame -/

namespace Frame

/-- What is to be settled names a place for the output if and only if the frame is a call. -/
def Fits (frame : Frame) : Prop :=
  ∀ opening, frame.opening = some opening → (opening.returnRegion.isSome ↔ frame.action.isCall)

/-- A frame is as an open one should be: only the root has nothing to settle. -/
structure KeptOpen (id : FrameId) (frame : Frame) : Prop where
  opening : frame.opening.isSome ↔ id ≠ rootId
  fits : frame.Fits

/-- A frame is as a closed one should be: it has nothing to settle, unless it is excused. -/
structure KeptClosed (excused : FrameId → Prop) (id : FrameId) (frame : Frame) : Prop where
  opening : frame.opening.isSome → excused id
  fits : frame.Fits

variable {frame : Frame} {excused : FrameId → Prop} {id : FrameId}

theorem fits_of_none (h : frame.opening = none) : frame.Fits := by
  intro opening hopening
  rw [h] at hopening
  cases hopening

theorem keptClosed_of_none (h : frame.opening = none) : frame.KeptClosed excused id := by
  refine ⟨fun hsome => ?_, fits_of_none h⟩
  rw [h] at hsome
  cases hsome

theorem keptOpen_root (h : frame.opening = none) : frame.KeptOpen rootId :=
  ⟨by simp [h], fits_of_none h⟩

/-- A close that finds an outcome settles all that there is to be settled. -/
theorem opening_settle {step : Step} (h : step.operands ≠ []) (frame : Frame) (id : FrameId)
    (state : ChainState) (limit : UInt64) :
    (frame.settle id step state limit).frame.opening = none := by
  have hword := Step.operand_of_lt (List.length_pos_iff.mpr h)
  cases haction : frame.action with
  | create => rw [settle_creation hword id state limit haction]
  | call => rw [settle_call hword id state limit haction]
  | selfDestruct => simp only [settle, hword, haction]

/-- What an instruction leaves to be settled fits the frame that it opens. -/
theorem fits_openedFrame (step : Step) (settings : Settings) (kind : FrameKind) :
    (step.openedFrame settings kind).Fits := by
  intro opening hopening
  obtain rfl := Option.some.inj hopening
  by_cases hkind : kind.isCreation <;>
    simp [Step.openedFrame, Step.opened, hkind, Action.isCall]

theorem lasting_kept (excused : FrameId → Prop) : Lasting KeptOpen (KeptClosed excused) where
  root := keptOpen_root rfl
  child _ h := ⟨h.opening, h.fits⟩
  grant _ h := ⟨h.opening, h.fits⟩
  revert h := ⟨h.opening, h.fits⟩
  failRoot _ _ := keptOpen_root rfl
  fail _ _ _ := keptClosed_of_none rfl
  push settings _ hne := ⟨iff_of_true rfl hne, fits_openedFrame _ settings _⟩
  leaf _ := keptClosed_of_none rfl

end Frame

namespace Tracer

variable {settings : Settings} {operations : List Operation} {operation : Operation} {id : FrameId}
  {step : Step} {t : Tracer}

/-! ## 2. Frames that are closed without an outcome -/

/-- A step closes the top and shows an empty stack. -/
structure ClosesEmpty (t : Tracer) (step : Step) : Prop where
  closes : t.Closes step
  empty : step.operands = []

/-- In the course of some operations, and since the transaction began, the frame was closed by a step
that showed an empty stack. -/
def ClosedWithoutOutcome (settings : Settings) (operations : List Operation) (id : FrameId) : Prop :=
  ∃ earlier step state later, operations = earlier ++ .observe step state :: later ∧
    (after settings earlier).ClosesEmpty step ∧ (after settings earlier).top = id ∧
    ∀ operation ∈ later, operation.Continues

theorem closedWithoutOutcome_concat :
    ClosedWithoutOutcome settings (operations ++ [operation]) id ↔
    (operation.Continues ∧ ClosedWithoutOutcome settings operations id) ∨
    ∃ step state, operation = .observe step state ∧ (after settings operations).ClosesEmpty step ∧
      (after settings operations).top = id := by
  constructor
  · rintro ⟨earlier, step, state, later, hsplit, hempty, htop, hlater⟩
    rcases List.eq_nil_or_concat' later with rfl | ⟨before, last, rfl⟩
    · obtain ⟨rfl, hlast⟩ := List.append_inj' hsplit rfl
      exact .inr ⟨step, state, (List.cons.inj hlast).1, hempty, htop⟩
    · have hsplit' : operations ++ [operation] =
          (earlier ++ .observe step state :: before) ++ [last] := by simpa using hsplit
      obtain ⟨rfl, hlast⟩ := List.append_inj' hsplit' rfl
      obtain rfl := (List.cons.inj hlast).1
      refine .inl ⟨hlater _ (List.mem_append_right _ List.mem_cons_self), ?_⟩
      exact ⟨earlier, step, state, before, rfl, hempty, htop, fun other hother =>
        hlater other (List.mem_append_left _ hother)⟩
  · rintro (⟨hcontinues, earlier, step, state, later, rfl, hempty, htop, hlater⟩ |
      ⟨step, state, rfl, hempty, htop⟩)
    · refine ⟨earlier, step, state, later ++ [operation], by simp, hempty, htop, ?_⟩
      intro other hother
      rcases List.mem_append.mp hother with hmem | hmem
      · exact hlater other hmem
      · exact List.mem_singleton.mp hmem ▸ hcontinues
    · exact ⟨operations, step, state, [], rfl, hempty, htop, fun _ h => by cases h⟩

theorem changes_perform (t : Tracer) (h : operation.Continues) : Changes t (t.perform operation) := by
  cases operation with
  | observe step state => exact t.changes_observe step state
  | fail message => exact t.changes_fail message
  | finish tx => exact t.changes_finish tx
  | reset | trace => cases h

theorem changes_foldl (t : Tracer) (h : ∀ operation ∈ operations, operation.Continues) :
    Changes t (operations.foldl perform t) := by
  refine List.foldlRecOn operations perform .refl fun t' ht operation hmem => ?_
  exact ht.trans (t'.changes_perform (h operation hmem))

/-- What a frame keeps for its close. -/
def openingOf (t : Tracer) (id : FrameId) : Option Opening :=
  (t.forest.get? id).bind (·.opening)

/-- A step that shows an empty stack closes the top and leaves with each frame what it kept. -/
theorem Nested.observe_of_closesEmpty (h : t.Nested) (hempty : t.ClosesEmpty step)
    (state : ChainState) :
    (t.observe step state).tracer.inner = t.inner.tail ∧
    (t.observe step state).tracer.Closed t.top ∧
    ∀ id, (t.observe step state).tracer.openingOf id = t.openingOf id := by
  obtain ⟨top, below, frame, hinner, -, -, htracer, -⟩ := h.observe_of_closes hempty.closes state
  have htop := top_of_cons hinner
  have hclosed := h.closed_pop (hinner ▸ List.cons_ne_nil top below) fun frame =>
    (frame.settle t.top step state t.settings.paddingLimit).frame
  have hpop : (t.observe step state).tracer =
      { (t.amend t.top fun frame =>
          (frame.settle t.top step state t.settings.paddingLimit).frame).pop with
        awaitsAllowance := false } := by
    rw [htracer]
    simp only [Tracer.pop, Tracer.amend, hinner, htop]
  refine ⟨by rw [htracer, hinner, List.tail_cons], ?_, fun id => ?_⟩
  · rw [hpop]
    exact ⟨hclosed.known, hclosed.closed⟩
  · rw [hpop]
    refine (bind_get?_pop (fun _ _ => rfl) _ id).trans (bind_get?_amend (fun frame => ?_) t t.top id)
    rw [Frame.settle_of_nil hempty.empty]

/-! ## 3. A run -/

/-- The operation is not the whole of a transaction. -/
def Operation.Single : Operation → Prop
  | .observe .. | .fail .. | .finish .. | .reset => True
  | .trace .. => False

/-- Open frames keep what is to be settled, and closed frames do not, unless they were closed without
an outcome. -/
theorem each_pending (settings : Settings) {operations : List Operation}
    (hsingle : ∀ operation ∈ operations, operation.Single) :
    (after settings operations).Each Frame.KeptOpen
      (Frame.KeptClosed (ClosedWithoutOutcome settings operations)) := by
  induction operations using List.reverseRecOn with
  | nil => exact .fresh (Frame.keptOpen_root rfl) settings
  | append_singleton operations operation ih =>
    have hbefore := ih fun other hother => hsingle other (List.mem_append_left _ hother)
    have hlast := hsingle operation (List.mem_append_right _ List.mem_cons_self)
    have hnested := nested_after settings operations
    have hlasting := Frame.lasting_kept (ClosedWithoutOutcome settings (operations ++ [operation]))
    -- What was excused before is excused still, as long as the transaction goes on.
    have hstill (hcontinues : operation.Continues) : (after settings operations).Each Frame.KeptOpen
        (Frame.KeptClosed (ClosedWithoutOutcome settings (operations ++ [operation]))) :=
      hbefore.mono fun _ _ h => ⟨fun hsome =>
        closedWithoutOutcome_concat.mpr (.inl ⟨hcontinues, h.opening hsome⟩), h.fits⟩
    rw [after_concat]
    cases operation with
    | observe step state =>
      refine (hstill trivial).observe hlasting hnested step state fun hcloses frame _ hopened => ?_
      by_cases hnil : step.operands = []
      · rw [Frame.settle_of_nil hnil]
        exact ⟨fun _ => closedWithoutOutcome_concat.mpr
          (.inr ⟨step, state, rfl, ⟨hcloses, hnil⟩, rfl⟩), hopened.fits⟩
      · exact Frame.keptClosed_of_none (Frame.opening_settle hnil ..)
    | fail message => exact (hstill trivial).fail hlasting hnested message
    | finish tx => exact (hstill trivial).finish (fun tx _ => Frame.keptOpen_root rfl) tx
    | reset => exact .fresh (Frame.keptOpen_root rfl) _
    | trace => cases hlast

/-- A frame that was closed without an outcome is closed, and it keeps what was to be settled. -/
theorem ClosedWithoutOutcome.keeps (h : ClosedWithoutOutcome settings operations id)
    (hsingle : ∀ operation ∈ operations, operation.Single) :
    (after settings operations).Closed id ∧ ((after settings operations).openingOf id).isSome := by
  obtain ⟨earlier, step, state, later, rfl, hempty, rfl, hlater⟩ := h
  have hnested := nested_after settings earlier
  obtain ⟨-, hclosed, hkept⟩ := hnested.observe_of_closesEmpty hempty state
  have hrest : Changes ((after settings earlier).observe step state).tracer
      (after settings (earlier ++ .observe step state :: later)) := by
    rw [after, after, List.foldl_append]
    exact changes_foldl _ hlater
  obtain ⟨hfinal, hsame⟩ := hrest.final hclosed
  refine ⟨hfinal, ?_⟩
  obtain ⟨top, below, hinner⟩ := hempty.closes.exists_inner_eq
  have hopened := (each_pending settings fun other hother =>
    hsingle other (List.mem_append_left _ hother)).opened _ (top_mem_openIds _)
  have hne : (after settings earlier).top ≠ rootId := by
    rw [top_of_cons hinner]
    exact hnested.ne_root (hinner ▸ List.mem_cons_self)
  obtain ⟨frame, hframe⟩ := Forest.exists_get? hnested.top_lt
  rw [openingOf, hsame, ← openingOf, hkept, openingOf, hframe]
  exact (hopened frame hframe).opening.mpr hne

/-! ## 4. Every run -/

/-- Exactly the open frames above the root keep something for their close. -/
def KeepsWhileOpen (t : Tracer) : Prop :=
  ∀ id, (t.openingOf id).isSome ↔ id ∈ t.inner

section

variable (hsingle : ∀ operation ∈ operations, operation.Single)
include hsingle

theorem isSome_openingOf_iff (settings : Settings) (id : FrameId) :
    ((after settings operations).openingOf id).isSome ↔
    id ∈ (after settings operations).inner ∨ ClosedWithoutOutcome settings operations id := by
  have hnested := nested_after settings operations
  have heach := each_pending settings hsingle
  constructor
  · intro hsome
    obtain ⟨opening, hopening⟩ := Option.isSome_iff_exists.mp hsome
    obtain ⟨frame, hframe, hkeeps⟩ := Option.bind_eq_some_iff.mp hopening
    have hisSome : frame.opening.isSome := Option.isSome_of_eq_some hkeeps
    by_cases hopen : id ∈ (after settings operations).openIds
    · have hne := (heach.opened id hopen frame hframe).opening.mp hisSome
      refine .inl ((List.mem_append.mp hopen).resolve_right fun hroot => hne ?_)
      exact List.mem_singleton.mp hroot
    · exact .inr ((heach.closed id hopen frame hframe).opening hisSome)
  · rintro (hinner | hempty)
    · have hopen : id ∈ (after settings operations).openIds := List.mem_append_left _ hinner
      obtain ⟨frame, hframe⟩ := Forest.exists_get? (hnested.mem_lt hopen)
      rw [openingOf, hframe]
      exact (heach.opened id hopen frame hframe).opening.mpr (hnested.ne_root hinner)
    · exact (hempty.keeps hsingle).2

/-- The frames keep something for their closes exactly while they are open, if and only if none was
closed without an outcome. -/
theorem keepsWhileOpen_iff (settings : Settings) :
    (after settings operations).KeepsWhileOpen ↔
    ∀ id, ¬ClosedWithoutOutcome settings operations id := by
  constructor
  · intro hkeeps id hempty
    obtain ⟨hclosed, hsome⟩ := hempty.keeps hsingle
    exact hclosed.closed (List.mem_append_left _ ((hkeeps id).mp hsome))
  · exact fun hnever id =>
      (isSome_openingOf_iff hsingle settings id).trans (or_iff_left (hnever id))

/-- An operation that closes a frame leaves it something to settle only if it is a step that shows an
empty stack. -/
theorem isSome_openingOf_closing (settings : Settings) (hlast : operation.Single)
    (hopen : id ∈ (after settings operations).inner)
    (hclosed : id ∉ (after settings (operations ++ [operation])).inner) :
    ((after settings (operations ++ [operation])).openingOf id).isSome ↔
    ∃ step state, operation = .observe step state ∧
      (after settings operations).ClosesEmpty step := by
  have hnested := nested_after settings operations
  have hall : ∀ other ∈ operations ++ [operation], other.Single := by
    intro other hother
    rcases List.mem_append.mp hother with hmem | hmem
    · exact hsingle other hmem
    · exact List.mem_singleton.mp hmem ▸ hlast
  rw [isSome_openingOf_iff hall, or_iff_right hclosed, closedWithoutOutcome_concat]
  constructor
  · rintro (⟨-, hempty⟩ | ⟨step, state, hobserve, hempty, -⟩)
    · exact absurd (List.mem_append_left _ hopen) (hempty.keeps hsingle).1.closed
    · exact ⟨step, state, hobserve, hempty⟩
  · rintro ⟨step, state, rfl, hempty⟩
    obtain ⟨top, below, hinner⟩ := hempty.closes.exists_inner_eq
    obtain ⟨hleft, -, -⟩ := hnested.observe_of_closesEmpty hempty state
    rw [after_concat, perform, hleft, hinner] at hclosed
    rw [hinner] at hopen
    refine .inr ⟨step, state, rfl, hempty, (top_of_cons hinner).trans ?_⟩
    exact ((List.mem_cons.mp hopen).resolve_right hclosed).symm

end

/-- What the frames keep for their closes after some operations. -/
structure Pends (settings : Settings) (operations : List Operation) : Prop where
  kept : ∀ id, ((after settings operations).openingOf id).isSome ↔
    id ∈ (after settings operations).inner ∨ ClosedWithoutOutcome settings operations id
  whileOpen : (after settings operations).KeepsWhileOpen ↔
    ∀ id, ¬ClosedWithoutOutcome settings operations id
  fits : ∀ id frame, (after settings operations).forest.get? id = some frame → frame.Fits
  closing : ∀ operation id, operation.Single → id ∈ (after settings operations).inner →
    id ∉ (after settings (operations ++ [operation])).inner →
    (((after settings (operations ++ [operation])).openingOf id).isSome ↔
      ∃ step state, operation = .observe step state ∧
        (after settings operations).ClosesEmpty step)

/-- Whatever a host asks for, be it refused or not, the frames that keep something for their close are
the open ones above the root and those that were closed by a step which showed an empty stack. What
they keep names a place for the output exactly if they are calls. -/
theorem pending_after (settings : Settings) (operations : List Operation)
    (hsingle : ∀ operation ∈ operations, operation.Single) : Pends settings operations where
  kept := isSome_openingOf_iff hsingle settings
  whileOpen := keepsWhileOpen_iff hsingle settings
  fits id frame hframe := by
    have heach := each_pending settings hsingle
    by_cases hopen : id ∈ (after settings operations).openIds
    · exact (heach.opened id hopen frame hframe).fits
    · exact (heach.closed id hopen frame hframe).fits
  closing _ _ hlast hopen hclosed := isSome_openingOf_closing hsingle settings hlast hopen hclosed

/-- A creation calls an account, and the call fails with a report. The creation returns to a step
that is refused, as the code of the new account cannot be looked up. -/
def unansweredCreation : List Operation :=
  [.observe ⟨FrameKind.create.opcode, [0, 0, 0], [], 100000, 32000, 1, 0, none⟩ .empty,
    .observe (.emptyCall 2 60000 0) .empty, .fail "out of gas",
    .observe (.idle 1 50000 7)
      ⟨fun address => .error (.code address "no such page"), fun _ => .ok 0, fun _ => false⟩]

theorem pending_after_unansweredCreation :
    let keeps := fun count => (List.range 3).map fun id =>
      ((after {} (unansweredCreation.take count)).openingOf id).isSome
    (∀ operation ∈ unansweredCreation, operation.Single) ∧
    keeps 2 = [false, true, true] ∧ keeps 3 = [false, true, false] ∧ keeps 4 = [false, false, false] ∧
    Pends {} unansweredCreation := by
  have hsingle : ∀ operation ∈ unansweredCreation, operation.Single := by
    simp [unansweredCreation, Operation.Single]
  exact ⟨hsingle, by decide, by decide, by decide, pending_after {} unansweredCreation hsingle⟩

/-- A call that returns to a step with an empty stack. -/
def emptyStackAfterCall : List Operation :=
  [.observe (.emptyCall 1 100000 0) .empty, .observe { opcode := 0, gas := 97400, depth := 1 } .empty]

/-- The call is closed and keeps what was to be settled. -/
theorem not_keepsWhileOpen_emptyStackAfterCall :
    (after {} emptyStackAfterCall).inner = [] ∧
    (after {} emptyStackAfterCall).openingOf 1 = some ⟨100000, 2600, some ⟨0, 0⟩⟩ ∧
    ¬(after {} emptyStackAfterCall).KeepsWhileOpen := by
  have hclosed : (after {} emptyStackAfterCall).inner = [] := by decide
  have hkept : (after {} emptyStackAfterCall).openingOf 1 = some ⟨100000, 2600, some ⟨0, 0⟩⟩ := by
    decide
  refine ⟨hclosed, hkept, fun hkeeps => ?_⟩
  have hopen := (hkeeps 1).mp (hkept ▸ rfl)
  rw [hclosed] at hopen
  cases hopen

end Tracer

end CallTree
