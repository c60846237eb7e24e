import CallTree.Proofs.Forest.Basic
import CallTree.Proofs.Frame.Settling
import CallTree.Tracer.Session
import Mathlib.Logic.Relation

/-!
# Operations on a tracer

A host drives a tracer by `Operation`s, in any order and with any data; it goes on after a step
that was refused. `Tracer.after` is what becomes of a new tracer.

Whatever an operation does to the tree comes down to a few changes (`Change`): an open frame is
amended, a frame is opened, a frame is added that ends at once, or the top is closed and becomes a
child. So what every change keeps holds of every tracer that a host can reach.

Results:
1. `observe_of_error`, `observe_of_kind`, `observe_of_revert`, `observe_of_plain`: the four things
   that a step can be.
2. `changes_observe`, `changes_trace`: operations as changes.
3. `after_induction`: what every change keeps holds after any operations.
4. `observeAll_iff`, `trace_result`: a transaction takes in a run of steps, if all are accepted.
-/

namespace CallTree

/-- The step only works on the machine: it neither adds a frame, nor gives back the changes of one,
nor reports a failure. -/
structure Step.Plain (step : Step) : Prop where
  error : step.error = none
  kind : FrameKind.ofOpcode? step.opcode = none
  opcode : step.opcode ≠ revertOpcode

instance (step : Step) : Decidable step.Plain :=
  decidable_of_iff (step.error = none ∧ FrameKind.ofOpcode? step.opcode = none ∧
      step.opcode ≠ revertOpcode)
    ⟨fun h => ⟨h.1, h.2.1, h.2.2⟩, fun h => ⟨h.error, h.kind, h.opcode⟩⟩

theorem Step.Plain.adds_none {step : Step} (h : step.Plain) (kind : FrameKind) :
    FrameKind.ofOpcode? step.opcode ≠ some kind := by
  rw [h.kind]
  exact (Option.some_ne_none kind).symm

/-- A step reports a failure, adds a frame, gives back changes, or is plain. -/
theorem Step.sort_cases (step : Step) :
    (∃ message, step.error = some message) ∨
    (step.error = none ∧ ∃ kind, FrameKind.ofOpcode? step.opcode = some kind) ∨
    (step.error = none ∧ step.opcode = revertOpcode) ∨ step.Plain := by
  cases herror : step.error with
  | some message => exact .inl ⟨message, rfl⟩
  | none =>
    cases hkind : FrameKind.ofOpcode? step.opcode with
    | some kind => exact .inr (.inl ⟨rfl, kind, rfl⟩)
    | none =>
      by_cases hrevert : step.opcode = revertOpcode
      · exact .inr (.inr (.inl ⟨rfl, hrevert⟩))
      · exact .inr (.inr (.inr ⟨herror, hkind, hrevert⟩))

/-- A frame as it is when it is opened. -/
structure Frame.Opened (frame : Frame) : Prop where
  children : frame.children = []
  executes : frame.action.isSelfDestruct = false

/-- Grants gas to a frame, unless its gas is known. -/
def Frame.grant (gas : Gas) (frame : Frame) : Frame :=
  { frame with gas := frame.gas.or (some gas) }

/-- The frame gives back its changes. -/
def Frame.revert (frame : Frame) : Frame :=
  { frame with error := some Failure.revertedMessage }

/-- A step together with the chain state that it finds. -/
structure Event where
  step : Step
  state : ChainState

/-- A chain without accounts. -/
def ChainState.empty : ChainState where
  code _ := .ok []
  balance _ := .ok 0
  isBuiltIn _ := false

/-- A call of the account 100 with nothing to hand over or back, which finds a word on the stack. -/
def Step.emptyCall (depth : Nat) (gas : Gas) (found : Word) : Step where
  opcode := FrameKind.call.opcode
  operands := [found, 100, 0, 0, 0, 0, 0]
  gas := gas
  cost := 2600
  depth := depth

/-- An instruction that does nothing and finds a word on the stack. -/
def Step.idle (depth : Nat) (gas : Gas) (found : Word) : Step where
  opcode := 0
  operands := [found]
  gas := gas
  depth := depth

namespace Tracer

/-! ## 1. What the parts of a tracer do -/

/-- Changes the frame with a name. -/
def amend (t : Tracer) (id : FrameId) (f : Frame → Frame) : Tracer :=
  { t with forest := t.forest.modify id f }

/-- Closes the top, which becomes a child of the frame below it. The root stays open. -/
def pop (t : Tracer) : Tracer :=
  match t.inner with
  | [] => t
  | id :: rest => { t with inner := rest, forest := t.forest.addChild (topOf rest) id }

theorem top_mem_openIds (t : Tracer) : t.top ∈ t.openIds :=
  List.mem_of_mem_head? t.head?_openIds

theorem root_mem_openIds (t : Tracer) : rootId ∈ t.openIds :=
  List.mem_append_right _ List.mem_cons_self

theorem top_of_nil {t : Tracer} (h : t.inner = []) : t.top = rootId := by
  rw [top, h, topOf, List.headD_nil]

theorem top_of_cons {t : Tracer} {id : FrameId} {below : List FrameId} (h : t.inner = id :: below) :
    t.top = id := by
  rw [top, h, topOf, List.headD_cons]

/-- Closing the top touches nothing of a frame but its children. -/
theorem bind_get?_pop {α : Type} {view : Frame → Option α}
    (hview : ∀ (frame : Frame) children, view { frame with children := children } = view frame)
    (t : Tracer) (id : FrameId) :
    (t.pop.forest.get? id).bind view = (t.forest.get? id).bind view := by
  cases hinner : t.inner with
  | nil => simp only [pop, hinner]
  | cons last rest =>
    simp only [pop, hinner, Forest.addChild, Forest.get?_modify]
    split
    · rw [Option.bind_map]
      exact congrArg _ (funext fun frame => hview frame _)
    · rfl

/-- A change of one frame that leaves a view of it alone. -/
theorem bind_get?_amend {α : Type} {view : Frame → Option α} {f : Frame → Frame}
    (hview : ∀ frame, view (f frame) = view frame) (t : Tracer) (target id : FrameId) :
    ((t.amend target f).forest.get? id).bind view = (t.forest.get? id).bind view := by
  rw [amend, Forest.get?_modify]
  split
  · rw [Option.bind_map]
    exact congrArg _ (funext hview)
  · rfl

theorem get?_push_of_lt {t : Tracer} {id : FrameId} (hid : id < t.forest.size) (frame : Frame) :
    (t.push frame).forest.get? id = t.forest.get? id := by
  rw [push, Forest.get?_push, if_neg (Nat.ne_of_lt hid)]

/-- A frame that ends at once changes nothing of the others but the children of the top. -/
theorem bind_get?_pushLeaf {α : Type} {view : Frame → Option α}
    (hview : ∀ (frame : Frame) children, view { frame with children := children } = view frame)
    {t : Tracer} {id : FrameId} (hid : id < t.forest.size) (frame : Frame) :
    ((t.pushLeaf frame).forest.get? id).bind view = (t.forest.get? id).bind view := by
  rw [← get?_push_of_lt hid frame]
  exact bind_get?_amend (fun frame => hview frame _)
    { t with forest := t.forest.push frame } t.top id

theorem fail_eq (t : Tracer) (message : String) :
    t.fail message =
    if (t.forest.get? t.top).any Frame.failed then t
    else (t.amend t.top (Frame.fail message)).pop := by
  unfold fail pop amend
  cases t.inner <;> rfl

/-- Sampling leaves nothing awaited, whether or not gas is granted. -/
theorem sampleAllowance_eq (t : Tracer) (step : Step) :
    t.sampleAllowance step =
    { (if t.awaitsAllowance ∧ t.openCount ≤ step.depth then t.amend t.top (Frame.grant step.gas)
        else t) with awaitsAllowance := false } := by
  unfold sampleAllowance
  by_cases hawaits : t.awaitsAllowance
  · by_cases hdepth : t.openCount ≤ step.depth
    · simp only [if_pos hawaits, if_pos hdepth, if_pos (And.intro hawaits hdepth)]
      rfl
    · have hnot : ¬(t.awaitsAllowance ∧ t.openCount ≤ step.depth) := fun h => hdepth h.2
      simp only [if_pos hawaits, if_neg hdepth, if_neg hnot]
  · have hnot : ¬(t.awaitsAllowance ∧ t.openCount ≤ step.depth) := fun h => hawaits h.1
    rw [if_neg hawaits, if_neg hnot, ← Bool.eq_false_iff.mpr hawaits]

@[simp] theorem inner_sampleAllowance (t : Tracer) (step : Step) :
    (t.sampleAllowance step).inner = t.inner := by
  rw [sampleAllowance_eq]
  split <;> rfl

@[simp] theorem openCount_sampleAllowance (t : Tracer) (step : Step) :
    (t.sampleAllowance step).openCount = t.openCount := by
  simp only [openCount, inner_sampleAllowance]

theorem revertTop_eq (t : Tracer) : t.revertTop = t.amend t.top Frame.revert :=
  rfl

theorem close_of_nil {t : Tracer} (h : t.inner = []) (step : Step) (state : ChainState) :
    t.close step state = ⟨t, [.rootClose step.depth], .ok ()⟩ := by
  simp [close, h]

theorem close_of_cons {t : Tracer} {id : FrameId} {rest : List FrameId} (h : t.inner = id :: rest)
    (step : Step) (state : ChainState) :
    (t.close step state).tracer =
    (t.amend id fun frame => (frame.settle id step state t.settings.paddingLimit).frame).pop := by
  simp only [close, pop, amend, h]
  cases hframe : t.forest.get? id with
  | none =>
    rw [Forest.modify_self fun frame hsome => by rw [hframe] at hsome; cases hsome]
  | some frame =>
    have hsettled : t.forest.modify id
          (fun _ => (frame.settle id step state t.settings.paddingLimit).frame) =
        t.forest.modify id
          fun frame => (frame.settle id step state t.settings.paddingLimit).frame :=
      Forest.modify_congr fun other hother => by
        rw [hframe, Option.some.injEq] at hother
        rw [hother]
    rw [← hsettled]

theorem result_close {t : Tracer} {id : FrameId} {rest : List FrameId} {frame : Frame}
    (h : t.inner = id :: rest) (hframe : t.forest.get? id = some frame) (step : Step)
    (state : ChainState) :
    (t.close step state).result = (frame.settle id step state t.settings.paddingLimit).result := by
  simp only [close, h, hframe]

/-- An instruction of a kind leaves the tracer alone, opens a frame, or adds one that ends at
once. -/
theorem enter_cases (t : Tracer) (kind : FrameKind) (step : Step) (state : ChainState) :
    (t.enter kind step state).tracer = t ∨
    (∃ frame : Frame, frame.Opened ∧ (t.enter kind step state).tracer = t.push frame) ∨
    ∃ frame : Frame, frame.children = [] ∧ (t.enter kind step state).tracer = t.pushLeaf frame := by
  have creation : (t.enterCreation kind step).tracer = t ∨
      ∃ frame : Frame, frame.Opened ∧ (t.enterCreation kind step).tracer = t.push frame := by
    unfold enterCreation
    split
    · exact .inl rfl
    · exact .inr ⟨_, ⟨rfl, rfl⟩, rfl⟩
  have call : (t.enterCall kind step state).tracer = t ∨
      ∃ frame : Frame, frame.Opened ∧ (t.enterCall kind step state).tracer = t.push frame := by
    unfold enterCall
    split
    · exact .inl rfl
    split
    · exact .inl rfl
    split
    · exact .inl rfl
    split
    · exact .inl rfl
    · exact .inr ⟨_, ⟨rfl, rfl⟩, rfl⟩
  have selfDestruct : (t.addSelfDestruct step state).tracer = t ∨
      ∃ frame : Frame, frame.children = [] ∧
        (t.addSelfDestruct step state).tracer = t.pushLeaf frame := by
    unfold addSelfDestruct
    split
    · exact .inl rfl
    split
    · exact .inl rfl
    · exact .inr ⟨_, rfl, rfl⟩
  cases kind with
  | create | create2 => exact creation.imp_right .inl
  | selfDestruct => exact selfDestruct.imp_right .inr
  | call | callCode | delegateCall | staticCall => exact call.imp_right .inl

/-- An instruction that may add a frame changes nothing of those that are there but the children of
the top. -/
theorem bind_get?_enter {α : Type} {view : Frame → Option α}
    (hview : ∀ (frame : Frame) children, view { frame with children := children } = view frame)
    {t : Tracer} {id : FrameId} (hid : id < t.forest.size) (kind : FrameKind) (step : Step)
    (state : ChainState) :
    ((t.enter kind step state).tracer.forest.get? id).bind view =
    (t.forest.get? id).bind view := by
  rcases t.enter_cases kind step state with hsame | ⟨frame, -, hpush⟩ | ⟨frame, -, hleaf⟩
  · rw [hsame]
  · rw [hpush, get?_push_of_lt hid]
  · rw [hleaf, bind_get?_pushLeaf hview hid]

section

variable {step : Step} (t : Tracer) (state : ChainState)

theorem observe_of_error {message : String} (h : step.error = some message) :
    t.observe step state = .accepted (t.fail message) := by
  simp only [observe, h]

theorem observe_of_kind {kind : FrameKind} (h : step.error = none)
    (hkind : FrameKind.ofOpcode? step.opcode = some kind) :
    t.observe step state = t.enter kind step state := by
  simp only [observe, h, hkind]

theorem observe_of_revert (h : step.error = none) (hrevert : step.opcode = revertOpcode) :
    t.observe step state = .accepted (t.sampleAllowance step).revertTop := by
  have hkind : FrameKind.ofOpcode? step.opcode = none := hrevert ▸ by decide
  simp only [observe, h, hkind, if_pos hrevert]

theorem observe_of_plain (h : step.Plain) :
    t.observe step state =
    if step.depth + 1 = t.openCount then (t.sampleAllowance step).close step state
    else .accepted (t.sampleAllowance step) := by
  simp only [observe, h.error, h.kind, if_neg h.opcode, openCount_sampleAllowance]

end

/-! ## 2. Changes -/

/-- One tracer becomes another by a single change to its tree. -/
inductive Change : Tracer → Tracer → Prop
  | note {t t' : Tracer} : t'.forest = t.forest → t'.inner = t.inner → Change t t'
  | amend {t : Tracer} {id : FrameId} {f : Frame → Frame} :
      id ∈ t.openIds → Frame.Amends f → Change t (t.amend id f)
  | push {t : Tracer} {frame : Frame} : frame.Opened → Change t (t.push frame)
  | pushLeaf {t : Tracer} {frame : Frame} : frame.children = [] → Change t (t.pushLeaf frame)
  | pop {t : Tracer} : Change t t.pop

/-- One tracer becomes another by changes to its tree. -/
def Changes : Tracer → Tracer → Prop :=
  Relation.ReflTransGen Change

theorem changes_fail (t : Tracer) (message : String) : Changes t (t.fail message) := by
  rw [fail_eq]
  split
  · exact .refl
  · exact .tail (.single (.amend t.top_mem_openIds (Frame.amends_fail message))) .pop

theorem changes_sampleAllowance (t : Tracer) (step : Step) :
    Changes t (t.sampleAllowance step) := by
  rw [sampleAllowance_eq]
  split
  · refine .tail (.single (.amend t.top_mem_openIds ?_)) (.note rfl rfl)
    exact ⟨fun _ => rfl, fun _ h => h⟩
  · exact .single (.note rfl rfl)

theorem changes_revertTop (t : Tracer) : Changes t t.revertTop :=
  .single (.amend t.top_mem_openIds ⟨fun _ => rfl, fun _ h => h⟩)

theorem changes_close (t : Tracer) (step : Step) (state : ChainState) :
    Changes t (t.close step state).tracer := by
  cases h : t.inner with
  | nil =>
    rw [close_of_nil h]
    exact .refl
  | cons id rest =>
    rw [close_of_cons h]
    refine .tail (.single (.amend ?_ (Frame.amends_settle ..))) .pop
    simp [openIds, h]

theorem changes_enter (t : Tracer) (kind : FrameKind) (step : Step) (state : ChainState) :
    Changes t (t.enter kind step state).tracer := by
  rcases t.enter_cases kind step state with h | ⟨frame, hframe, h⟩ | ⟨frame, hframe, h⟩
  · rw [h]
    exact .refl
  · rw [h]
    exact .single (.push hframe)
  · rw [h]
    exact .single (.pushLeaf hframe)

theorem changes_observe (t : Tracer) (step : Step) (state : ChainState) :
    Changes t (t.observe step state).tracer := by
  have hsampled := t.changes_sampleAllowance step
  rcases step.sort_cases with ⟨message, h⟩ | ⟨h, kind, hkind⟩ | ⟨h, hrevert⟩ | h
  · rw [t.observe_of_error state h]
    exact t.changes_fail message
  · rw [t.observe_of_kind state h hkind]
    exact t.changes_enter kind step state
  · rw [t.observe_of_revert state h hrevert]
    exact hsampled.trans (changes_revertTop _)
  · rw [t.observe_of_plain state h]
    split
    · exact hsampled.trans (changes_close _ step state)
    · exact hsampled

theorem changes_finish (t : Tracer) (tx : Transaction) : Changes t (t.finish tx) := by
  refine .tail (.single (.amend t.root_mem_openIds (f := Frame.describe tx) ⟨fun _ => rfl, fun _ _ => ?_⟩))
    (.note rfl rfl)
  simp only [Frame.describe, Transaction.action]
  split <;> rfl

/-! ## 3. Operations -/

/-- What a host can ask of a tracer. -/
inductive Operation
  | observe (step : Step) (state : ChainState)
  | fail (message : String)
  | finish (tx : Transaction)
  | reset
  | trace (steps : List Step) (state : ChainState) (tx : Transaction)

/-- The tracer after an operation, whether or not it was refused. -/
def perform (t : Tracer) : Operation → Tracer
  | .observe step state => (t.observe step state).tracer
  | .fail message => t.fail message
  | .finish tx => t.finish tx
  | .reset => t.reset
  | .trace steps state tx => (t.trace steps state tx).tracer

/-- A new tracer after some operations. -/
def after (settings : Settings) (operations : List Operation) : Tracer :=
  operations.foldl perform (fresh settings)

/-- What each step keeps is kept when steps are taken in until one is refused. -/
theorem observeAll_induction {P : Tracer → Prop} {state : ChainState}
    (step : ∀ {t} step, P t → P (t.observe step state).tracer) {t : Tracer} (h : P t)
    (steps : List Step) : P (t.observeAll steps state).tracer := by
  refine List.foldlRecOn (motive := fun outcome : Outcome Unit => P outcome.tracer) steps _ h
    fun outcome h first _ => ?_
  unfold Outcome.next
  split
  · exact h
  · exact step first h

theorem changes_observeAll (t : Tracer) (steps : List Step) (state : ChainState) :
    Changes t (t.observeAll steps state).tracer :=
  observeAll_induction (fun step h => h.trans (changes_observe _ step state)) .refl steps

theorem changes_trace (t : Tracer) (steps : List Step) (state : ChainState) (tx : Transaction) :
    Changes t.reset (t.trace steps state tx).tracer := by
  have hobserved := t.reset.changes_observeAll steps state
  simp only [trace]
  split
  · exact hobserved
  · exact hobserved.trans (changes_finish _ tx)

/-- What holds of a new tracer and is kept by every change holds of every tracer that a host can
reach. -/
theorem after_induction {P : Tracer → Prop} (start : ∀ settings, P (fresh settings))
    (step : ∀ {t t'}, P t → Change t t' → P t') (settings : Settings)
    (operations : List Operation) : P (after settings operations) := by
  have onward : ∀ {t t'}, P t → Changes t t' → P t' := by
    intro t t' ht h
    induction h with
    | refl => exact ht
    | tail _ hchange ih => exact step ih hchange
  refine List.foldlRecOn operations perform (start settings) fun t ht operation _ => ?_
  cases operation with
  | observe step state => exact onward ht (t.changes_observe step state)
  | fail message => exact onward ht (t.changes_fail message)
  | finish tx => exact onward ht (t.changes_finish tx)
  | reset => exact start _
  | trace steps state tx => exact onward (start _) (t.changes_trace steps state tx)

/-! ## 4. Runs -/

/-- Takes in steps one after the other and goes on after one that is refused. -/
def observeOn (t : Tracer) (events : List Event) : Tracer :=
  events.foldl (fun t event => (t.observe event.step event.state).tracer) t

/-- Every step is accepted. -/
def Accepts (t : Tracer) : List Event → Prop
  | [] => True
  | ⟨step, state⟩ :: events =>
    (t.observe step state).result = .ok () ∧ Accepts (t.observe step state).tracer events

/-- A run whose first step is accepted. -/
theorem run_cons {t t' : Tracer} {event : Event}
    (h : (t.observe event.step event.state).tracer = t')
    (hresult : (t.observe event.step event.state).result = .ok ()) (events : List Event) :
    t.observeOn (event :: events) = t'.observeOn events ∧
    (t.Accepts (event :: events) ↔ t'.Accepts events) := by
  subst h
  exact ⟨rfl, and_iff_right hresult⟩

theorem run_accepted {t t' : Tracer} {event : Event}
    (h : t.observe event.step event.state = .accepted t') (events : List Event) :
    t.observeOn (event :: events) = t'.observeOn events ∧
    (t.Accepts (event :: events) ↔ t'.Accepts events) :=
  run_cons (congrArg Outcome.tracer h) (congrArg Outcome.result h) events

theorem observeOn_append (t : Tracer) (events others : List Event) :
    t.observeOn (events ++ others) = (t.observeOn events).observeOn others :=
  List.foldl_append

theorem accepts_append {t : Tracer} {events others : List Event} :
    t.Accepts (events ++ others) ↔ t.Accepts events ∧ (t.observeOn events).Accepts others := by
  induction events generalizing t with
  | nil => exact (and_iff_right trivial).symm
  | cons event events ih =>
    show (_ ∧ Accepts _ (events ++ others)) ↔ (_ ∧ Accepts _ events) ∧ _
    rw [ih, and_assoc]
    rfl

/-- After a refusal no step is taken in. -/
theorem foldl_next_of_error {state : ChainState} {outcome : Outcome Unit} {e : Refusal}
    (h : outcome.result = .error e) (steps : List Step) :
    steps.foldl (Outcome.next state) outcome = outcome := by
  have hstays : ∀ step, outcome.next state step = outcome := by
    intro step
    simp only [Outcome.next, h]
  induction steps with
  | nil => rfl
  | cons step steps ih => rw [List.foldl_cons, hstays, ih]

theorem foldl_next_of_ok {state : ChainState} {outcome : Outcome Unit} (h : outcome.result = .ok ())
    (steps : List Step) :
    ((steps.foldl (Outcome.next state) outcome).result = .ok () ↔
      outcome.tracer.Accepts (steps.map (⟨·, state⟩))) ∧
    (outcome.tracer.Accepts (steps.map (⟨·, state⟩)) →
      (steps.foldl (Outcome.next state) outcome).tracer =
        outcome.tracer.observeOn (steps.map (⟨·, state⟩))) := by
  induction steps generalizing outcome with
  | nil => exact ⟨iff_of_true h trivial, fun _ => rfl⟩
  | cons step steps ih =>
    have hnext : outcome.next state step = { outcome.tracer.observe step state with
        warnings := outcome.warnings ++ (outcome.tracer.observe step state).warnings } := by
      simp only [Outcome.next, h]
    simp only [List.foldl_cons, List.map_cons, Accepts]
    cases hresult : (outcome.tracer.observe step state).result with
    | error e =>
      have hrefused : (outcome.next state step).result = .error e := hnext ▸ hresult
      rw [foldl_next_of_error hrefused, hnext]
      simp only [hresult]
      exact ⟨iff_of_false (fun h => by cases h) (fun h => by cases h.1), fun h => by cases h.1⟩
    | ok u =>
      have htail : (outcome.next state step).tracer = (outcome.tracer.observe step state).tracer := by
        rw [hnext]
      have haccepted : (outcome.next state step).result = .ok () := hnext ▸ hresult
      obtain ⟨hresults, htracer⟩ := ih haccepted
      rw [htail] at hresults htracer
      exact ⟨hresults.trans (and_iff_right rfl).symm, fun haccepts => htracer haccepts.2⟩

/-- Taking in steps until one is refused is taking in all of them, if none is refused. -/
theorem observeAll_iff (t : Tracer) (steps : List Step) (state : ChainState) :
    ((t.observeAll steps state).result = .ok () ↔ t.Accepts (steps.map (⟨·, state⟩))) ∧
    (t.Accepts (steps.map (⟨·, state⟩)) →
      (t.observeAll steps state).tracer = t.observeOn (steps.map (⟨·, state⟩))) :=
  foldl_next_of_ok rfl steps

/-- A transaction gives its records if every step is accepted, and no records otherwise. -/
theorem trace_result (t : Tracer) (steps : List Step) (state : ChainState) (tx : Transaction) :
    (t.reset.Accepts (steps.map (⟨·, state⟩)) → (t.trace steps state tx).result =
      .ok ((t.reset.observeOn (steps.map (⟨·, state⟩))).finish tx).records) ∧
    ∀ records, (t.trace steps state tx).result = .ok records →
      t.reset.Accepts (steps.map (⟨·, state⟩)) := by
  obtain ⟨hresult, htracer⟩ := t.reset.observeAll_iff steps state
  constructor
  · intro haccepts
    simp only [trace, hresult.mpr haccepts, htracer haccepts]
  · intro records h
    refine hresult.mp ?_
    cases hobserved : (t.reset.observeAll steps state).result with
    | ok u => rfl
    | error e =>
      simp only [trace, hobserved] at h
      cases h

end Tracer

end CallTree
