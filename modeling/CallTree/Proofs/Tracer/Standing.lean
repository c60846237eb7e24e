import CallTree.Proofs.Tracer.Lifetime

/-!
# What holds of each frame

Much of what is true of the frames of a tracer is true of each of them by itself, but of an open
frame it is another thing than of a closed one. `Tracer.Each P Q` says that every open frame has the
property `P` and every closed one the property `Q`.

That both properties last is seen from a single frame (`Lasting`): from what may be done to it
while it is open, and from the ways in which it gets closed. One of these ways is left out, as it
depends on a step that belongs to another frame: the first step back in the caller.

Results:
1. `Each.amend`, `Each.push`, `Each.pushLeaf`, `Each.close`: the parts of a tracer.
2. `Each.fail`, `Each.observe`: reports and steps.
3. `each_after`: any tracer that a host can reach.
-/

namespace CallTree

/-- A property `P` of open frames lasts, and a frame that is added or fails has the property `Q` of
closed frames. -/
structure Lasting (P Q : FrameId → Frame → Prop) : Prop where
  root : P rootId Tracer.unknownRoot
  child : ∀ {id frame} (child : FrameId), P id frame →
    P id { frame with children := frame.children ++ [child] }
  grant : ∀ {id frame} (gas : Gas), P id frame → P id (frame.grant gas)
  revert : ∀ {id frame}, P id frame → P id frame.revert
  failRoot : ∀ {frame} (message : String), P rootId frame → P rootId (frame.fail message)
  fail : ∀ {id frame} (message : String), id ≠ rootId → P id frame → Q id (frame.fail message)
  push : ∀ {id} {step : Step} {state : ChainState} {kind : FrameKind} (settings : Settings),
    step.Opens state kind step.depth → id ≠ rootId → P id (step.openedFrame settings kind)
  leaf : ∀ {id} {step : Step} {state : ChainState},
    step.SelfDestructs state step.depth → Q id (step.leaf state)

namespace Tracer

/-- Each open frame has the property `P`, and each closed frame has the property `Q`. -/
structure Each (t : Tracer) (P Q : FrameId → Frame → Prop) : Prop where
  opened : ∀ id ∈ t.openIds, ∀ frame, t.forest.get? id = some frame → P id frame
  closed : ∀ id, id ∉ t.openIds → ∀ frame, t.forest.get? id = some frame → Q id frame

variable {t t' : Tracer} {P Q : FrameId → Frame → Prop} {id : FrameId} {f : Frame → Frame}

namespace Each

/-! ## 1. The parts of a tracer -/

theorem fresh (hroot : P rootId unknownRoot) (settings : Settings) : (fresh settings).Each P Q := by
  have hget : ∀ id frame, (Tracer.fresh settings).forest.get? id = some frame →
      id = rootId ∧ frame = unknownRoot := by
    intro id frame hframe
    have hid : ¬(Tracer.fresh settings).forest.size ≤ id := fun hle => by
      rw [Forest.get?_eq_none_iff.mpr hle] at hframe
      cases hframe
    obtain rfl : id = rootId := Nat.lt_one_iff.mp (Nat.lt_of_not_le hid)
    exact ⟨rfl, (Option.some.inj hframe).symm⟩
  constructor
  · intro id _ frame hframe
    obtain ⟨rfl, rfl⟩ := hget id frame hframe
    exact hroot
  · intro id hid frame hframe
    obtain ⟨rfl, rfl⟩ := hget id frame hframe
    exact absurd List.mem_cons_self hid

/-- Only the frames matter, and which of them are open. -/
theorem note (h : t.Each P Q) (hforest : t'.forest = t.forest) (hinner : t'.inner = t.inner) :
    t'.Each P Q := by
  have hopen : t'.openIds = t.openIds := by rw [openIds, openIds, hinner]
  exact ⟨hforest ▸ hopen ▸ h.opened, hforest ▸ hopen ▸ h.closed⟩

/-- A weaker property of closed frames. -/
theorem mono {Q' : FrameId → Frame → Prop} (h : t.Each P Q)
    (hweaker : ∀ id frame, Q id frame → Q' id frame) : t.Each P Q' :=
  ⟨h.opened, fun id hid frame hframe => hweaker id frame (h.closed id hid frame hframe)⟩

theorem amend (h : t.Each P Q) (hid : id ∈ t.openIds) (hf : ∀ frame, P id frame → P id (f frame)) :
    (t.amend id f).Each P Q := by
  constructor
  · intro other hother frame hframe
    rw [Tracer.amend, Forest.get?_modify] at hframe
    split at hframe
    next hsame =>
      subst hsame
      obtain ⟨before, hbefore, rfl⟩ := Option.map_eq_some_iff.mp hframe
      exact hf before (h.opened id hother before hbefore)
    · exact h.opened other hother frame hframe
  · intro other hother frame hframe
    have hne : id ≠ other := by
      rintro rfl
      exact hother hid
    rw [Tracer.amend, Forest.get?_modify, if_neg hne] at hframe
    exact h.closed other hother frame hframe

theorem push (h : t.Each P Q) {frame : Frame} (hframe : P t.forest.size frame) :
    (t.push frame).Each P Q := by
  constructor
  · intro id hid other hother
    rw [Tracer.push, Forest.get?_push] at hother
    split at hother
    next hnew =>
      cases hother
      exact hnew ▸ hframe
    next hne => exact h.opened id ((List.mem_cons.mp hid).resolve_left hne) other hother
  · intro id hid other hother
    have hclosed : id ∉ t.openIds := fun hopen => hid (List.mem_cons_of_mem _ hopen)
    have hne : id ≠ t.forest.size := fun hsame => hid (hsame ▸ List.mem_cons_self)
    rw [Tracer.push, Forest.get?_push, if_neg hne] at hother
    exact h.closed id hclosed other hother

theorem pushLeaf (h : t.Each P Q) (hlasting : Lasting P Q) (hnested : t.Nested) {frame : Frame}
    (hframe : Q t.forest.size frame) : (t.pushLeaf frame).Each P Q := by
  have hadded : ({ t with forest := t.forest.push frame } : Tracer).Each P Q := by
    constructor
    · intro id hid other hother
      rw [Forest.get?_push, if_neg (Nat.ne_of_lt (hnested.mem_lt hid))] at hother
      exact h.opened id hid other hother
    · intro id hid other hother
      rw [Forest.get?_push] at hother
      split at hother
      next hnew =>
        cases hother
        exact hnew ▸ hframe
      · exact h.closed id hid other hother
  exact hadded.amend t.top_mem_openIds fun _ => hlasting.child t.forest.size

/-- The top is changed and becomes a child of the frame below it. -/
theorem close (h : t.Each P Q) (hlasting : Lasting P Q) (hnested : t.Nested)
    {below : List FrameId} (hinner : t.inner = id :: below)
    (hf : ∀ frame, t.forest.get? id = some frame → P id frame → Q id (f frame)) :
    ({ t with
      inner := below
      forest := (t.forest.modify id f).addChild (topOf below) id } : Tracer).Each P Q := by
  have hopen : t.openIds = id :: (below ++ [rootId]) := by rw [openIds, hinner, List.cons_append]
  have hleft : ({ t with inner := below, forest := t.forest.modify id f } : Tracer).Each P Q := by
    constructor
    · intro other hother frame hframe
      have hne : id ≠ other := by
        rintro rfl
        exact hnested.not_mem_below hinner hother
      rw [Forest.get?_modify, if_neg hne] at hframe
      exact h.opened other (hopen ▸ List.mem_cons_of_mem _ hother) frame hframe
    · intro other hother frame hframe
      rw [Forest.get?_modify] at hframe
      split at hframe
      next hsame =>
        subst hsame
        obtain ⟨before, hbefore, rfl⟩ := Option.map_eq_some_iff.mp hframe
        exact hf before hbefore (h.opened id (hopen ▸ List.mem_cons_self) before hbefore)
      next hne =>
        refine h.closed other (fun hmem => hother ?_) frame hframe
        rw [hopen] at hmem
        exact (List.mem_cons.mp hmem).resolve_left (Ne.symm hne)
  exact hleft.amend (top_mem_openIds _) fun _ => hlasting.child id

/-! ## 2. Reports and steps -/

theorem sampleAllowance (h : t.Each P Q) (hlasting : Lasting P Q) (step : Step) :
    (t.sampleAllowance step).Each P Q := by
  rw [sampleAllowance_eq]
  split
  · exact (h.amend t.top_mem_openIds fun _ => hlasting.grant step.gas).note rfl rfl
  · exact h.note rfl rfl

theorem fail (h : t.Each P Q) (hlasting : Lasting P Q) (hnested : t.Nested) (message : String) :
    (t.fail message).Each P Q := by
  rw [fail_eq]
  split
  · exact h
  cases hinner : t.inner with
  | nil =>
    have htop := top_of_nil hinner
    have hamended : (t.amend rootId (Frame.fail message)).Each P Q :=
      h.amend (htop ▸ t.top_mem_openIds) fun _ => hlasting.failRoot message
    simp only [Tracer.pop, Tracer.amend, hinner]
    exact (htop ▸ hamended).note rfl hinner.symm
  | cons id below =>
    have hne := hnested.ne_root (hinner ▸ List.mem_cons_self)
    have hclosed := h.close hlasting hnested hinner fun _ _ => hlasting.fail message hne
    simp only [Tracer.pop, Tracer.amend, top_of_cons hinner, hinner]
    exact hclosed

theorem enter (h : t.Each P Q) (hlasting : Lasting P Q) (hnested : t.Nested) {step : Step}
    {kind : FrameKind} (state : ChainState) (herror : step.error = none)
    (hkind : FrameKind.ofOpcode? step.opcode = some kind) :
    (t.observe step state).tracer.Each P Q := by
  have hentered := t.observe_of_kind state herror hkind
  rcases t.enter_inversion state herror hkind with hsame | hopens | ⟨hleaf, hadded⟩
  · rw [hentered, hsame]
    exact h
  · obtain ⟨hpush, -⟩ := @observe_opening _ t ⟨step, state⟩ kind hopens
    rw [hpush]
    exact h.push (hlasting.push t.settings hopens hnested.size_ne_root)
  · rw [hentered, hadded]
    exact h.pushLeaf hlasting hnested (hlasting.leaf hleaf)

/-- A step keeps the two properties, provided that a step back in the caller makes a closed frame of
the top. -/
theorem observe (h : t.Each P Q) (hlasting : Lasting P Q) (hnested : t.Nested) (step : Step)
    (state : ChainState)
    (hsettle : t.Closes step → ∀ frame, t.forest.get? t.top = some frame → P t.top frame →
      Q t.top (frame.settle t.top step state t.settings.paddingLimit).frame) :
    (t.observe step state).tracer.Each P Q := by
  rcases t.step_cases step with
    ⟨message, hsome⟩ | ⟨hnone, kind, hkind⟩ | ⟨hnone, hrevert⟩ | hcloses | ⟨hplain, hstays⟩
  · rw [t.observe_of_error state hsome]
    exact h.fail hlasting hnested message
  · exact h.enter hlasting hnested state hnone hkind
  · rw [t.observe_of_revert state hnone hrevert]
    exact (h.sampleAllowance hlasting step).amend (top_mem_openIds _) fun _ => hlasting.revert
  · obtain ⟨id, below, frame, hinner, -, -, htracer, -⟩ := hnested.observe_of_closes hcloses state
    have htop := top_of_cons hinner
    have hclosed := h.close hlasting hnested hinner fun frame hframe hopened =>
      htop ▸ hsettle hcloses frame (htop ▸ hframe) (htop ▸ hopened)
    rw [htracer]
    exact hclosed.note rfl rfl
  · rw [(observe_of_not_closes hplain hstays state).1]
    exact h.sampleAllowance hlasting step

end Each

/-! ## 3. Any tracer -/

section

variable (hlasting : Lasting P Q)
  (hsettle : ∀ {id frame} (step : Step) (state : ChainState) (limit : UInt64), id ≠ rootId →
    P id frame → Q id (frame.settle id step state limit).frame)
  (hdescribe : ∀ {frame} (tx : Transaction), P rootId frame → P rootId (frame.describe tx))
include hlasting hsettle

/-- A step keeps the two properties if a close makes a closed frame of any frame above the root. -/
theorem Nested.each_observe (hnested : t.Nested) (h : t.Each P Q) (step : Step)
    (state : ChainState) : (t.observe step state).tracer.Each P Q := by
  refine h.observe hlasting hnested step state fun hcloses frame _ hopened => ?_
  obtain ⟨top, below, hinner⟩ := hcloses.exists_inner_eq
  refine hsettle step state _ ?_ hopened
  rw [top_of_cons hinner]
  exact hnested.ne_root (hinner ▸ List.mem_cons_self)

/-- Steps keep the two properties when they are taken in until one is refused. -/
theorem each_observeAll (h : t.Nested ∧ t.Each P Q) (steps : List Step) (state : ChainState) :
    (t.observeAll steps state).tracer.Nested ∧ (t.observeAll steps state).tracer.Each P Q :=
  observeAll_induction (P := fun t => t.Nested ∧ t.Each P Q)
    (fun {t} step h => ⟨h.1.changes (t.changes_observe step state),
      h.1.each_observe hlasting hsettle h.2 step state⟩) h steps

include hdescribe

omit hlasting hsettle in
theorem Each.finish (h : t.Each P Q) (tx : Transaction) : (t.finish tx).Each P Q :=
  (h.amend t.root_mem_openIds fun _ => hdescribe tx).note rfl rfl

/-- After any operations the two properties hold, if they last, and if closes and the end of a
transaction keep them. -/
theorem each_after (settings : Settings) (operations : List Operation) :
    (after settings operations).Each P Q := by
  have start (settings : Settings) :
      (Tracer.fresh settings).Nested ∧ (Tracer.fresh settings).Each P Q :=
    ⟨.fresh settings, .fresh hlasting.root settings⟩
  suffices hboth : (after settings operations).Nested ∧ (after settings operations).Each P Q from
    hboth.2
  refine List.foldlRecOn (motive := fun t => t.Nested ∧ t.Each P Q) operations perform
    (start settings) fun t h operation _ => ?_
  cases operation with
  | observe step state =>
    exact ⟨h.1.changes (t.changes_observe step state),
      h.1.each_observe hlasting hsettle h.2 step state⟩
  | fail message =>
    exact ⟨h.1.changes (t.changes_fail message), h.2.fail hlasting h.1 message⟩
  | finish tx => exact ⟨h.1.changes (t.changes_finish tx), h.2.finish hdescribe tx⟩
  | reset => exact start _
  | trace steps state tx =>
    have htaken := each_observeAll hlasting hsettle (start t.settings) steps state
    simp only [perform, trace]
    split
    · exact htaken
    · exact ⟨htaken.1.changes (changes_finish _ tx), htaken.2.finish hdescribe tx⟩

end

end Tracer

end CallTree
