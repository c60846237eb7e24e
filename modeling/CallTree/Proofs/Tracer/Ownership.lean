import CallTree.Proofs.Forest.Preorder
import CallTree.Proofs.Tracer.Operation
import Mathlib.Data.List.Nodup

/-!
# Who owns a frame

In every tracer that a host can reach, the frames form one tree for each open frame, and the later
an open frame was opened the later are the frames of its tree. `Nested` is this invariant, which
every change keeps (`Nested.change`).

Results:
1. `Nested.ownership`: an open frame other than the root is nobody's child, and a closed frame is
   the child of exactly one frame, once.
2. `Nested.ascending`, `Nested.acyclic`: children are opened after their parents, so that no frame
   lies below itself and neither walk of the forest is ever cut short.
3. `Nested.guarded`: a closing frame exists and executes code, and so does the frame below it.
4. `after_ownership`: all of this after any operations.
-/

namespace CallTree

namespace Tracer

/-! ## The invariant -/

/-- The frames form one tree for each open frame, and an open frame executes code. -/
structure Nested (t : Tracer) : Prop where
  layered : Layered t.forest.childrenOf t.openIds t.forest.size
  executes : ∀ id ∈ t.openIds, ∀ frame, t.forest.get? id = some frame →
    frame.action.isSelfDestruct = false

/-- Below the top lies the frame that becomes the top when it closes. -/
theorem openIds_of_cons {t : Tracer} {id : FrameId} {rest : List FrameId}
    (h : t.inner = id :: rest) :
    ∃ others, rest ++ [rootId] = topOf rest :: others ∧ t.openIds = id :: topOf rest :: others := by
  cases rest with
  | nil => exact ⟨[], rfl, by simp [openIds, h, topOf]⟩
  | cons next rest => exact ⟨rest ++ [rootId], rfl, by simp [openIds, h, topOf]⟩

theorem exists_openIds_eq (t : Tracer) : ∃ others, t.openIds = t.top :: others :=
  ⟨t.openIds.tail, (List.cons_head?_tail t.head?_openIds).symm⟩

namespace Nested

variable {t t' : Tracer}

theorem mem_lt (h : t.Nested) {id : Nat} (hid : id ∈ t.openIds) : id < t.forest.size :=
  h.layered.mem_lt hid

theorem top_lt (h : t.Nested) : t.top < t.forest.size :=
  h.mem_lt t.top_mem_openIds

/-- A new frame is not the root. -/
theorem size_ne_root (h : t.Nested) : t.forest.size ≠ rootId :=
  Nat.ne_of_gt (Nat.zero_lt_of_lt h.top_lt)

/-- The top is not one of the frames below it. -/
theorem not_mem_below (h : t.Nested) {id : FrameId} {below : List FrameId}
    (hinner : t.inner = id :: below) : id ∉ below ++ [rootId] := by
  have hnodup : t.openIds.Nodup := h.layered.pairwise_gt.nodup
  rw [openIds, hinner, List.cons_append] at hnodup
  exact (List.nodup_cons.mp hnodup).1

theorem fresh (settings : Settings) : (fresh settings).Nested := by
  refine ⟨⟨Covers.single_iff.mpr .nil, rfl⟩, ?_⟩
  intro id hid frame hframe
  obtain rfl : id = rootId := by simpa [openIds, Tracer.fresh] using hid
  cases hframe
  rfl

theorem amend (h : t.Nested) {f : Frame → Frame} (hf : Frame.Amends f) (id : FrameId) :
    (t.amend id f).Nested := by
  constructor
  · show Layered (t.forest.modify id f).childrenOf t.openIds (t.forest.modify id f).size
    rw [Forest.childrenOf_modify hf.children, Forest.size_modify]
    exact h.layered
  · intro other hother frame hframe
    simp only [Tracer.amend, Forest.get?_modify] at hframe
    split at hframe
    · obtain ⟨before, hbefore, rfl⟩ := Option.map_eq_some_iff.mp hframe
      exact hf.executes before (h.executes other hother before hbefore)
    · exact h.executes other hother frame hframe

theorem push (h : t.Nested) {frame : Frame} (hframe : frame.Opened) : (t.push frame).Nested := by
  constructor
  · show Layered (t.forest.push frame).childrenOf (t.forest.size :: t.openIds) _
    rw [Forest.childrenOf_push hframe.children]
    show Layered _ _ (t.forest.push frame).size
    rw [Forest.size_push]
    exact h.layered.opened (Forest.childrenOf_of_size_le (Nat.le_refl _))
  · intro id hid other hother
    simp only [Tracer.push, Forest.get?_push] at hother
    split at hother
    · cases hother
      exact hframe.executes
    next hne => exact h.executes id ((List.mem_cons.mp hid).resolve_left hne) other hother

theorem pushLeaf (h : t.Nested) {frame : Frame} (hframe : frame.children = []) :
    (t.pushLeaf frame).Nested := by
  have hsize : (t.forest.push frame).size = t.forest.size + 1 := Forest.size_push ..
  have htop : t.top < (t.forest.push frame).size := hsize ▸ Nat.lt_succ_of_lt h.top_lt
  obtain ⟨others, hothers⟩ := t.exists_openIds_eq
  constructor
  · show Layered ((t.forest.push frame).addChild t.top t.forest.size).childrenOf t.openIds
      ((t.forest.push frame).addChild t.top t.forest.size).size
    rw [Forest.childrenOf_addChild _ htop, Forest.childrenOf_push hframe,
      Forest.size_addChild, hsize, hothers]
    exact (hothers ▸ h.layered).leaf (Forest.childrenOf_of_size_le (Nat.le_refl _))
  · intro id hid other hother
    have hlt := h.mem_lt hid
    simp only [Tracer.pushLeaf, Forest.addChild, Forest.get?_modify, Forest.get?_push,
      if_neg (Nat.ne_of_lt hlt)] at hother
    split at hother
    · obtain ⟨before, hbefore, rfl⟩ := Option.map_eq_some_iff.mp hother
      exact h.executes id hid before hbefore
    · exact h.executes id hid other hother

theorem pop (h : t.Nested) : t.pop.Nested := by
  cases hinner : t.inner with
  | nil => simpa only [Tracer.pop, hinner] using h
  | cons id rest =>
    obtain ⟨others, hrest, hopen⟩ := openIds_of_cons hinner
    have hlayered := hopen ▸ h.layered
    have hbelow : topOf rest < t.forest.size :=
      hlayered.mem_lt (List.mem_cons_of_mem _ List.mem_cons_self)
    simp only [Tracer.pop, hinner]
    constructor
    · show Layered (t.forest.addChild (topOf rest) id).childrenOf (rest ++ [rootId])
        (t.forest.addChild (topOf rest) id).size
      rw [Forest.childrenOf_addChild _ hbelow, Forest.size_addChild, hrest]
      exact hlayered.close
    · intro other hother frame hframe
      have hmem : other ∈ t.openIds := by
        rw [openIds, hinner]
        exact List.mem_cons_of_mem _ hother
      simp only [Forest.addChild, Forest.get?_modify] at hframe
      split at hframe
      · obtain ⟨before, hbefore, rfl⟩ := Option.map_eq_some_iff.mp hframe
        exact h.executes other hmem before hbefore
      · exact h.executes other hmem frame hframe

/-- Every change keeps the invariant. -/
theorem change (h : t.Nested) (hchange : Change t t') : t'.Nested := by
  cases hchange with
  | note hforest hinner =>
    have hopen : t'.openIds = t.openIds := by rw [openIds, openIds, hinner]
    constructor
    · rw [hforest, hopen]
      exact h.layered
    · rw [hforest, hopen]
      exact h.executes
  | amend _ hf => exact h.amend hf _
  | push hframe => exact h.push hframe
  | pushLeaf hframe => exact h.pushLeaf hframe
  | pop => exact h.pop

theorem changes (h : t.Nested) (hchanges : Changes t t') : t'.Nested := by
  induction hchanges with
  | refl => exact h
  | tail _ hchange ih => exact ih.change hchange

end Nested

/-! ## 1. Owners -/

/-- The open frames and the children lists share no frame, and together they have them all. The
open frames are listed with the innermost first. -/
structure Ownership (t : Tracer) : Prop where
  open_nonempty : t.openIds ≠ []
  open_bottom : t.openIds.getLast? = some rootId
  open_sorted : t.openIds.Pairwise (· > ·)
  open_inside : ∀ id ∈ t.openIds, id < t.forest.size
  open_executes : ∀ id ∈ t.openIds, ∀ frame, t.forest.get? id = some frame →
    frame.action.isSelfDestruct = false
  child_inside : ∀ parent, ∀ child ∈ t.forest.childrenOf parent,
    parent < child ∧ child < t.forest.size
  children_sorted : ∀ id, (t.forest.childrenOf id).Pairwise (· < ·)
  root_unowned : ∀ parent, rootId ∉ t.forest.childrenOf parent
  open_unowned : ∀ id ∈ t.inner, ∀ parent, id ∉ t.forest.childrenOf parent
  closed_owned : ∀ id, id < t.forest.size → id ∉ t.openIds →
    ∃ owner, (t.forest.childrenOf owner).count id = 1 ∧
      ∀ other, other ≠ owner → (t.forest.childrenOf other).count id = 0

namespace Nested

variable {t : Tracer}

theorem child_bounds (h : t.Nested) {parent child : Nat}
    (hchild : child ∈ t.forest.childrenOf parent) : parent < child ∧ child < t.forest.size := by
  by_cases hparent : parent < t.forest.size
  · exact h.layered.child_bounds hparent hchild
  · rw [Forest.childrenOf_of_size_le (Nat.le_of_not_lt hparent)] at hchild
    cases hchild

theorem children_pairwise (h : t.Nested) (id : Nat) :
    (t.forest.childrenOf id).Pairwise (· < ·) := by
  by_cases hid : id < t.forest.size
  · exact h.layered.children_pairwise hid
  · rw [Forest.childrenOf_of_size_le (Nat.le_of_not_lt hid)]
    exact .nil

theorem not_mem_children (h : t.Nested) {id : Nat} (hid : id ∈ t.openIds) (parent : Nat) :
    id ∉ t.forest.childrenOf parent := by
  intro hchild
  have hbounds := h.child_bounds hchild
  exact h.layered.not_mem_children hid (Nat.lt_trans hbounds.1 hbounds.2) hchild

theorem exists_owner (h : t.Nested) {id : Nat} (hlt : id < t.forest.size) (hid : id ∉ t.openIds) :
    ∃ owner, (t.forest.childrenOf owner).count id = 1 ∧
      ∀ other, other ≠ owner → (t.forest.childrenOf other).count id = 0 := by
  obtain ⟨owner, ⟨-, hmem⟩, honly⟩ := h.layered.exists_owner hlt hid
  refine ⟨owner, List.count_eq_one_of_mem (h.children_pairwise owner).nodup hmem,
    fun other hne => List.count_eq_zero.mpr fun hother => ?_⟩
  have hbounds := h.child_bounds hother
  exact hne (honly other (Nat.lt_trans hbounds.1 hbounds.2) hother)

theorem ownership (h : t.Nested) : t.Ownership where
  open_nonempty := List.append_ne_nil_of_right_ne_nil _ (List.cons_ne_nil _ _)
  open_bottom := List.getLast?_concat
  open_sorted := h.layered.pairwise_gt
  open_inside _ hid := h.mem_lt hid
  open_executes := h.executes
  child_inside _ _ hchild := h.child_bounds hchild
  children_sorted := h.children_pairwise
  root_unowned := h.not_mem_children t.root_mem_openIds
  open_unowned _ hid := h.not_mem_children (List.mem_append_left _ hid)
  closed_owned _ hlt hid := h.exists_owner hlt hid

end Nested

/-! ## 2. Walks -/

namespace Nested

variable {t : Tracer}

theorem ascending (h : t.Nested) : t.forest.Ascending :=
  fun _ _ hchild => (h.child_bounds hchild).1

theorem acyclic (h : t.Nested) (id : Nat) : ¬t.forest.Below id id :=
  fun hbelow => Nat.lt_irrefl _ (h.ascending.lt_of_below hbelow)

end Nested

/-! ## 3. Closing frames -/

/-- The top can be given a child, and if it can be closed, it executes code and the frame below it
can be given a child. -/
structure Guarded (t : Tracer) : Prop where
  top : ∃ frame, t.forest.get? t.top = some frame
  closing : ∀ id rest, t.inner = id :: rest →
    (∃ frame, t.forest.get? id = some frame ∧ frame.action.isSelfDestruct = false) ∧
    ∃ frame, t.forest.get? (topOf rest) = some frame

theorem Nested.guarded {t : Tracer} (h : t.Nested) : t.Guarded := by
  refine ⟨Forest.exists_get? h.top_lt, fun id rest hinner => ?_⟩
  obtain ⟨others, -, hopen⟩ := openIds_of_cons hinner
  have hid : id ∈ t.openIds := hopen ▸ List.mem_cons_self
  have hbelow : topOf rest ∈ t.openIds := hopen ▸ List.mem_cons_of_mem _ List.mem_cons_self
  obtain ⟨frame, hframe⟩ := Forest.exists_get? (h.mem_lt hid)
  exact ⟨⟨frame, hframe, h.executes id hid frame hframe⟩, Forest.exists_get? (h.mem_lt hbelow)⟩

/-! ## 4. Every reachable tracer -/

theorem nested_after (settings : Settings) (operations : List Operation) :
    (after settings operations).Nested :=
  after_induction Nested.fresh Nested.change settings operations

/-- After any operations each frame has at most one owner, the walks of the forest end by
themselves, and no frame is missing when a step is taken in. A step closes the top only after its
allowance has been sampled, so that this holds of the tracer in between, too. -/
theorem after_ownership (settings : Settings) (operations : List Operation) :
    (after settings operations).Ownership ∧
    (∀ id, ¬(after settings operations).forest.Below id id) ∧
    (after settings operations).forest.WalksEnd ∧
    (after settings operations).Guarded ∧
    ∀ step, ((after settings operations).sampleAllowance step).Guarded := by
  have h := nested_after settings operations
  exact ⟨h.ownership, h.acyclic, h.ascending.walksEnd, h.guarded,
    fun step => (h.changes (changes_sampleAllowance _ step)).guarded⟩

end Tracer

end CallTree
