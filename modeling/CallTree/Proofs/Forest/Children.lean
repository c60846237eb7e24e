import CallTree.Proofs.Forest.Basic
import Mathlib.Logic.Function.Basic

/-!
# Children and the order of opening

Frames are named in the order of opening, and a walk of a forest follows the children. This module
ties the two orders together.

* `Covers kids ids low high`: the trees below `ids`, taken one after the other and each from its
  top downwards, consist of the frames `low`, `low + 1`, …, `high - 1` in this order.
* `Layered kids ids high`: the frames before `high` fall into one such tree for each of `ids`,
  the first of `ids` having the latest frames.

Results:
1. `childrenOf_modify`, `childrenOf_push`, `childrenOf_addChild`: what the operations of a forest
   do to its children.
2. `Covers.append`, `Covers.congr`: trees that stand side by side cover neighbouring intervals, and
   only the children of the covered frames matter.
3. `Layered.exists_owner`, `Layered.not_mem_children`: in a layered forest a frame that is not the
   top of a tree is a child of exactly one frame, and the top of a tree is a child of none.
4. `Layered.opened`, `Layered.attach`, `Layered.close`: the layers after a frame is opened, after a
   frame is added that ends at once, and after the latest tree has become a child.
-/

namespace CallTree

namespace Forest

/-! ## 1. The children of a frame -/

/-- The children of the frame with a name, none if there is no such frame. -/
def childrenOf (forest : Forest) (id : FrameId) : List Nat :=
  match forest.get? id with
  | some frame => frame.children
  | none => []

theorem childrenOf_of_get? {forest : Forest} {id : Nat} {frame : Frame}
    (h : forest.get? id = some frame) : forest.childrenOf id = frame.children := by
  simp [childrenOf, h]

theorem childrenOf_of_size_le {forest : Forest} {id : Nat} (h : forest.size ≤ id) :
    forest.childrenOf id = [] := by
  simp [childrenOf, get?_eq_none_iff.mpr h]

theorem childrenOf_modify {forest : Forest} {target : Nat} {f : Frame → Frame}
    (keeps : ∀ frame, (f frame).children = frame.children) :
    (forest.modify target f).childrenOf = forest.childrenOf := by
  funext id
  simp only [childrenOf, get?_modify]
  by_cases h : target = id
  · rw [if_pos h]
    cases forest.get? id with
    | none => rfl
    | some frame => exact keeps frame
  · rw [if_neg h]

theorem childrenOf_push {forest : Forest} {frame : Frame} (h : frame.children = []) :
    (forest.push frame).childrenOf = forest.childrenOf := by
  funext id
  simp only [childrenOf, get?_push]
  by_cases hid : id = forest.size
  · rw [if_pos hid, get?_eq_none_iff.mpr (Nat.le_of_eq hid.symm)]
    exact h
  · rw [if_neg hid]

theorem childrenOf_addChild {forest : Forest} {parent : Nat} (child : Nat)
    (h : parent < forest.size) :
    (forest.addChild parent child).childrenOf =
    Function.update forest.childrenOf parent (forest.childrenOf parent ++ [child]) := by
  obtain ⟨frame, hframe⟩ := exists_get? h
  funext id
  by_cases hid : id = parent
  · subst hid
    simp [childrenOf, addChild, get?_modify, hframe]
  · rw [Function.update_of_ne hid]
    simp [childrenOf, addChild, get?_modify, Ne.symm hid]

end Forest

/-! ## 2. Trees that cover an interval -/

/-- The trees below `ids` consist of the frames from `low` on and before `high`, each tree from its
top downwards and one tree after the other. -/
inductive Covers (kids : Nat → List Nat) : List Nat → Nat → Nat → Prop
  | nil {low : Nat} : Covers kids [] low low
  | cons {ids : List Nat} {low middle high : Nat} :
      Covers kids (kids low) (low + 1) middle → Covers kids ids middle high →
      Covers kids (low :: ids) low high

/-- The frames before `high` form one tree for each of `ids`. The first tree has the latest
frames. -/
def Layered (kids : Nat → List Nat) : List Nat → Nat → Prop
  | [], high => high = 0
  | id :: ids, high => Covers kids [id] id high ∧ Layered kids ids id

variable {kids kids' : Nat → List Nat} {ids ids' : List Nat} {low middle high id parent : Nat}

namespace Covers

theorem le (h : Covers kids ids low high) : low ≤ high := by
  induction h with
  | nil => exact Nat.le_refl _
  | cons _ _ ihBelow ihBeside => omega

/-- The tops of the trees lie in the interval. -/
theorem mem_bounds (h : Covers kids ids low high) (hid : id ∈ ids) : low ≤ id ∧ id < high := by
  induction h with
  | nil => cases hid
  | cons below beside _ ihBeside =>
    have hle := below.le
    rcases List.mem_cons.mp hid with rfl | hmem
    · have := beside.le
      omega
    · have := ihBeside hmem
      omega

theorem pairwise_lt (h : Covers kids ids low high) : ids.Pairwise (· < ·) := by
  induction h with
  | nil => exact List.Pairwise.nil
  | cons below beside _ ihBeside =>
    refine List.pairwise_cons.mpr ⟨fun id hid => ?_, ihBeside⟩
    have hbelow := below.le
    have hbeside := (beside.mem_bounds hid).1
    omega

/-- A single tree consists of its top and of the trees below it. -/
theorem single_iff : Covers kids [id] id high ↔ Covers kids (kids id) (id + 1) high := by
  constructor
  · intro h
    cases h with
    | cons below beside =>
      cases beside
      exact below
  · intro h
    exact .cons h .nil

theorem append (h : Covers kids ids low middle) (h' : Covers kids ids' middle high) :
    Covers kids (ids ++ ids') low high := by
  induction h with
  | nil => exact h'
  | cons below _ _ ihBeside => exact .cons below (ihBeside h')

/-- Only the children of the covered frames matter. -/
theorem congr (h : Covers kids ids low high)
    (agree : ∀ id, low ≤ id → id < high → kids' id = kids id) : Covers kids' ids low high := by
  induction h with
  | nil => exact .nil
  | @cons ids low middle high below beside ihBelow ihBeside =>
    have hbelow := below.le
    have hbeside := beside.le
    refine .cons ?_ (ihBeside fun id hlow hhigh => agree id (by omega) hhigh)
    rw [agree low (Nat.le_refl _) (by omega)]
    exact ihBelow fun id hlow hhigh => agree id (by omega) (by omega)

/-- The children of a covered frame cover an interval behind it. -/
theorem children_covered (h : Covers kids ids low high) (hlow : low ≤ id) (hhigh : id < high) :
    ∃ last, last ≤ high ∧ Covers kids (kids id) (id + 1) last := by
  induction h with
  | nil => omega
  | @cons ids low middle high below beside ihBelow ihBeside =>
    have hle := beside.le
    by_cases hid : id = low
    · exact ⟨middle, hle, hid ▸ below⟩
    by_cases hmiddle : id < middle
    · obtain ⟨last, hlast, hcovers⟩ := ihBelow (by omega) hmiddle
      exact ⟨last, by omega, hcovers⟩
    · exact ihBeside (by omega) hhigh

theorem child_bounds (h : Covers kids ids low high) (hlow : low ≤ parent) (hhigh : parent < high)
    (hid : id ∈ kids parent) : parent < id ∧ id < high := by
  obtain ⟨last, hlast, hcovers⟩ := h.children_covered hlow hhigh
  have := hcovers.mem_bounds hid
  omega

/-- The top of a tree is not a child of a covered frame. -/
theorem not_mem_children (h : Covers kids ids low high) (hid : id ∈ ids) (hlow : low ≤ parent)
    (hhigh : parent < high) : id ∉ kids parent := by
  induction h with
  | nil => cases hid
  | @cons ids low middle high below beside ihBelow ihBeside =>
    intro hmem
    have hle := below.le
    -- The child lies on the parent's side of `middle`, and so do the tops that it could be.
    by_cases hside : parent < middle
    · have hchild : low < id ∧ id < middle :=
        have hbounds := (single_iff.mpr below).child_bounds hlow hside hmem
        ⟨by omega, hbounds.2⟩
      rcases List.mem_cons.mp hid with rfl | hbeside
      · omega
      · have := (beside.mem_bounds hbeside).1
        omega
    · have hchild := beside.child_bounds (by omega) hhigh hmem
      rcases List.mem_cons.mp hid with rfl | hbeside
      · omega
      · exact ihBeside hbeside (by omega) hhigh hmem

/-- A covered frame that is not the top of a tree is a child of exactly one covered frame. -/
theorem exists_owner (h : Covers kids ids low high) (hlow : low ≤ id) (hhigh : id < high)
    (hid : id ∉ ids) :
    ∃ owner, (low ≤ owner ∧ owner < high ∧ id ∈ kids owner) ∧
      ∀ other, low ≤ other → other < high → id ∈ kids other → other = owner := by
  induction h with
  | nil => omega
  | @cons ids low middle high below beside ihBelow ihBeside =>
    have hbelow := below.le
    have hbeside := beside.le
    rw [List.mem_cons, not_or] at hid
    have single := single_iff.mpr below
    by_cases hside : id < middle
    · -- The owner is `low` itself or lies below it; nothing beside it reaches back to `id`.
      have unique : ∀ other, middle ≤ other → other < high → id ∉ kids other := by
        intro other hother hlt hmem
        have := beside.child_bounds hother hlt hmem
        omega
      by_cases hchild : id ∈ kids low
      · refine ⟨low, ⟨Nat.le_refl _, by omega, hchild⟩, fun other hother hlt hmem => ?_⟩
        by_contra hne
        by_cases hin : other < middle
        · exact below.not_mem_children hchild (by omega) hin hmem
        · exact unique other (by omega) hlt hmem
      · obtain ⟨owner, ⟨hge, hlt, howner⟩, honly⟩ := ihBelow (by omega) hside hchild
        refine ⟨owner, ⟨by omega, by omega, howner⟩, fun other hother hlt' hmem => ?_⟩
        by_cases hlowest : other = low
        · exact absurd (hlowest ▸ hmem) hchild
        by_cases hin : other < middle
        · exact honly other (by omega) hin hmem
        · exact absurd hmem (unique other (by omega) hlt')
    · obtain ⟨owner, ⟨hge, hlt, howner⟩, honly⟩ := ihBeside (by omega) hhigh hid.2
      refine ⟨owner, ⟨by omega, hlt, howner⟩, fun other hother hlt' hmem => ?_⟩
      by_cases hin : middle ≤ other
      · exact honly other hin hlt' hmem
      · have := single.child_bounds hother (by omega) hmem
        omega

end Covers

/-! ## 3. Layers -/

namespace Layered

theorem mem_lt (h : Layered kids ids high) (hid : id ∈ ids) : id < high := by
  induction ids generalizing high with
  | nil => cases hid
  | cons top ids ih =>
    have htop : top < high := (h.1.mem_bounds List.mem_cons_self).2
    rcases List.mem_cons.mp hid with rfl | hmem
    · exact htop
    · exact Nat.lt_trans (ih h.2 hmem) htop

theorem pairwise_gt (h : Layered kids ids high) : ids.Pairwise (· > ·) := by
  induction ids generalizing high with
  | nil => exact List.Pairwise.nil
  | cons top ids ih => exact List.pairwise_cons.mpr ⟨fun _ hid => h.2.mem_lt hid, ih h.2⟩

/-- Only the children of the frames before the end matter. -/
theorem congr (h : Layered kids ids high) (agree : ∀ id, id < high → kids' id = kids id) :
    Layered kids' ids high := by
  induction ids generalizing high with
  | nil => exact h
  | cons top ids ih =>
    have htop := h.mem_lt List.mem_cons_self
    exact ⟨h.1.congr fun id _ hid => agree id hid,
      ih h.2 fun id hid => agree id (Nat.lt_trans hid htop)⟩

/-- The children of a frame cover an interval behind it. -/
theorem children_covered (h : Layered kids ids high) (hid : id < high) :
    ∃ last, last ≤ high ∧ Covers kids (kids id) (id + 1) last := by
  induction ids generalizing high with
  | nil =>
    rw [show high = 0 from h] at hid
    omega
  | cons top ids ih =>
    have htop := h.mem_lt List.mem_cons_self
    by_cases hside : top ≤ id
    · exact h.1.children_covered hside hid
    · obtain ⟨last, hlast, hcovers⟩ := ih h.2 (by omega)
      exact ⟨last, by omega, hcovers⟩

theorem child_bounds (h : Layered kids ids high) (hparent : parent < high)
    (hid : id ∈ kids parent) : parent < id ∧ id < high := by
  obtain ⟨last, hlast, hcovers⟩ := h.children_covered hparent
  have := hcovers.mem_bounds hid
  omega

theorem children_pairwise (h : Layered kids ids high) (hid : id < high) :
    (kids id).Pairwise (· < ·) := by
  obtain ⟨last, -, hcovers⟩ := h.children_covered hid
  exact hcovers.pairwise_lt

/-- The top of a tree is a child of no frame. -/
theorem not_mem_children (h : Layered kids ids high) (hid : id ∈ ids) (hparent : parent < high) :
    id ∉ kids parent := by
  induction ids generalizing high with
  | nil => cases hid
  | cons top ids ih =>
    intro hmem
    have htop := h.mem_lt List.mem_cons_self
    by_cases hside : top ≤ parent
    · rcases List.mem_cons.mp hid with rfl | htail
      · exact h.1.not_mem_children List.mem_cons_self hside hparent hmem
      · have hchild := h.1.child_bounds hside hparent hmem
        have hbefore := h.2.mem_lt htail
        omega
    · rcases List.mem_cons.mp hid with rfl | htail
      · have hchild := h.2.child_bounds (by omega) hmem
        omega
      · exact ih h.2 htail (by omega) hmem

/-- A frame that is not the top of a tree is a child of exactly one frame. -/
theorem exists_owner (h : Layered kids ids high) (hlt : id < high) (hid : id ∉ ids) :
    ∃ owner, (owner < high ∧ id ∈ kids owner) ∧
      ∀ other, other < high → id ∈ kids other → other = owner := by
  induction ids generalizing high with
  | nil =>
    rw [show high = 0 from h] at hlt
    omega
  | cons top ids ih =>
    rw [List.mem_cons, not_or] at hid
    have htop := h.mem_lt List.mem_cons_self
    by_cases hside : top ≤ id
    · obtain ⟨owner, ⟨-, howner, hmem⟩, honly⟩ :=
        h.1.exists_owner hside hlt (by simpa using hid.1)
      refine ⟨owner, ⟨howner, hmem⟩, fun other hother hmem' => ?_⟩
      by_cases hin : top ≤ other
      · exact honly other hin hother hmem'
      · have := h.2.child_bounds (by omega) hmem'
        omega
    · obtain ⟨owner, ⟨howner, hmem⟩, honly⟩ := ih h.2 (by omega) hid.2
      refine ⟨owner, ⟨by omega, hmem⟩, fun other hother hmem' => ?_⟩
      by_cases hin : top ≤ other
      · have := h.1.child_bounds hin hother hmem'
        omega
      · exact honly other (by omega) hmem'

/-- The tree of the earliest top ends where the one after it begins. -/
theorem lowest (h : Layered kids (ids ++ [id]) high) :
    Covers kids [id] id (ids.getLast?.getD high) := by
  induction ids generalizing high with
  | nil => exact h.1
  | cons top ids ih =>
    cases ids with
    | nil => exact h.2.1
    | cons next ids =>
      have hlowest := ih h.2
      rw [List.getLast?_cons_cons]
      rw [List.getLast?_cons] at hlowest ⊢
      exact hlowest

/-! ## 4. How the layers change -/

/-- A new frame without children begins a layer of its own. -/
theorem opened (h : Layered kids ids high) (hnew : kids high = []) :
    Layered kids (high :: ids) (high + 1) :=
  ⟨Covers.single_iff.mpr (hnew ▸ .nil), h⟩

/-- The latest tree gains a tree as the last child of its top. -/
theorem attach (h : Layered kids (parent :: ids) middle) (hid : Covers kids [middle] middle high) :
    Layered (Function.update kids parent (kids parent ++ [middle])) (parent :: ids) high := by
  have hparent := h.mem_lt List.mem_cons_self
  have agree : ∀ id, id ≠ parent →
      Function.update kids parent (kids parent ++ [middle]) id = kids id :=
    fun id hne => Function.update_of_ne hne _ _
  refine ⟨Covers.single_iff.mpr ?_, h.2.congr fun id hid => agree id (by omega)⟩
  rw [Function.update_self]
  exact ((Covers.single_iff.mp h.1).append hid).congr fun id hid _ => agree id (by omega)

/-- The latest tree becomes the last child of the top before it. -/
theorem close (h : Layered kids (id :: parent :: ids) high) :
    Layered (Function.update kids parent (kids parent ++ [id])) (parent :: ids) high :=
  h.2.attach h.1

/-- A new frame without children becomes the last child of the latest top. -/
theorem leaf (h : Layered kids (parent :: ids) high) (hnew : kids high = []) :
    Layered (Function.update kids parent (kids parent ++ [high])) (parent :: ids) (high + 1) :=
  h.attach (Covers.single_iff.mpr (hnew ▸ .nil))

end Layered

end CallTree
