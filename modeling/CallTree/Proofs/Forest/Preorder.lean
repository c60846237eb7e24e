import CallTree.Forest.Visits
import CallTree.Proofs.Forest.Children
import Mathlib.Data.List.Basic
import Mathlib.Logic.Relation

/-!
# The walk of a forest

Results:
1. `get?_of_mem_visitsFrom`: a visit shows the frame of the forest with its name.
2. `visitsFrom_of_ascending`, `originsFrom_of_ascending`: where children are named after their
   parents, a walk that may go as deep as the forest has frames is not cut short. Walking deeper
   makes no difference.
3. `map_id_visitsFrom`: the walk of a tree that covers an interval visits the frames of the interval
   in the order of opening.
4. `visits_extend`: where the root gains children and the trees below it stay as they are, the walk
   makes the same visits as before and then some more.
-/

namespace CallTree

namespace Forest

variable {forest : Forest} {id : Nat}

/-! ## 1. What a visit shows -/

theorem get?_of_mem_visitsFrom {depth : Nat} {path : List Nat} {visit : Visit}
    (h : visit ∈ forest.visitsFrom depth path id) :
    forest.get? visit.id = some visit.frame := by
  induction depth generalizing path id with
  | zero => cases h
  | succ depth ih =>
    rw [visitsFrom] at h
    split at h
    next => cases h
    next frame hframe =>
      rcases List.mem_cons.mp h with rfl | hbelow
      · exact hframe
      · obtain ⟨child, -, hvisit⟩ := List.mem_flatMap.mp hbelow
        exact ih hvisit

theorem get?_of_mem_visits {visit : Visit} (h : visit ∈ forest.visits) :
    forest.get? visit.id = some visit.frame :=
  get?_of_mem_visitsFrom h

/-! ## 2. The depth of the walks -/

/-- Children are named after their parents. -/
def Ascending (forest : Forest) : Prop :=
  ∀ parent, ∀ child ∈ forest.childrenOf parent, parent < child

/-- The second frame is a child of the first, or a child of a child, and so on. -/
def Below (forest : Forest) : Nat → Nat → Prop :=
  Relation.TransGen fun parent child => child ∈ forest.childrenOf parent

theorem Ascending.lt_of_below (h : forest.Ascending) {other : Nat} (hbelow : forest.Below id other) :
    id < other := by
  induction hbelow with
  | single hchild => exact h _ _ hchild
  | tail _ hchild ih => exact Nat.lt_trans ih (h _ _ hchild)

theorem visitsFrom_of_size_le (h : forest.size ≤ id) (depth : Nat) (path : List Nat) :
    forest.visitsFrom depth path id = [] := by
  cases depth with
  | zero => rfl
  | succ depth => rw [visitsFrom, get?_eq_none_iff.mpr h]

theorem originsFrom_of_size_le (h : forest.size ≤ id) (depth : Nat) (path : List Nat) :
    forest.originsFrom depth path id = [] := by
  cases depth with
  | zero => rfl
  | succ depth => rw [originsFrom, get?_eq_none_iff.mpr h]

/-- Two walks from a frame agree if each may go as deep as there are frames named after it. -/
theorem visitsFrom_of_ascending (h : forest.Ascending) {depth depth' : Nat}
    (hdepth : forest.size ≤ id + depth) (hdepth' : forest.size ≤ id + depth') (path : List Nat) :
    forest.visitsFrom depth path id = forest.visitsFrom depth' path id := by
  induction depth generalizing depth' path id with
  | zero =>
    have hsize : forest.size ≤ id := hdepth
    rw [visitsFrom_of_size_le hsize, visitsFrom_of_size_le hsize]
  | succ depth ih =>
    cases depth' with
    | zero =>
      have hsize : forest.size ≤ id := hdepth'
      rw [visitsFrom_of_size_le hsize, visitsFrom_of_size_le hsize]
    | succ depth' =>
      rw [visitsFrom, visitsFrom]
      cases hframe : forest.get? id with
      | none => rfl
      | some frame =>
        refine congrArg _ (List.flatMap_congr fun pair hpair => ?_)
        have hchild : id < pair.1 := by
          refine h id pair.1 ?_
          rw [childrenOf_of_get? hframe]
          exact List.fst_mem_of_mem_zipIdx hpair
        exact ih (by omega) (by omega) _

theorem originsFrom_of_ascending (h : forest.Ascending) {depth depth' : Nat}
    (hdepth : forest.size ≤ id + depth) (hdepth' : forest.size ≤ id + depth') (path : List Nat) :
    forest.originsFrom depth path id = forest.originsFrom depth' path id := by
  induction depth generalizing depth' path id with
  | zero =>
    have hsize : forest.size ≤ id := hdepth
    rw [originsFrom_of_size_le hsize, originsFrom_of_size_le hsize]
  | succ depth ih =>
    cases depth' with
    | zero =>
      have hsize : forest.size ≤ id := hdepth'
      rw [originsFrom_of_size_le hsize, originsFrom_of_size_le hsize]
    | succ depth' =>
      rw [originsFrom, originsFrom]
      cases hframe : forest.get? id with
      | none => rfl
      | some frame =>
        -- Only failed children are entered, and they are children all the same.
        have hchild : ∀ pair ∈ forest.failedChildren frame, id < pair.1 := by
          intro pair hpair
          refine h id pair.1 ?_
          rw [childrenOf_of_get? hframe]
          exact List.fst_mem_of_mem_zipIdx (List.mem_filter.mp hpair).1
        cases hfailed : forest.failedChildren frame with
        | nil => simp only [hfailed]
        | cons pair pairs =>
          simp only [hfailed]
          refine List.flatMap_congr fun pair hpair => ?_
          have := hchild pair (hfailed ▸ hpair)
          exact ih (by omega) (by omega) _

/-- Neither walk from the root is cut short: allowed to go deeper, it makes the same visits. -/
def WalksEnd (forest : Forest) : Prop :=
  ∀ depth, forest.size ≤ depth →
    forest.visitsFrom depth [] rootId = forest.visits ∧
    forest.originsFrom depth [] rootId = forest.originsFrom forest.size [] rootId

theorem Ascending.walksEnd (h : forest.Ascending) : forest.WalksEnd := by
  intro depth hdepth
  have hdeep : forest.size ≤ rootId + depth := Nat.le_trans hdepth (Nat.le_add_left _ _)
  have hall : forest.size ≤ rootId + forest.size := Nat.le_add_left _ _
  exact ⟨visitsFrom_of_ascending h hdeep hall [], originsFrom_of_ascending h hdeep hall []⟩

/-! ## 3. The order of the walk -/

/-- Where children cover an interval, walking from each of them visits the frames of the interval
in the order of opening. -/
theorem map_id_visitsBelow {ids : List Nat} {low high : Nat}
    (h : Covers forest.childrenOf ids low high) (hsize : high ≤ forest.size) {depth : Nat}
    (hdepth : high ≤ low + depth) (path : List Nat) (index : Nat) :
    ((ids.zipIdx index).flatMap fun (child, index) =>
      forest.visitsFrom depth (path ++ [index]) child).map (·.id) =
    List.range' low (high - low) := by
  induction h generalizing depth path index with
  | nil => simp
  | @cons ids low middle high below beside ihBelow ihBeside =>
    have hbelow := below.le
    have hbeside := beside.le
    obtain ⟨depth, rfl⟩ : ∃ less, depth = less + 1 := ⟨depth - 1, by omega⟩
    obtain ⟨frame, hframe⟩ := exists_get? (show low < forest.size by omega)
    have hfirst := ihBelow (by omega) (show middle ≤ low + 1 + depth by omega) (path ++ [index]) 0
    have hrest := ihBeside hsize (show high ≤ middle + (depth + 1) by omega) path (index + 1)
    rw [childrenOf_of_get? hframe] at hfirst
    rw [List.zipIdx_cons, List.flatMap_cons, List.map_append, hrest]
    simp only [visitsFrom, hframe, List.map_cons, hfirst]
    rw [← List.range'_succ, show middle - (low + 1) + 1 = middle - low by omega,
      show high - low = (middle - low) + (high - middle) by omega, ← List.range'_append_1,
      show low + (middle - low) = middle by omega]

theorem map_id_visitsFrom {high : Nat} (h : Covers forest.childrenOf [id] id high)
    (hsize : high ≤ forest.size) {depth : Nat} (hdepth : high ≤ id + depth) (path : List Nat) :
    (forest.visitsFrom depth path id).map (·.id) = List.range' id (high - id) := by
  have hhigh := (h.mem_bounds List.mem_cons_self).2
  obtain ⟨depth, rfl⟩ : ∃ less, depth = less + 1 := ⟨depth - 1, by omega⟩
  obtain ⟨frame, hframe⟩ := exists_get? (show id < forest.size by omega)
  have hbelow := map_id_visitsBelow (Covers.single_iff.mp h) hsize
    (show high ≤ id + 1 + depth by omega) path 0
  rw [childrenOf_of_get? hframe] at hbelow
  simp only [visitsFrom, hframe, List.map_cons, hbelow]
  rw [← List.range'_succ, show high - (id + 1) + 1 = high - id by omega]

/-! ## 4. Walks of a forest that grows -/

/-- Where children cover an interval, walking from each of them depends on the frames of the
interval only. -/
theorem visitsBelow_congr {forest' : Forest} {ids : List Nat} {low high : Nat}
    (h : Covers forest.childrenOf ids low high)
    (agree : ∀ id, low ≤ id → id < high → forest'.get? id = forest.get? id) (depth : Nat)
    (path : List Nat) (index : Nat) :
    ((ids.zipIdx index).flatMap fun (child, index) =>
      forest'.visitsFrom depth (path ++ [index]) child) =
    (ids.zipIdx index).flatMap fun (child, index) =>
      forest.visitsFrom depth (path ++ [index]) child := by
  induction h generalizing depth path index with
  | nil => rfl
  | @cons ids low middle high below beside ihBelow ihBeside =>
    have hbelow : low < middle := below.le
    have hbeside := beside.le
    have hfirst : forest'.get? low = forest.get? low :=
      agree low (Nat.le_refl _) (Nat.lt_of_lt_of_le hbelow hbeside)
    have hrest := ihBeside
      (fun id hlow hhigh => agree id (Nat.le_trans (Nat.le_of_lt hbelow) hlow) hhigh)
      depth path (index + 1)
    rw [List.zipIdx_cons, List.flatMap_cons, List.flatMap_cons, hrest]
    refine congrArg (· ++ _) ?_
    cases depth with
    | zero => rfl
    | succ depth =>
      simp only [visitsFrom, hfirst]
      cases hframe : forest.get? low with
      | none => rfl
      | some frame =>
        have hunder := ihBelow
          (fun id hlow hhigh => agree id (Nat.le_of_succ_le hlow) (Nat.lt_of_lt_of_le hhigh hbeside))
          depth (path ++ [index]) 0
        rw [childrenOf_of_get? hframe] at hunder
        exact congrArg _ hunder

/-- The walk from the root visits the root and then walks from each child of it. -/
theorem visits_eq {root : Frame} {depth : Nat} (hroot : forest.get? rootId = some root)
    (hdepth : forest.size = depth + 1) :
    forest.visits = ⟨rootId, [], root⟩ :: root.children.zipIdx.flatMap fun (child, index) =>
      forest.visitsFrom depth ([] ++ [index]) child := by
  rw [visits, hdepth, visitsFrom, hroot]

/-- Where the root gains children and the trees below it stay as they are, the walk makes the same
visits as before and then some more. -/
theorem visits_extend {forest' : Forest} {root root' : Frame} {high : Nat}
    (hroot : forest.get? rootId = some root) (hroot' : forest'.get? rootId = some root')
    (ascending : forest.Ascending) (hcovers : Covers forest.childrenOf root.children 1 high)
    (agree : ∀ id, 1 ≤ id → id < high → forest'.get? id = forest.get? id)
    (hchildren : root.children <+: root'.children) (hsize : forest.size ≤ forest'.size) :
    ∃ shown added, forest.visits = ⟨rootId, [], root⟩ :: shown ∧
      forest'.visits = ⟨rootId, [], root'⟩ :: (shown ++ added) := by
  obtain ⟨more, hmore⟩ := hchildren
  have hpos : rootId < forest.size := lt_size_of_get? hroot
  obtain ⟨depth, hdepth⟩ : ∃ depth, forest.size = depth + 1 :=
    ⟨forest.size - 1, (Nat.succ_pred_eq_of_pos hpos).symm⟩
  obtain ⟨depth', hdepth'⟩ : ∃ depth', forest'.size = depth' + 1 :=
    ⟨forest'.size - 1, (Nat.succ_pred_eq_of_pos (Nat.lt_of_lt_of_le hpos hsize)).symm⟩
  -- The walks of the old children go as deep as they need to, each in its own forest.
  have hsame : (root.children.zipIdx.flatMap fun (child, index) =>
        forest'.visitsFrom depth' ([] ++ [index]) child) =
      root.children.zipIdx.flatMap fun (child, index) =>
        forest.visitsFrom depth ([] ++ [index]) child := by
    rw [visitsBelow_congr hcovers agree]
    refine List.flatMap_congr fun pair hpair => ?_
    have hchild := (hcovers.mem_bounds (List.fst_mem_of_mem_zipIdx hpair)).1
    exact visitsFrom_of_ascending ascending (by omega) (by omega) _
  have hvisits' := visits_eq hroot' hdepth'
  rw [← hmore, List.zipIdx_append, List.flatMap_append, hsame] at hvisits'
  exact ⟨_, _, visits_eq hroot hdepth, hvisits'⟩

end Forest

end CallTree
