import CallTree.Proofs.Forest.Preorder
import Mathlib.Data.List.Sort

/-!
# Paths in a forest

A path leads from a frame to another one: each of its indices picks a child of the frame that is
reached so far, and that child has to exist (`Forest.follow?`). Nothing is asked of the children
otherwise. A frame may be a child of several frames, or several times a child of the same one, and
then several paths lead to it.

The walk of a forest makes one visit for each path from the root, provided that no frame that it
meets lies below itself (`Forest.AcyclicFrom`).

Results:
1. `follow?_cons_eq_some_iff`, `follow?_append`: a path, taken apart at its first index and where
   one path goes on another.
2. `mem_visitsFrom`, `pairwise_visitsFrom`: a walk visits what the paths within its depth lead to, in
   the lexicographic order of the paths.
3. `AcyclicFrom.length_lt`: without a cycle, a path is shorter than the forest is large.
   `AcyclicFrom.mem_visits`, `AcyclicFrom.visitsFrom_eq`: so the walk from the root misses nothing.
-/

namespace CallTree

namespace Forest

variable {forest : Forest} {id other : Nat} {frame : Frame} {path : List Nat}

/-! ## 1. Paths -/

/-- The frame that a path leads to from a frame, with its name. Each index is that of a child of the
frame reached so far, and the child exists. -/
def follow? (forest : Forest) : FrameId → List Nat → Option (FrameId × Frame)
  | id, [] => (forest.get? id).map fun frame => (id, frame)
  | id, index :: path => do
    let frame ← forest.get? id
    let child ← frame.children[index]?
    forest.follow? child path

theorem follow?_nil_eq_some_iff :
    forest.follow? id [] = some (other, frame) ↔ id = other ∧ forest.get? other = some frame := by
  simp only [follow?, Option.map_eq_some_iff, Prod.mk.injEq]
  constructor
  · rintro ⟨_, hget, rfl, rfl⟩
    exact ⟨rfl, hget⟩
  · rintro ⟨rfl, hget⟩
    exact ⟨frame, hget, rfl, rfl⟩

theorem follow?_cons_eq_some_iff {index : Nat} {found : FrameId × Frame} :
    forest.follow? id (index :: path) = some found ↔
    ∃ child, (forest.childrenOf id)[index]? = some child ∧ forest.follow? child path = some found := by
  simp only [follow?, Option.bind_eq_bind, Option.bind_eq_some_iff]
  cases hframe : forest.get? id with
  | none => simp [childrenOf, hframe]
  | some frame => simp [childrenOf_of_get? hframe]

theorem follow?_eq_none (h : forest.get? id = none) (path : List Nat) :
    forest.follow? id path = none := by
  cases path <;> simp [follow?, h]

/-- To follow one path and then another is to follow the two as one. -/
theorem follow?_append (id : FrameId) (path rest : List Nat) :
    forest.follow? id (path ++ rest) =
    (forest.follow? id path).bind fun found => forest.follow? found.1 rest := by
  induction path generalizing id with
  | nil =>
    cases hframe : forest.get? id with
    | none => simp [follow?_eq_none hframe]
    | some frame => simp [follow?, hframe]
  | cons index path ih =>
    simp only [List.cons_append, follow?, Option.bind_eq_bind, ih, Option.bind_assoc]

theorem get?_of_follow? (h : forest.follow? id path = some (other, frame)) :
    forest.get? other = some frame := by
  induction path generalizing id with
  | nil => exact (follow?_nil_eq_some_iff.mp h).2
  | cons index path ih =>
    obtain ⟨child, -, hrest⟩ := follow?_cons_eq_some_iff.mp h
    exact ih hrest

theorem lt_size_of_follow? {found : FrameId × Frame} (h : forest.follow? id path = some found) :
    id < forest.size := by
  rw [← Nat.not_le, ← get?_eq_none_iff]
  intro hnone
  rw [follow?_eq_none hnone] at h
  cases h

/-- One index more leads to a child. -/
theorem follow?_concat (h : forest.follow? id path = some (other, frame)) (index : Nat) :
    forest.follow? id (path ++ [index]) =
    frame.children[index]?.bind fun child => (forest.get? child).map fun found => (child, found) := by
  rw [follow?_append, h, Option.bind_some]
  simp [follow?, get?_of_follow? h]

/-- A path with an index leads below the frame where it begins. -/
theorem below_of_follow? {index : Nat}
    (h : forest.follow? id (index :: path) = some (other, frame)) : forest.Below id other := by
  induction path generalizing id index with
  | nil =>
    obtain ⟨child, hchild, hrest⟩ := follow?_cons_eq_some_iff.mp h
    obtain ⟨rfl, -⟩ := follow?_nil_eq_some_iff.mp hrest
    exact .single (List.mem_of_getElem? hchild)
  | cons next path ih =>
    obtain ⟨child, hchild, hrest⟩ := follow?_cons_eq_some_iff.mp h
    exact .head (List.mem_of_getElem? hchild) (ih hrest)

/-! ## 2. Walks -/

/-- A walk visits the frames that paths of less than its depth lead to. -/
theorem mem_visitsFrom {depth : Nat} {visit : Visit} :
    visit ∈ forest.visitsFrom depth path id ↔
    ∃ rest, visit.path = path ++ rest ∧ rest.length < depth ∧
      forest.follow? id rest = some (visit.id, visit.frame) := by
  induction depth generalizing path id with
  | zero => simp [visitsFrom]
  | succ depth ih =>
    rw [visitsFrom]
    cases hframe : forest.get? id with
    | none => simp [follow?_eq_none hframe]
    | some frame =>
      simp only [List.mem_cons, List.mem_flatMap, Prod.exists, List.mem_zipIdx_iff_getElem?, ih]
      constructor
      · rintro (rfl | ⟨child, index, hchild, rest, hpath, hdepth, hrest⟩)
        · exact ⟨[], (List.append_nil _).symm, Nat.succ_pos _,
            follow?_nil_eq_some_iff.mpr ⟨rfl, hframe⟩⟩
        · refine ⟨index :: rest, by rw [hpath, List.append_assoc, List.singleton_append],
            Nat.succ_lt_succ hdepth, follow?_cons_eq_some_iff.mpr ⟨child, ?_, hrest⟩⟩
          rwa [childrenOf_of_get? hframe]
      · rintro ⟨rest, hpath, hdepth, hrest⟩
        cases rest with
        | nil =>
          obtain ⟨hid, hget⟩ := follow?_nil_eq_some_iff.mp hrest
          refine .inl ?_
          rw [List.append_nil] at hpath
          rw [← hid, hframe, Option.some.injEq] at hget
          rw [hid, hget, ← hpath]
        | cons index rest =>
          obtain ⟨child, hchild, hrest⟩ := follow?_cons_eq_some_iff.mp hrest
          rw [childrenOf_of_get? hframe] at hchild
          refine .inr ⟨child, index, hchild, rest, ?_, Nat.lt_of_succ_lt_succ hdepth, hrest⟩
          rw [hpath, List.append_assoc, List.singleton_append]

theorem pairwise_zipIdx (children : List FrameId) :
    children.zipIdx.Pairwise fun pair next => pair.2 < next.2 := by
  rw [← List.pairwise_map, List.zipIdx_map_snd]
  exact List.pairwise_lt_range' 1

/-- A path comes before every path that goes on from it. -/
theorem lt_append_cons (path : List Nat) (index : Nat) (rest : List Nat) :
    path < path ++ index :: rest := by
  have hlonger : path ++ [] < path ++ index :: rest := List.append_left_lt (List.nil_lt_cons ..)
  rwa [List.append_nil] at hlonger

/-- The visits of a walk are in the lexicographic order of their paths. -/
theorem pairwise_visitsFrom (forest : Forest) (depth : Nat) (path : List Nat) (id : FrameId) :
    (forest.visitsFrom depth path id).Pairwise fun visit later => visit.path < later.path := by
  induction depth generalizing path id with
  | zero => exact .nil
  | succ depth ih =>
    rw [visitsFrom]
    cases hframe : forest.get? id with
    | none => exact .nil
    | some frame =>
      refine List.pairwise_cons.mpr ⟨?_, List.pairwise_flatMap.mpr ⟨fun pair _ => ih _ _, ?_⟩⟩
      · -- The frame comes before all that is reached by one of its children.
        intro later hlater
        obtain ⟨pair, -, hbelow⟩ := List.mem_flatMap.mp hlater
        obtain ⟨rest, hpath, -⟩ := mem_visitsFrom.mp hbelow
        rw [hpath, List.append_assoc]
        exact lt_append_cons ..
      · -- What is reached by one child comes before what is reached by the next ones.
        refine (pairwise_zipIdx frame.children).imp fun {pair next} hlt visit hvisit later hlater => ?_
        obtain ⟨rest, hpath, -⟩ := mem_visitsFrom.mp hvisit
        obtain ⟨rest', hpath', -⟩ := mem_visitsFrom.mp hlater
        rw [hpath, hpath', List.append_assoc, List.append_assoc]
        exact List.append_left_lt (List.cons_lt_cons_iff.mpr (.inl hlt))

/-! ## 3. Forests without cycles -/

/-- Neither the frame nor any frame below it lies below itself. -/
def AcyclicFrom (forest : Forest) (id : Nat) : Prop :=
  ∀ other, other = id ∨ forest.Below id other → ¬forest.Below other other

namespace AcyclicFrom

theorem child (h : forest.AcyclicFrom id) {child : Nat} (hchild : child ∈ forest.childrenOf id) :
    forest.AcyclicFrom child := by
  rintro other (rfl | hbelow)
  · exact h other (.inr (.single hchild))
  · exact h other (.inr (.head hchild hbelow))

/-- The frames on a path and some frames above it are all different, so that there are not more of
them than there are frames. -/
theorem length_add_lt (h : forest.AcyclicFrom id) {above : List Nat}
    (hdistinct : (id :: above).Nodup)
    (habove : ∀ other ∈ above, other < forest.size ∧ forest.Below other id)
    {found : FrameId × Frame} (hpath : forest.follow? id path = some found) :
    above.length + path.length < forest.size := by
  have hid := lt_size_of_follow? hpath
  induction path generalizing id above with
  | nil =>
    have hsubset : id :: above ⊆ List.range forest.size := by
      intro other hother
      rcases List.mem_cons.mp hother with rfl | hmem
      · exact List.mem_range.mpr hid
      · exact List.mem_range.mpr (habove other hmem).1
    have hlength := hdistinct.length_le_of_subset hsubset
    rwa [List.length_cons, List.length_range] at hlength
  | cons index path ih =>
    obtain ⟨child, hchild, hrest⟩ := follow?_cons_eq_some_iff.mp hpath
    have hmem := List.mem_of_getElem? hchild
    have hbefore : ∀ other ∈ id :: above, other < forest.size ∧ forest.Below other child := by
      intro other hother
      rcases List.mem_cons.mp hother with rfl | hother
      · exact ⟨hid, .single hmem⟩
      · exact ⟨(habove other hother).1, .tail (habove other hother).2 hmem⟩
    have hnew : child ∉ id :: above := fun hagain =>
      h child (.inr (.single hmem)) (hbefore child hagain).2
    have hlength := ih (h.child hmem) (List.nodup_cons.mpr ⟨hnew, hdistinct⟩) hbefore hrest
      (lt_size_of_follow? hrest)
    rw [List.length_cons] at hlength ⊢
    omega

/-- A path is shorter than the forest is large. -/
theorem length_lt (h : forest.AcyclicFrom id) {found : FrameId × Frame}
    (hpath : forest.follow? id path = some found) : path.length < forest.size := by
  have hlength := h.length_add_lt (List.nodup_singleton id) (fun _ hmem => by cases hmem) hpath
  rwa [List.length_nil, Nat.zero_add] at hlength

/-- A walk that may go as deep as the forest has frames visits what the paths from its beginning lead
to. -/
theorem mem_visitsFrom_iff (h : forest.AcyclicFrom id) {depth : Nat} (hdepth : forest.size ≤ depth)
    {visit : Visit} :
    visit ∈ forest.visitsFrom depth [] id ↔
    forest.follow? id visit.path = some (visit.id, visit.frame) := by
  rw [mem_visitsFrom]
  constructor
  · rintro ⟨rest, hpath, -, hfollow⟩
    rwa [hpath, List.nil_append]
  · intro hfollow
    exact ⟨visit.path, rfl, Nat.lt_of_lt_of_le (h.length_lt hfollow) hdepth, hfollow⟩

/-- The walk from the root visits what the paths from the root lead to. -/
theorem mem_visits (h : forest.AcyclicFrom rootId) {visit : Visit} :
    visit ∈ forest.visits ↔
    forest.follow? rootId visit.path = some (visit.id, visit.frame) :=
  h.mem_visitsFrom_iff (Nat.le_refl _)

/-- The walk from the root is not cut short: allowed to go deeper, it makes the same visits. -/
theorem visitsFrom_eq (h : forest.AcyclicFrom rootId) {depth : Nat} (hdepth : forest.size ≤ depth) :
    forest.visitsFrom depth [] rootId = forest.visits := by
  have : Std.Asymm fun visit later : Visit => visit.path < later.path :=
    ⟨fun _ _ => List.lt_asymm⟩
  exact (pairwise_visitsFrom ..).eq_of_mem_iff (pairwise_visitsFrom ..) fun visit =>
    (h.mem_visitsFrom_iff hdepth).trans h.mem_visits.symm

end AcyclicFrom

end Forest

end CallTree
