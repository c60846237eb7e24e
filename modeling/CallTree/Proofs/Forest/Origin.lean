import CallTree.Proofs.Forest.Paths

/-!
# Where a failure began

The failure of a frame is put down to the last of its children that failed, if any of them did, and
the failure of that child to the last of its own. This way ends at a frame none of whose children
failed (`Forest.Origin`), and there is only one such way.

The walk that looks for the origin takes every way through failed children and keeps the end of the
last one. No way is lost: where each child is opened after its parent, every failed child leads to
some end.

Results:
1. `Origin.unique`, `Origin.follow?`, `Origin.failed_take`: the way to the origin.
2. `exists_origin`: the last end that the walk finds.
3. `failureOrigin_eq_none_iff`, `failureOrigin_eq_some_iff`: what is found from the root.
-/

namespace CallTree

namespace Forest

variable {forest : Forest} {id : Nat}

/-! ## 1. The way to the origin -/

/-- There is such a frame, and it failed. -/
def Failed (forest : Forest) (id : Nat) : Prop :=
  (forest.get? id).any Frame.failed = true

theorem failed_iff : forest.Failed id ↔ ∃ frame, forest.get? id = some frame ∧ frame.failed := by
  rw [Failed, Option.any_eq_true]

/-- Of the children of a frame that failed, the last one has the given index. -/
structure LastFailed (forest : Forest) (id index child : Nat) : Prop where
  isChild : (forest.childrenOf id)[index]? = some child
  failed : forest.Failed child
  last : ∀ later other, index < later → (forest.childrenOf id)[later]? = some other →
    ¬forest.Failed other

/-- From a frame, a path goes on to the last failed child as long as there is one, and it ends at
`origin`. -/
inductive Origin (forest : Forest) : Nat → List Nat → Nat → Prop
  | stop {id : Nat} : (∀ child ∈ forest.childrenOf id, ¬forest.Failed child) →
      Origin forest id [] id
  | descend {id index child origin : Nat} {path : List Nat} : forest.LastFailed id index child →
      Origin forest child path origin → Origin forest id (index :: path) origin

theorem LastFailed.unique {index index' child child' : Nat} (h : forest.LastFailed id index child)
    (h' : forest.LastFailed id index' child') : index = index' ∧ child = child' := by
  have hindex : index = index' := by
    rcases Nat.lt_trichotomy index index' with hlt | hsame | hgt
    · exact absurd h'.failed (h.last index' child' hlt h'.isChild)
    · exact hsame
    · exact absurd h.failed (h'.last index child hgt h.isChild)
  subst hindex
  exact ⟨rfl, Option.some.inj (h.isChild.symm.trans h'.isChild)⟩

namespace Origin

variable {origin : Nat} {path : List Nat}

theorem unique (h : forest.Origin id path origin) {path' : List Nat} {origin' : Nat}
    (h' : forest.Origin id path' origin') : path = path' ∧ origin = origin' := by
  induction h generalizing path' origin' with
  | stop hnone =>
    cases h' with
    | stop => exact ⟨rfl, rfl⟩
    | descend hlast => exact absurd hlast.failed (hnone _ (List.mem_of_getElem? hlast.isChild))
  | descend hlast _ ih =>
    cases h' with
    | stop hnone => exact absurd hlast.failed (hnone _ (List.mem_of_getElem? hlast.isChild))
    | descend hlast' hrest' =>
      obtain ⟨rfl, rfl⟩ := hlast.unique hlast'
      obtain ⟨rfl, rfl⟩ := ih hrest'
      exact ⟨rfl, rfl⟩

/-- No child of the origin failed. -/
theorem children (h : forest.Origin id path origin) :
    ∀ child ∈ forest.childrenOf origin, ¬forest.Failed child := by
  induction h with
  | stop hnone => exact hnone
  | descend _ _ ih => exact ih

/-- Every frame on the way from a failed frame to the origin failed. -/
theorem failed_take (h : forest.Origin id path origin) (hfailed : forest.Failed id) (n : Nat) :
    ∃ last frame, forest.follow? id (path.take n) = some (last, frame) ∧ frame.failed := by
  induction h generalizing n with
  | stop =>
    obtain ⟨frame, hframe, hfailed⟩ := failed_iff.mp hfailed
    exact ⟨_, frame, by rw [List.take_nil, follow?_nil_eq_some_iff]; exact ⟨rfl, hframe⟩, hfailed⟩
  | descend hlast _ ih =>
    cases n with
    | zero =>
      obtain ⟨frame, hframe, hfailed⟩ := failed_iff.mp hfailed
      exact ⟨_, frame, follow?_nil_eq_some_iff.mpr ⟨rfl, hframe⟩, hfailed⟩
    | succ n =>
      obtain ⟨last, frame, hpath, hframe⟩ := ih hlast.failed n
      exact ⟨last, frame, follow?_cons_eq_some_iff.mpr ⟨_, hlast.isChild, hpath⟩, hframe⟩

/-- The way leads to the origin. -/
theorem follow? (h : forest.Origin id path origin) {frame : Frame}
    (hframe : forest.get? origin = some frame) :
    forest.follow? id path = some (origin, frame) := by
  induction h with
  | stop => exact follow?_nil_eq_some_iff.mpr ⟨rfl, hframe⟩
  | descend hlast _ ih => exact follow?_cons_eq_some_iff.mpr ⟨_, hlast.isChild, ih hframe⟩

end Origin

/-! ## 2. The walk -/

theorem mem_failedChildren {frame : Frame} {child index : Nat} :
    (child, index) ∈ forest.failedChildren frame ↔
    frame.children[index]? = some child ∧ forest.Failed child := by
  rw [failedChildren, List.mem_filter, List.mem_zipIdx_iff_getElem?]
  exact Iff.rfl

/-- The last of the failed children in the order of the children. -/
theorem lastFailed_of_concat {frame : Frame} (hframe : forest.get? id = some frame)
    {others : List (FrameId × Nat)} {child index : Nat}
    (h : forest.failedChildren frame = others ++ [(child, index)]) :
    forest.LastFailed id index child := by
  have hmem : (child, index) ∈ forest.failedChildren frame :=
    h ▸ List.mem_append_right _ List.mem_cons_self
  obtain ⟨hchild, hfailed⟩ := mem_failedChildren.mp hmem
  have hsorted : (forest.failedChildren frame).Pairwise fun pair next => pair.2 < next.2 :=
    (pairwise_zipIdx frame.children).sublist List.filter_sublist
  rw [h, List.pairwise_append] at hsorted
  refine ⟨by rwa [childrenOf_of_get? hframe], hfailed, fun later other hlater hother hfailed' => ?_⟩
  rw [childrenOf_of_get? hframe] at hother
  have hagain := mem_failedChildren.mpr ⟨hother, hfailed'⟩
  rw [h, List.mem_append, List.mem_singleton] at hagain
  rcases hagain with hbefore | hsame
  · exact Nat.lt_asymm hlater (hsorted.2.2 _ hbefore _ List.mem_cons_self)
  · obtain ⟨rfl, rfl⟩ := Prod.mk.inj hsame
    exact Nat.lt_irrefl _ hlater

/-- The walk ends as it does from the last of the failed children. -/
theorem getLast?_originsFrom {depth : Nat} {path : List Nat} {frame : Frame}
    (hframe : forest.get? id = some frame) {others : List (FrameId × Nat)} {child index : Nat}
    (h : forest.failedChildren frame = others ++ [(child, index)]) {visit : Visit}
    (hvisit : (forest.originsFrom depth (path ++ [index]) child).getLast? = some visit) :
    (forest.originsFrom (depth + 1) path id).getLast? = some visit := by
  have hmatch : forest.originsFrom (depth + 1) path id =
      (forest.failedChildren frame).flatMap fun pair =>
        forest.originsFrom depth (path ++ [pair.2]) pair.1 := by
    simp only [originsFrom, hframe]
    split
    · next hnil => simp [h] at hnil
    · rfl
  rw [hmatch, h, List.flatMap_append, List.flatMap_singleton, List.getLast?_append, hvisit]
  rfl

/-- From an existing frame the walk finds at last the end of the way through the last failed
children. -/
theorem exists_origin (h : forest.Ascending) {depth : Nat} (hid : id < forest.size)
    (hdepth : forest.size ≤ id + depth) (path : List Nat) :
    ∃ rest origin frame, forest.Origin id rest origin ∧ forest.get? origin = some frame ∧
      (forest.originsFrom depth path id).getLast? = some ⟨origin, path ++ rest, frame⟩ := by
  induction depth generalizing path id with
  | zero => omega
  | succ depth ih =>
    obtain ⟨frame, hframe⟩ := exists_get? hid
    rcases List.eq_nil_or_concat (forest.failedChildren frame) with
      hnil | ⟨others, ⟨child, index⟩, hlast⟩
    · -- The walk stops here, and so does the way.
      refine ⟨[], id, frame, .stop fun child hchild hfailed => ?_, hframe, ?_⟩
      · rw [childrenOf_of_get? hframe] at hchild
        obtain ⟨index, hindex⟩ := List.mem_iff_getElem?.mp hchild
        have hmem := mem_failedChildren.mpr ⟨hindex, hfailed⟩
        rw [hnil] at hmem
        cases hmem
      · rw [originsFrom, hframe, List.append_nil]
        simp only [hnil, List.getLast?_singleton]
    · rw [List.concat_eq_append] at hlast
      have hchild := lastFailed_of_concat hframe hlast
      have hlater : id < child := h id child (List.mem_of_getElem? hchild.isChild)
      obtain ⟨found, hfound, -⟩ := failed_iff.mp hchild.failed
      obtain ⟨rest, origin, frame', horigin, hframe', hwalk⟩ :=
        ih (lt_size_of_get? hfound) (by omega) (path ++ [index])
      rw [List.append_assoc, List.singleton_append] at hwalk
      exact ⟨index :: rest, origin, frame', .descend hchild horigin, hframe',
        getLast?_originsFrom hframe hlast hwalk⟩

/-! ## 3. From the root -/

theorem failureOrigin_of_not_failed (h : ¬forest.Failed rootId) : forest.failureOrigin = none :=
  if_neg h

/-- If the root failed, the origin of its failure is found. -/
theorem exists_failureOrigin (h : forest.Ascending) (hroot : forest.Failed rootId) :
    ∃ visit, forest.failureOrigin = some visit ∧ forest.Origin rootId visit.path visit.id ∧
      forest.get? visit.id = some visit.frame := by
  obtain ⟨root, hget, -⟩ := failed_iff.mp hroot
  obtain ⟨path, origin, frame, horigin, hframe, hwalk⟩ :=
    exists_origin h (lt_size_of_get? hget) (Nat.le_add_left ..) []
  exact ⟨⟨origin, path, frame⟩, (if_pos hroot).trans hwalk, horigin, hframe⟩

theorem failureOrigin_eq_none_iff (h : forest.Ascending) :
    forest.failureOrigin = none ↔ ¬forest.Failed rootId := by
  refine ⟨fun hnone hroot => ?_, failureOrigin_of_not_failed⟩
  obtain ⟨visit, hfound, -⟩ := exists_failureOrigin h hroot
  rw [hnone] at hfound
  cases hfound

/-- What is found is the end of the way from the root through the last failed children. -/
theorem failureOrigin_eq_some_iff (h : forest.Ascending) {visit : Visit} :
    forest.failureOrigin = some visit ↔
    forest.Failed rootId ∧ forest.Origin rootId visit.path visit.id ∧
      forest.get? visit.id = some visit.frame := by
  constructor
  · intro hfound
    have hroot : forest.Failed rootId := by
      by_contra hroot
      rw [failureOrigin_of_not_failed hroot] at hfound
      cases hfound
    obtain ⟨visit', hfound', horigin, hframe⟩ := exists_failureOrigin h hroot
    obtain rfl : visit' = visit := Option.some.inj (hfound'.symm.trans hfound)
    exact ⟨hroot, horigin, hframe⟩
  · rintro ⟨hroot, horigin, hframe⟩
    obtain ⟨⟨id, path, frame⟩, hfound, horigin', hframe'⟩ := exists_failureOrigin h hroot
    obtain ⟨id', path', frame'⟩ := visit
    obtain ⟨rfl, rfl⟩ := horigin.unique horigin'
    obtain rfl : frame' = frame := Option.some.inj (hframe.symm.trans hframe')
    exact hfound

-- Of two failed children the last one counts, though it is not the last child, and the failure of
-- a frame below a child that did not fail does not count.
example :
    let frame (failed : Bool) (children : List FrameId) : Frame :=
      { action := .call .call 0 0 [] none, error := if failed then some "" else none,
        children := children }
    let forest : Forest := ⟨#[frame true [1, 2, 4], frame true [], frame true [3], frame true [],
      frame false [5], frame true []]⟩
    forest.failureOrigin.map (·.path) = some [1, 0] := by
  decide

end Forest

end CallTree
