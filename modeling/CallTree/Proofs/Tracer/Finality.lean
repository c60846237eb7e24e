import CallTree.Proofs.Tracer.Listing
import CallTree.Proofs.Tracer.Moves

/-!
# What is final

A frame that is closed stays as it is and stays closed, and a frame only ever gains children behind
those that it has. The records follow: a tree below the root has records once its top is closed, so
a step may add records behind those that are there, but it changes none of them except that of the
root.

Results:
1. `Change.final`, `Change.childrenOf_prefix`: what a change leaves alone.
2. `Nested.extends`: moves extend the tree and its records.
3. `extends_after`: every step and every report of failure extends the tracer that it meets.
-/

namespace CallTree

namespace Tracer

variable {t t' : Tracer} {id : FrameId}

/-! ## 1. Closed frames and children -/

/-- The frame is known and closed. -/
structure Closed (t : Tracer) (id : FrameId) : Prop where
  known : id < t.forest.size
  closed : id ∉ t.openIds

theorem topOf_mem_openIds {id : FrameId} {rest : List FrameId} (h : t.inner = id :: rest) :
    topOf rest ∈ t.openIds := by
  obtain ⟨others, -, hopen⟩ := openIds_of_cons h
  rw [hopen]
  exact List.mem_cons_of_mem _ List.mem_cons_self

/-- A change leaves a closed frame alone, and closed. -/
theorem Change.final (h : Change t t') (hid : t.Closed id) :
    t'.Closed id ∧ t'.forest.get? id = t.forest.get? id := by
  obtain ⟨hknown, hclosed⟩ := hid
  have hne : ∀ {other}, other ∈ t.openIds → other ≠ id := by
    rintro other hother rfl
    exact hclosed hother
  cases h with
  | note hforest hinner =>
    rw [hforest]
    exact ⟨⟨hforest ▸ hknown, by rwa [openIds, hinner]⟩, rfl⟩
  | amend htarget =>
    refine ⟨⟨?_, hclosed⟩, ?_⟩
    · rwa [Tracer.amend, Forest.size_modify]
    · rw [Tracer.amend, Forest.get?_modify, if_neg (hne htarget)]
  | push =>
    have hnew : id ≠ t.forest.size := Nat.ne_of_lt hknown
    refine ⟨⟨?_, ?_⟩, ?_⟩
    · rw [Tracer.push, Forest.size_push]
      exact Nat.lt_succ_of_lt hknown
    · exact fun hopen => (List.mem_cons.mp hopen).elim hnew hclosed
    · rw [Tracer.push, Forest.get?_push, if_neg hnew]
  | pushLeaf =>
    refine ⟨⟨?_, hclosed⟩, ?_⟩
    · rw [Tracer.pushLeaf, Forest.size_addChild, Forest.size_push]
      exact Nat.lt_succ_of_lt hknown
    · rw [Tracer.pushLeaf, Forest.addChild, Forest.get?_modify, if_neg (hne t.top_mem_openIds),
        Forest.get?_push, if_neg (Nat.ne_of_lt hknown)]
  | pop =>
    cases hinner : t.inner with
    | nil =>
      simp only [Tracer.pop, hinner]
      exact ⟨⟨hknown, hclosed⟩, trivial⟩
    | cons last rest =>
      simp only [Tracer.pop, hinner]
      refine ⟨⟨?_, fun hopen => hclosed ?_⟩, ?_⟩
      · rwa [Forest.size_addChild]
      · rw [openIds, hinner]
        exact List.mem_cons_of_mem _ hopen
      · rw [Forest.addChild, Forest.get?_modify, if_neg (hne (topOf_mem_openIds hinner))]

theorem childrenOf_prefix_addChild (forest : Forest) (parent child id : FrameId) :
    forest.childrenOf id <+: (forest.addChild parent child).childrenOf id := by
  cases hframe : forest.get? id with
  | none =>
    rw [Forest.childrenOf_of_size_le (Forest.get?_eq_none_iff.mp hframe)]
    exact List.nil_prefix
  | some frame =>
    by_cases hid : parent = id <;>
      simp [Forest.childrenOf, Forest.addChild, Forest.get?_modify, hframe, hid]

/-- A change gives a frame at most more children, behind those that it has. -/
theorem Change.childrenOf_prefix (h : Change t t') (id : FrameId) :
    t.forest.childrenOf id <+: t'.forest.childrenOf id := by
  cases h with
  | note hforest => exact hforest ▸ List.prefix_refl _
  | @amend target f _ hf =>
    have hsame : (t.amend target f).forest.childrenOf = t.forest.childrenOf :=
      Forest.childrenOf_modify hf.children
    exact hsame ▸ List.prefix_refl _
  | @push frame hframe =>
    have hsame : (t.push frame).forest.childrenOf = t.forest.childrenOf :=
      Forest.childrenOf_push hframe.children
    exact hsame ▸ List.prefix_refl _
  | pushLeaf hframe =>
    rw [Tracer.pushLeaf, ← Forest.childrenOf_push hframe]
    exact childrenOf_prefix_addChild ..
  | pop =>
    cases hinner : t.inner with
    | nil =>
      have hsame : t.pop = t := by simp only [Tracer.pop, hinner]
      exact hsame.symm ▸ List.prefix_refl _
    | cons last rest =>
      simp only [Tracer.pop, hinner]
      exact childrenOf_prefix_addChild ..

theorem Change.size_le (h : Change t t') : t.forest.size ≤ t'.forest.size := by
  cases h with
  | note hforest => exact Nat.le_of_eq (congrArg Forest.size hforest.symm)
  | amend => exact Nat.le_of_eq (Forest.size_modify ..).symm
  | push =>
    rw [Tracer.push, Forest.size_push]
    exact Nat.le_succ _
  | pushLeaf =>
    rw [Tracer.pushLeaf, Forest.size_addChild, Forest.size_push]
    exact Nat.le_succ _
  | pop =>
    cases hinner : t.inner <;> simp [Tracer.pop, hinner]

namespace Changes

theorem final (h : Changes t t') (hid : t.Closed id) :
    t'.Closed id ∧ t'.forest.get? id = t.forest.get? id := by
  induction h with
  | refl => exact ⟨hid, rfl⟩
  | tail _ hchange ih =>
    obtain ⟨hclosed, hsame⟩ := ih
    obtain ⟨hclosed', hsame'⟩ := hchange.final hclosed
    exact ⟨hclosed', hsame'.trans hsame⟩

theorem childrenOf_prefix (h : Changes t t') (id : FrameId) :
    t.forest.childrenOf id <+: t'.forest.childrenOf id := by
  induction h with
  | refl => exact List.prefix_refl _
  | tail _ hchange ih => exact ih.trans (hchange.childrenOf_prefix id)

theorem size_le (h : Changes t t') : t.forest.size ≤ t'.forest.size := by
  induction h with
  | refl => exact Nat.le_refl _
  | tail _ hchange ih => exact Nat.le_trans ih hchange.size_le

end Changes

/-! ## 2. Records -/

/-- What a tracer has closed and recorded stays, and more may be added behind it. -/
structure Extends (t t' : Tracer) : Prop where
  /-- A closed frame stays the same in all that is known about it. -/
  closed : ∀ id, id < t.forest.size → id ∉ t.openIds → t'.forest.get? id = t.forest.get? id
  children : ∀ id, t.forest.childrenOf id <+: t'.forest.childrenOf id
  records : ∃ root root' shown added,
    t.forest.root? = some root ∧ t'.forest.root? = some root' ∧
    t.records = Record.ofFrame root t.transaction [] true :: shown ∧
    t'.records = Record.ofFrame root' t'.transaction [] true :: (shown ++ added)

theorem Nested.exists_root (h : t.Nested) :
    ∃ root, t.forest.get? rootId = some root ∧
      Covers t.forest.childrenOf root.children 1 t.shownCount := by
  obtain ⟨root, hroot⟩ := Forest.exists_get? (h.mem_lt t.root_mem_openIds)
  refine ⟨root, hroot, ?_⟩
  have hcovers : Covers t.forest.childrenOf [rootId] rootId t.shownCount := h.layered.lowest
  rw [Covers.single_iff, Forest.childrenOf_of_get? hroot] at hcovers
  exact hcovers

/-- A frame that has a record is closed, unless it is the root. -/
theorem Nested.closed_of_lt_shownCount (h : t.Nested) (hpos : 1 ≤ id) (hid : id < t.shownCount) :
    t.Closed id := by
  refine ⟨Nat.lt_of_lt_of_le hid h.shownCount_le_size, fun hopen => ?_⟩
  rcases List.mem_append.mp hopen with hinner | hroot
  · exact absurd (h.shownCount_le hinner) (Nat.not_le_of_lt hid)
  · obtain rfl := List.mem_singleton.mp hroot
    exact Nat.not_succ_le_zero _ hpos

/-- Moves extend the tree and its records. -/
theorem Nested.extends (h : t.Nested) (hmoves : Moves t t') : t.Extends t' := by
  have hchanges := hmoves.changes
  refine ⟨fun id hknown hclosed => (hchanges.final ⟨hknown, hclosed⟩).2,
    hchanges.childrenOf_prefix, ?_⟩
  obtain ⟨root, hroot, hcovers⟩ := h.exists_root
  obtain ⟨root', hroot', -⟩ := (h.moves hmoves).exists_root
  have hchildren := hchanges.childrenOf_prefix rootId
  rw [Forest.childrenOf_of_get? hroot, Forest.childrenOf_of_get? hroot'] at hchildren
  -- The frames with records are closed, so that the walk meets them again on the same paths.
  obtain ⟨shown, added, hshown, hadded⟩ := Forest.visits_extend hroot hroot' h.ascending hcovers
    (fun id hpos hid => (hchanges.final (h.closed_of_lt_shownCount hpos hid)).2) hchildren
    hchanges.size_le
  refine ⟨root, root', shown.map (Record.ofVisit t.transaction),
    added.map (Record.ofVisit t.transaction), hroot, hroot', ?_, ?_⟩
  · rw [records, Forest.records, hshown]
    rfl
  · rw [records, Forest.records, hadded, hmoves.transaction, List.map_cons, List.map_append]
    rfl

/-! ## 3. Every reachable tracer -/

/-- After any operations a further step, accepted or not, and a further report of failure leave the
closed frames alone, give frames more children only behind those they have, and add records only
behind those that are there. Of these only the record of the root may change. -/
theorem extends_after (settings : Settings) (operations : List Operation) :
    (∀ step state, (after settings operations).Extends
      ((after settings operations).observe step state).tracer) ∧
    ∀ message, (after settings operations).Extends ((after settings operations).fail message) := by
  have h := nested_after settings operations
  exact ⟨fun step state => h.extends (moves_observe _ step state),
    fun message => h.extends (moves_fail _ message)⟩

end Tracer

end CallTree
