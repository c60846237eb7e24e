import CallTree.Proofs.Forest.Paths
import CallTree.Record.Basic

/-!
# The paths of records

A record carries the path from the root to its frame. The records of a forest are one for each path
that leads from the root to a frame, in the lexicographic order of the paths, so that a frame comes
before the frames below it. This needs no more of the forest than that no frame reached from the root
lies below itself: frames may be shared, and children may be missing.

Results:
1. `AcyclicFrom.mem_records`, `pairwise_paths`: the records of a forest and the paths from its root.
2. `AcyclicFrom.paths_children`: the records of the children of a frame.
3. `listsPaths_of_acyclic`: the records as a list.
-/

namespace CallTree

/-- The path of a record goes on from that of another by a single index. -/
def Record.isChildOf (record parent : Record) : Bool :=
  !record.path.isEmpty && record.path.dropLast == parent.path

theorem Record.isChildOf_iff {record parent : Record} :
    record.isChildOf parent ↔ ∃ index, record.path = parent.path ++ [index] := by
  simp only [isChildOf, Bool.and_eq_true, Bool.not_eq_true', List.isEmpty_eq_false_iff, beq_iff_eq]
  constructor
  · rintro ⟨hne, hparent⟩
    exact ⟨record.path.getLast hne, by rw [← hparent, List.dropLast_concat_getLast]⟩
  · rintro ⟨index, hpath⟩
    rw [hpath]
    exact ⟨List.append_ne_nil_of_right_ne_nil _ (List.cons_ne_nil _ _), List.dropLast_concat⟩

namespace Forest

variable {forest : Forest} {tx : Option Transaction}

/-! ## 1. Records and paths -/

/-- Only the empty path leads to the root. -/
theorem AcyclicFrom.eq_root_iff (h : forest.AcyclicFrom rootId) {id : FrameId} {frame : Frame}
    {path : List Nat} (hpath : forest.follow? rootId path = some (id, frame)) :
    (id == rootId) = path.isEmpty := by
  cases path with
  | nil =>
    obtain ⟨rfl, -⟩ := follow?_nil_eq_some_iff.mp hpath
    rfl
  | cons index path =>
    have hbelow := below_of_follow? hpath
    refine beq_eq_false_iff_ne.mpr ?_
    rintro rfl
    exact h _ (.inl rfl) hbelow

/-- The records are those of the frames that paths lead to from the root. -/
theorem AcyclicFrom.mem_records (h : forest.AcyclicFrom rootId) {record : Record} :
    record ∈ forest.records tx ↔ ∃ id frame,
      forest.follow? rootId record.path = some (id, frame) ∧
      record = .ofFrame frame tx record.path record.path.isEmpty := by
  rw [records, List.mem_map]
  constructor
  · rintro ⟨visit, hvisit, rfl⟩
    have hpath := h.mem_visits.mp hvisit
    refine ⟨visit.id, visit.frame, hpath, ?_⟩
    show Record.ofFrame visit.frame tx visit.path (visit.id == rootId) = _
    rw [h.eq_root_iff hpath]
    rfl
  · rintro ⟨id, frame, hpath, hrecord⟩
    refine ⟨⟨id, record.path, frame⟩, h.mem_visits.mpr hpath, ?_⟩
    show Record.ofFrame frame tx record.path (id == rootId) = _
    rw [h.eq_root_iff hpath, ← hrecord]

theorem AcyclicFrom.mem_paths (h : forest.AcyclicFrom rootId) {path : List Nat} :
    path ∈ (forest.records tx).map (·.path) ↔ (forest.follow? rootId path).isSome := by
  rw [List.mem_map, Option.isSome_iff_exists]
  constructor
  · rintro ⟨record, hrecord, rfl⟩
    obtain ⟨id, frame, hpath, -⟩ := h.mem_records.mp hrecord
    exact ⟨(id, frame), hpath⟩
  · rintro ⟨⟨id, frame⟩, hpath⟩
    exact ⟨.ofFrame frame tx path path.isEmpty, h.mem_records.mpr ⟨id, frame, hpath, rfl⟩, rfl⟩

theorem pairwise_paths (forest : Forest) (tx : Option Transaction) :
    ((forest.records tx).map (·.path)).Pairwise (· < ·) := by
  rw [records, List.map_map, List.pairwise_map]
  exact forest.pairwise_visitsFrom ..

/-! ## 2. The records of children -/

/-- Where no child of a frame is missing, each of its indices goes on from a path to it. -/
theorem isSome_follow?_concat {id : FrameId} {frame : Frame} {path : List Nat}
    (hpath : forest.follow? rootId path = some (id, frame))
    (hexist : ∀ child ∈ frame.children, child < forest.size) (index : Nat) :
    (forest.follow? rootId (path ++ [index])).isSome ↔ index < frame.children.length := by
  rw [follow?_concat hpath]
  cases hchild : frame.children[index]? with
  | none => simpa using hchild
  | some child =>
    obtain ⟨found, hfound⟩ := exists_get? (hexist child (List.mem_of_getElem? hchild))
    simpa [hfound] using (List.getElem?_eq_some_iff.mp hchild).1

/-- Where no child of a frame is missing, the records of its children have the paths that go on by
the index of a child, in their order. -/
theorem AcyclicFrom.paths_children (h : forest.AcyclicFrom rootId) {record : Record} {id : FrameId}
    {frame : Frame} (hpath : forest.follow? rootId record.path = some (id, frame))
    (hexist : ∀ child ∈ frame.children, child < forest.size) :
    ((forest.records tx).filter (·.isChildOf record)).map (·.path) =
    (List.range frame.children.length).map (record.path ++ [·]) := by
  have hsorted : ((List.range frame.children.length).map (record.path ++ [·])).Pairwise (· < ·) := by
    refine List.pairwise_map.mpr (List.pairwise_lt_range.imp fun hlt => ?_)
    exact List.append_left_lt (List.cons_lt_cons_iff.mpr (.inl hlt))
  refine ((forest.pairwise_paths tx).sublist (List.filter_sublist.map _)).eq_of_mem_iff hsorted
    fun path => ?_
  simp only [List.mem_map, List.mem_filter, List.mem_range, Record.isChildOf_iff]
  constructor
  · rintro ⟨other, ⟨hother, index, hindex⟩, rfl⟩
    refine ⟨index, ?_, hindex.symm⟩
    rw [← isSome_follow?_concat hpath hexist, ← hindex, ← h.mem_paths]
    exact List.mem_map_of_mem hother
  · rintro ⟨index, hlt, rfl⟩
    rw [← isSome_follow?_concat hpath hexist] at hlt
    have hmem : record.path ++ [index] ∈ (forest.records tx).map (·.path) := h.mem_paths.mpr hlt
    obtain ⟨other, hother, hindex⟩ := List.mem_map.mp hmem
    exact ⟨other, ⟨hother, index, hindex⟩, hindex⟩

/-- A record comes before those of the children of its frame. -/
theorem lt_of_isChildOf {i j : Nat} {record other : Record}
    (hrecord : (forest.records tx)[i]? = some record) (hother : (forest.records tx)[j]? = some other)
    (hchild : other.isChildOf record) : i < j := by
  obtain ⟨index, hindex⟩ := Record.isChildOf_iff.mp hchild
  have hlt : record.path < other.path := hindex ▸ lt_append_cons ..
  obtain ⟨hi, rfl⟩ := List.getElem?_eq_some_iff.mp hrecord
  obtain ⟨hj, rfl⟩ := List.getElem?_eq_some_iff.mp hother
  have hsorted := List.pairwise_iff_getElem.mp (List.pairwise_map.mp (forest.pairwise_paths tx))
  rcases Nat.lt_trichotomy i j with hbefore | rfl | hafter
  · exact hbefore
  · exact absurd hlt (List.lt_irrefl _)
  · exact absurd hlt (List.lt_asymm (hsorted j i hj hi hafter))

/-! ## 3. The list of records -/

/-- The records of a forest as a list: one for each path from the root to a frame. -/
structure ListsPaths (forest : Forest) (tx : Option Transaction) : Prop where
  paths : ∀ path, path ∈ (forest.records tx).map (·.path) ↔ (forest.follow? rootId path).isSome
  /-- No path occurs twice, and a path comes before every path that goes on from it. -/
  sorted : ((forest.records tx).map (·.path)).Pairwise (· < ·)
  record : ∀ record ∈ forest.records tx, ∃ id frame,
    forest.follow? rootId record.path = some (id, frame) ∧
    record = .ofFrame frame tx record.path record.path.isEmpty ∧
    record.depth = record.path.length ∧ record.childCount = frame.children.length
  /-- Where no child of a frame is missing, its children have the records whose paths go on by one
  index, all behind its own. -/
  children : ∀ (i : Nat) (record : Record) (id : FrameId) (frame : Frame),
    (forest.records tx)[i]? = some record →
    forest.follow? rootId record.path = some (id, frame) →
    (∀ child ∈ frame.children, child < forest.size) →
    ((forest.records tx).filter (·.isChildOf record)).map (·.path) =
        (List.range record.childCount).map (record.path ++ [·]) ∧
      ∀ j other, (forest.records tx)[j]? = some other → other.isChildOf record → i < j
  /-- The limit to the depth of the walk makes no difference. -/
  unlimited : ∀ depth, forest.size ≤ depth →
    (forest.visitsFrom depth [] rootId).map (Record.ofVisit tx) = forest.records tx

/-- If no frame that is reached from the root lies below itself, the records are one for each path
from the root to a frame, whether or not frames are shared or children are missing. -/
theorem listsPaths_of_acyclic (forest : Forest) (tx : Option Transaction)
    (h : forest.AcyclicFrom rootId) : forest.ListsPaths tx where
  paths _ := h.mem_paths
  sorted := forest.pairwise_paths tx
  record record hrecord := by
    obtain ⟨id, frame, hpath, hshows⟩ := h.mem_records.mp hrecord
    refine ⟨id, frame, hpath, hshows, rfl, ?_⟩
    rw [hshows]
    rfl
  children i record id frame hrecord hpath hexist := by
    refine ⟨?_, fun j other hother hchild => lt_of_isChildOf hrecord hother hchild⟩
    obtain ⟨id', frame', hpath', hshows⟩ := h.mem_records.mp (List.mem_of_getElem? hrecord)
    have hcount : record.childCount = frame.children.length := by
      rw [hpath, Option.some.injEq, Prod.mk.injEq] at hpath'
      rw [hshows, hpath'.2]
      rfl
    rw [hcount, h.paths_children hpath hexist]
  unlimited depth hdepth := by
    rw [h.visitsFrom_eq hdepth, records]

/-- A frame is twice a child of the root, its own child was opened before it, and one child of the
root is missing. -/
def sharing : Forest :=
  let caller (children : List FrameId) : Frame :=
    { action := .call .call 0 0 [] none, children := children }
  ⟨#[caller [2, 9, 2, 1], caller [], caller [1]]⟩

theorem acyclicFrom_sharing : sharing.AcyclicFrom rootId := by
  -- Children rank above their parents, though they are not named after them.
  obtain ⟨rank, hrank⟩ : ∃ rank : Nat → Nat,
      ∀ parent < sharing.size, ∀ child ∈ sharing.childrenOf parent, rank parent < rank child :=
    ⟨fun id => if id = 0 then 0 else if id = 2 then 1 else 2, by decide⟩
  have hstep : ∀ parent child, child ∈ sharing.childrenOf parent → rank parent < rank child := by
    intro parent child hchild
    refine hrank parent (Nat.lt_of_not_le fun hsize => ?_) child hchild
    rw [childrenOf_of_size_le hsize] at hchild
    cases hchild
  intro id _ hbelow
  have hcycle : Relation.TransGen (· < ·) (rank id) (rank id) := hbelow.lift rank hstep
  rw [Relation.transGen_eq_self] at hcycle
  exact Nat.lt_irrefl _ hcycle

theorem listsPaths_sharing :
    sharing.AcyclicFrom rootId ∧
    (sharing.records none).map (·.path) = [[], [0], [0, 0], [2], [2, 0], [3]] ∧
    sharing.ListsPaths none :=
  ⟨acyclicFrom_sharing, by decide, listsPaths_of_acyclic sharing none acyclicFrom_sharing⟩

end Forest

end CallTree
