import CallTree.Proofs.Forest.Origin
import CallTree.Proofs.Record.Paths
import CallTree.Proofs.Tracer.Attribution

/-!
# What a failed transaction is put down to

A transaction failed if its root did. The failure is then put down to the frame at the end of the
way from the root through the last failed children (`Forest.Origin`): this frame failed, and none of
its children did. A failure that a caller has recovered from is not on the way.

The walk that looks for the frame and the walk that lists the records name frames by paths of the
same kind, so the path to the frame is that of its record.

Results:
1. `Nested.acyclicFrom_root`, `failed_iff_errorOf`: what any tracer has that these walks need.
2. `Nested.explainsFailure`: what is known of the frame that is found, its record included.
3. `failureOrigin_after`: which frame is found after any operations, and that there is none only if
   the root did not fail.
-/

namespace CallTree

namespace Tracer

variable {t : Tracer}

/-! ## 1. Failed frames -/

theorem failed_iff_errorOf {id : FrameId} : t.forest.Failed id ↔ t.errorOf id ≠ none :=
  t.any_failed_iff id

theorem Nested.acyclicFrom_root (h : t.Nested) : t.forest.AcyclicFrom rootId :=
  fun other _ => h.acyclic other

/-! ## 2. The frame that is found -/

/-- A visit explains the failure of the root: it is made to the end of the way through the last
failed children. -/
structure ExplainsFailure (t : Tracer) (visit : Visit) : Prop where
  origin : t.forest.Origin rootId visit.path visit.id
  /-- The path leads from the root to the frame. -/
  frame : t.forest.follow? rootId visit.path = some (visit.id, visit.frame)
  failed : visit.frame.failed
  /-- Every frame on the way failed, from the root on. -/
  way : ∀ n, ∃ id frame, t.forest.follow? rootId (visit.path.take n) = some (id, frame) ∧ frame.failed
  children : ∀ child ∈ visit.frame.children, t.errorOf child = none
  /-- There is one record at the path, and it shows the label of the frame's message. -/
  record : ∃ message record, visit.frame.error = some message ∧ record ∈ t.records ∧
    record = .ofFrame visit.frame t.transaction visit.path visit.path.isEmpty ∧
    record.error = some (Failure.shown message).label ∧
    ∀ other ∈ t.records, other.path = visit.path → other = record

/-- The record at a path shows the label of the message of the frame that the path leads to. -/
theorem Nested.exists_failureRecord (h : t.Nested) {path : List Nat} {id : FrameId} {frame : Frame}
    (hpath : t.forest.follow? rootId path = some (id, frame)) {message : String}
    (hmessage : frame.error = some message) :
    ∃ record ∈ t.records, record = .ofFrame frame t.transaction path path.isEmpty ∧
      record.error = some (Failure.shown message).label ∧
      ∀ other ∈ t.records, other.path = path → other = record := by
  refine ⟨.ofFrame frame t.transaction path path.isEmpty,
    h.acyclicFrom_root.mem_records.mpr ⟨id, frame, hpath, rfl⟩, rfl, ?_, ?_⟩
  · simp [Record.ofFrame, Record.shownFailure, hmessage]
  · intro other hother hsame
    obtain ⟨id', frame', hpath', hshows⟩ := h.acyclicFrom_root.mem_records.mp hother
    rw [hsame, hpath, Option.some.injEq, Prod.mk.injEq] at hpath'
    rw [hshows, hsame, hpath'.2]

/-- The visit that is found explains the failure of the root. -/
theorem Nested.explainsFailure (h : t.Nested) {visit : Visit}
    (hfound : t.failureOrigin = some visit) : t.ExplainsFailure visit := by
  obtain ⟨hroot, horigin, hframe⟩ := (Forest.failureOrigin_eq_some_iff h.ascending).mp hfound
  have hpath := horigin.follow? hframe
  have hway := horigin.failed_take hroot
  obtain ⟨id, frame, hlast, hfailed⟩ := hway visit.path.length
  rw [List.take_length, hpath, Option.some.injEq, Prod.mk.injEq] at hlast
  rw [← hlast.2] at hfailed
  obtain ⟨message, hmessage⟩ := Option.isSome_iff_exists.mp hfailed
  obtain ⟨record, hrecord, hshows, hlabel, honly⟩ := h.exists_failureRecord hpath hmessage
  refine ⟨horigin, hpath, hfailed, hway, fun child hchild => ?_,
    ⟨message, record, hmessage, hrecord, hshows, hlabel, honly⟩⟩
  rw [← Forest.childrenOf_of_get? hframe] at hchild
  exact Classical.not_not.mp (mt failed_iff_errorOf.mpr (horigin.children child hchild))

/-- No other visit explains the failure. -/
theorem Nested.failureOrigin_eq_some_iff (h : t.Nested) {visit : Visit} :
    t.failureOrigin = some visit ↔ t.ExplainsFailure visit := by
  refine ⟨h.explainsFailure, fun hexplains => ?_⟩
  obtain ⟨id, root, hroot, hfailed⟩ := hexplains.way 0
  obtain ⟨rfl, hroot⟩ := Forest.follow?_nil_eq_some_iff.mp hroot
  exact (Forest.failureOrigin_eq_some_iff h.ascending).mpr
    ⟨Forest.failed_iff.mpr ⟨root, hroot, hfailed⟩, hexplains.origin,
      Forest.get?_of_follow? hexplains.frame⟩

/-! ## 3. Any tracer -/

/-- After any operations, no failure is found if and only if the root did not fail, and what is found
is the visit that explains its failure. The path is that of this visit. -/
theorem failureOrigin_after (settings : Settings) (operations : List Operation) :
    ((after settings operations).failureOrigin = none ↔
      (after settings operations).errorOf rootId = none) ∧
    (∀ visit, (after settings operations).failureOrigin = some visit ↔
      (after settings operations).ExplainsFailure visit) ∧
    ∀ path, (after settings operations).failurePath = some path ↔
      ∃ visit, (after settings operations).ExplainsFailure visit ∧ visit.path = path := by
  have h := nested_after settings operations
  refine ⟨?_, fun visit => h.failureOrigin_eq_some_iff, fun path => ?_⟩
  · rw [failureOrigin, Forest.failureOrigin_eq_none_iff h.ascending, failed_iff_errorOf,
      Classical.not_not]
  · simp only [failurePath, Option.map_eq_some_iff, h.failureOrigin_eq_some_iff]

end Tracer

end CallTree
