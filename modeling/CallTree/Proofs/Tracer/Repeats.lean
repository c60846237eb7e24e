import CallTree.Proofs.Tracer.Attribution
import CallTree.Proofs.Tracer.Moves

/-!
# Repeated reports

A host may report the same failure twice in a row. The second report is to be ignored, as its frame
has failed already. The tracer tells that by the top, but by then the first report has closed the
frame that it was about, unless this was the root. So the second report meets the frame below.

Results:
1. `Nested.fail_eq_self_iff`: when a report changes nothing.
2. `top_fail`, `Nested.errorOf_fail_fail`: where the next report goes, and what it does there.
3. `fail_fail_after`: a report that is repeated is ignored if and only if the first one was, or the
   top is the root, or the frame below the top has failed before.
4. `fail_fail_ne_callee`: a callee that fails takes its caller with it if the failure is reported
   twice.
-/

namespace CallTree

namespace Tracer

variable {t : Tracer}

/-! ## 1. Reports that are ignored -/

/-- A report changes nothing if and only if the top has failed before. -/
theorem Nested.fail_eq_self_iff (h : t.Nested) (message : String) :
    t.fail message = t ↔ t.errorOf t.top ≠ none := by
  refine ⟨fun hsame hnone => ?_, fun hfailed => fail_of_failed hfailed message⟩
  have hmarked := errorOf_fail hnone h.top_lt message t.top
  rw [if_pos rfl, hsame, hnone] at hmarked
  cases hmarked

/-! ## 2. The next report -/

/-- After a report that is not ignored the top is the frame below, if there is one. -/
theorem top_fail (hnone : t.errorOf t.top = none) (message : String) :
    (t.fail message).top = t.openIds[1]?.getD rootId := by
  rw [fail_of_not_failed hnone, top, inner_pop]
  cases hinner : t.inner with
  | nil => simp [Tracer.amend, openIds, hinner, topOf]
  | cons id rest =>
    obtain ⟨others, -, hopen⟩ := openIds_of_cons hinner
    rw [Tracer.amend, hinner, List.tail_cons, hopen]
    rfl

/-- The frame below the top keeps its message when the top fails. -/
theorem Nested.errorOf_below (h : t.Nested) {id : FrameId} (hbelow : t.openIds[1]? = some id)
    (hnone : t.errorOf t.top = none) (message : String) :
    (t.fail message).errorOf id = t.errorOf id := by
  obtain ⟨others, hopen⟩ := t.exists_openIds_eq
  have hsorted := h.layered.pairwise_gt
  rw [hopen] at hsorted hbelow
  have hlt := (List.pairwise_cons.mp hsorted).1 id (List.mem_of_getElem? hbelow)
  rw [errorOf_fail hnone h.top_lt, if_neg (Nat.ne_of_gt hlt)]

/-- The second report is put down to the frame below the one that failed. -/
theorem Nested.errorOf_fail_fail (h : t.Nested) {id : FrameId} (hbelow : t.openIds[1]? = some id)
    (htop : t.errorOf t.top = none) (hid : t.errorOf id = none) (message again : String) :
    ((t.fail message).fail again).errorOf id = some again := by
  have hnested := h.changes (t.changes_fail message)
  have hsame : (t.fail message).top = id := by
    rw [top_fail htop, hbelow]
    rfl
  have hstill := (h.errorOf_below hbelow htop message).trans hid
  rw [← hsame] at hstill ⊢
  rw [errorOf_fail hstill hnested.top_lt, if_pos rfl]

/-! ## 3. When a repeated report is ignored -/

/-- The first report makes the second one a repetition of what the top has if the top is the root,
or if the frame below has failed before. -/
theorem Nested.errorOf_top_fail (h : t.Nested) (hnone : t.errorOf t.top = none) (message : String) :
    (t.fail message).errorOf (t.fail message).top ≠ none ↔
    ∀ id, t.openIds[1]? = some id → t.errorOf id ≠ none := by
  rw [top_fail hnone]
  cases hbelow : t.openIds[1]? with
  | none =>
    have hinner : t.inner = [] := by
      have hlength := List.getElem?_eq_none_iff.mp hbelow
      rw [openIds, List.length_append, List.length_singleton] at hlength
      exact List.length_eq_zero_iff.mp (Nat.le_zero.mp (Nat.le_of_succ_le_succ hlength))
    refine iff_of_true ?_ fun id hid => by cases hid
    rw [Option.getD_none, ← top_of_nil hinner, errorOf_fail hnone h.top_lt, if_pos rfl]
    exact Option.some_ne_none message
  | some id =>
    rw [Option.getD_some, h.errorOf_below hbelow hnone]
    exact ⟨fun hne other hother => Option.some.inj hother ▸ hne, fun hall => hall id rfl⟩

/-- After any operations, a report that is repeated at once is ignored if and only if the top has
failed before, or there is no open frame below the top, or that frame has failed before. Otherwise
the second report is put down to the frame below the top. -/
theorem fail_fail_after (settings : Settings) (operations : List Operation) (message : String) :
    (((after settings operations).fail message).fail message =
        (after settings operations).fail message ↔
      (after settings operations).errorOf (after settings operations).top ≠ none ∨
      ∀ id, (after settings operations).openIds[1]? = some id →
        (after settings operations).errorOf id ≠ none) ∧
    ∀ id, (after settings operations).openIds[1]? = some id →
      (after settings operations).errorOf (after settings operations).top = none →
      (after settings operations).errorOf id = none →
      (((after settings operations).fail message).fail message).errorOf id = some message := by
  have h := nested_after settings operations
  generalize after settings operations = t at h
  refine ⟨?_, fun id hbelow htop hid => h.errorOf_fail_fail hbelow htop hid message message⟩
  rw [(h.changes (t.changes_fail message)).fail_eq_self_iff]
  by_cases hnone : t.errorOf t.top = none
  · rw [h.errorOf_top_fail hnone]
    exact ⟨.inr, fun hcases => hcases.resolve_left fun hfailed => hfailed hnone⟩
  · rw [fail_of_failed hnone]
    exact iff_of_true hnone (.inl hnone)

/-! ## 4. A callee that fails -/

/-- A call whose callee has begun to run. -/
def runningCallee : List Operation :=
  [.observe (.emptyCall 1 100000 0) .empty, .observe (.idle 2 50000 0) .empty]

/-- The first report is put down to the callee alone, and the second one to its caller. -/
theorem fail_fail_ne_callee :
    ((after {} runningCallee).fail "out of gas").errorOf 1 = some "out of gas" ∧
    ((after {} runningCallee).fail "out of gas").errorOf rootId = none ∧
    (((after {} runningCallee).fail "out of gas").fail "out of gas").errorOf rootId =
      some "out of gas" ∧
    ((after {} runningCallee).fail "out of gas").fail "out of gas" ≠
      (after {} runningCallee).fail "out of gas" := by
  refine ⟨by decide, by decide, by decide, fun hsame => ?_⟩
  have hroot := congrArg (·.errorOf rootId) hsame
  exact absurd hroot (by decide)

end Tracer

end CallTree
