import CallTree.Proofs.Tracer.Listing
import CallTree.Proofs.Tracer.Standing

/-!
# The records of a transaction

A transaction whose steps are all accepted gives its records. Behind each of them stands a frame:
the root as the transaction describes it, or a closed frame as the steps left it. So what holds of
each frame after the steps tells what the records show.

Results:
1. `tracer_trace`, `records_trace`: the tracer of a transaction that gives records, and the records.
   `exists_rootRecord`: there is at least one.
2. `Nested.exists_frame`: the frame behind a record.
3. `Each.exists_frame`: what holds of the frames behind the records.
-/

namespace CallTree

namespace Tracer

variable {t : Tracer} {steps : List Step} {state : ChainState} {tx : Transaction}
  {records : List Record}

/-- The tracer when a transaction has taken in its steps and is not yet described. -/
def taken (t : Tracer) (steps : List Step) (state : ChainState) : Tracer :=
  t.reset.observeOn (steps.map (⟨·, state⟩))

/-! ## 1. A transaction that gives records -/

theorem tracer_trace (h : (t.trace steps state tx).result = .ok records) :
    (t.trace steps state tx).tracer = (t.taken steps state).finish tx := by
  have haccepts := (t.trace_result steps state tx).2 records h
  obtain ⟨hresult, htracer⟩ := t.reset.observeAll_iff steps state
  simp only [trace, hresult.mpr haccepts, htracer haccepts, taken]

theorem records_trace (h : (t.trace steps state tx).result = .ok records) :
    records = ((t.taken steps state).finish tx).records := by
  obtain ⟨hgives, haccepts⟩ := t.trace_result steps state tx
  exact Except.ok.inj (h.symm.trans (hgives (haccepts records h)))

theorem Nested.observeOn (h : t.Nested) (events : List Event) : (t.observeOn events).Nested := by
  induction events generalizing t with
  | nil => exact h
  | cons event events ih => exact ih (h.changes (changes_observe t event.step event.state))

theorem nested_taken (t : Tracer) (steps : List Step) (state : ChainState) :
    (t.taken steps state).Nested :=
  (Nested.fresh t.settings).observeOn _

/-- The root has a record. -/
theorem exists_rootRecord (h : (t.trace steps state tx).result = .ok records) :
    ∃ record, records[rootId]? = some record := by
  have hnested := (nested_taken t steps state).changes (changes_finish _ tx)
  have hcovers : Covers _ [rootId] rootId ((t.taken steps state).finish tx).shownCount :=
    hnested.layered.lowest
  have hshown := (hcovers.mem_bounds List.mem_cons_self).2
  obtain ⟨frame, path, -, hrecord⟩ := hnested.listing.record rootId hshown
  exact ⟨_, records_trace h ▸ hrecord⟩

/-! ## 2. The frame behind a record -/

variable {i : Nat} {record : Record}

/-- Nothing but the root is described by the transaction, and no open frame above the root has a
record. -/
theorem Nested.exists_frame (h : t.Nested) (hrecord : (t.finish tx).records[i]? = some record) :
    ∃ frame path, (t.finish tx).forest.get? i = some frame ∧
      record = .ofFrame frame (some tx) path (i == rootId) ∧
      ((i = rootId ∧ ∃ root, t.forest.get? rootId = some root ∧ frame = root.describe tx) ∨
        (i ≠ rootId ∧ i ∉ t.openIds ∧ t.forest.get? i = some frame)) := by
  have hnested := h.changes (t.changes_finish tx)
  have hlisting := hnested.listing
  have hshown : i < (t.finish tx).shownCount := by
    rw [← hlisting.length]
    exact (List.getElem?_eq_some_iff.mp hrecord).1
  obtain ⟨frame, path, hframe, hshows⟩ := hlisting.record i hshown
  refine ⟨frame, path, hframe, Option.some.inj (hrecord.symm.trans hshows), ?_⟩
  have hget := hframe
  rw [finish, Forest.get?_modify] at hget
  split at hget
  next hroot =>
    subst hroot
    obtain ⟨root, hbefore, rfl⟩ := Option.map_eq_some_iff.mp hget
    exact .inl ⟨rfl, root, hbefore, rfl⟩
  next hne =>
    refine .inr ⟨Ne.symm hne, fun hopen => ?_, hget⟩
    rcases List.mem_append.mp hopen with hinner | hbottom
    · exact Nat.not_le_of_lt hshown (hnested.shownCount_le hinner)
    · exact hne (List.mem_singleton.mp hbottom).symm

/-! ## 3. What holds behind the records -/

variable {P Q : FrameId → Frame → Prop}

/-- Behind the first record stands what the transaction makes of the root, and behind any other a
closed frame. -/
theorem Each.exists_frame (h : (t.taken steps state).Each P Q)
    (htrace : (t.trace steps state tx).result = .ok records) (hrecord : records[i]? = some record) :
    ∃ frame path, (t.trace steps state tx).tracer.forest.get? i = some frame ∧
      record = .ofFrame frame (some tx) path (i == rootId) ∧
      ((i = rootId ∧ ∃ root, P rootId root ∧ frame = root.describe tx) ∨
        (i ≠ rootId ∧ Q i frame)) := by
  have hnested := nested_taken t steps state
  rw [records_trace htrace] at hrecord
  obtain ⟨frame, path, hframe, hshows, hstands⟩ := hnested.exists_frame hrecord
  refine ⟨frame, path, (tracer_trace htrace).symm ▸ hframe, hshows, ?_⟩
  refine hstands.imp (fun ⟨hroot, root, hget, hdescribed⟩ => ?_) fun ⟨hne, hclosed, hget⟩ => ?_
  · exact ⟨hroot, root, h.opened rootId (root_mem_openIds _) root hget, hdescribed⟩
  · exact ⟨hne, h.closed i hclosed frame hget⟩

end Tracer

end CallTree
