import CallTree.Proofs.Tracer.Ownership

/-!
# The records of a tracer

The records of a tracer are those of its earliest frames, in the order of opening, up to the lowest
open frame above the root (`Tracer.shownCount`). An open frame is not yet a child of the frame
below it, so the walk of the forest ends before it, and all frames opened since lie behind it.

Results:
1. `Nested.map_id_visits`: the walk visits the frames before `shownCount` in the order of opening.
2. `listing_after`: after any operations, record by record.
-/

namespace CallTree

namespace Tracer

/-- The number of frames that have records: every frame if only the root is open, and otherwise
the frames opened before the lowest open one above the root. -/
def shownCount (t : Tracer) : Nat :=
  t.inner.getLast?.getD t.forest.size

namespace Nested

variable {t : Tracer}

theorem shownCount_le_size (h : t.Nested) : t.shownCount ≤ t.forest.size := by
  unfold shownCount
  cases hlast : t.inner.getLast? with
  | none => exact Nat.le_refl _
  | some id =>
    have hid : id ∈ t.openIds := List.mem_append_left _ (List.mem_of_getLast? hlast)
    exact Nat.le_of_lt (h.mem_lt hid)

/-- No open frame above the root is opened before the lowest of them. -/
theorem shownCount_le (h : t.Nested) {id : Nat} (hid : id ∈ t.inner) : t.shownCount ≤ id := by
  have hsorted : t.inner.Pairwise (· > ·) := (List.pairwise_append.mp h.layered.pairwise_gt).1
  unfold shownCount
  cases hlast : t.inner.getLast? with
  | none =>
    rw [List.getLast?_eq_none_iff.mp hlast] at hid
    cases hid
  | some lowest =>
    obtain ⟨later, hinner⟩ := List.getLast?_eq_some_iff.mp hlast
    rw [hinner] at hid hsorted
    rcases List.mem_append.mp hid with hlater | hlowest
    · exact Nat.le_of_lt ((List.pairwise_append.mp hsorted).2.2 id hlater lowest List.mem_cons_self)
    · exact Nat.le_of_eq (List.mem_singleton.mp hlowest).symm

/-- The walk visits the frames with records in the order of opening. -/
theorem map_id_visits (h : t.Nested) : t.forest.visits.map (·.id) = List.range t.shownCount := by
  have hcovers : Covers t.forest.childrenOf [rootId] rootId t.shownCount := h.layered.lowest
  have hwalk := Forest.map_id_visitsFrom hcovers h.shownCount_le_size
    (Nat.le_trans h.shownCount_le_size (Nat.le_add_left _ rootId)) []
  rw [List.range_eq_range']
  exact hwalk

end Nested

/-- There is one record for each frame before the lowest open one above the root, in the order of
opening. -/
structure Listing (t : Tracer) : Prop where
  length : t.records.length = t.shownCount
  record : ∀ i, i < t.shownCount → ∃ frame path, t.forest.get? i = some frame ∧
    t.records[i]? = some (Record.ofFrame frame t.transaction path (i == rootId))
  order : t.forest.visits.map (·.id) = List.range t.shownCount
  /-- An open frame above the root is not visited, and neither is a frame below it. -/
  closed : ∀ visit ∈ t.forest.visits, ∀ id ∈ t.inner,
    visit.id ≠ id ∧ ¬t.forest.Below id visit.id

theorem Nested.listing {t : Tracer} (h : t.Nested) : t.Listing := by
  have hids := h.map_id_visits
  have hlength : t.forest.visits.length = t.shownCount := by
    rw [← List.length_map (·.id), hids, List.length_range]
  refine ⟨?_, ?_, hids, ?_⟩
  · rw [records, Forest.records, List.length_map, hlength]
  · intro i hi
    obtain ⟨visit, hvisit⟩ : ∃ visit, t.forest.visits[i]? = some visit :=
      ⟨_, List.getElem?_eq_getElem (hlength ▸ hi)⟩
    have hid : visit.id = i := by
      have hmapped : (t.forest.visits.map (·.id))[i]? = some visit.id := by
        rw [List.getElem?_map, hvisit]
        rfl
      rw [hids, List.getElem?_range hi, Option.some.injEq] at hmapped
      exact hmapped.symm
    have hframe := Forest.get?_of_mem_visits (List.mem_of_getElem? hvisit)
    refine ⟨visit.frame, visit.path, hid ▸ hframe, ?_⟩
    rw [records, Forest.records, List.getElem?_map, hvisit, ← hid]
    rfl
  · intro visit hvisit id hid
    have hshown : visit.id < t.shownCount := by
      rw [← List.mem_range, ← hids]
      exact List.mem_map_of_mem hvisit
    have hlt : visit.id < id := Nat.lt_of_lt_of_le hshown (h.shownCount_le hid)
    exact ⟨Nat.ne_of_lt hlt, fun hbelow => Nat.lt_asymm hlt (h.ascending.lt_of_below hbelow)⟩

/-- After any operations the records are those of the earliest frames, in the order of opening. -/
theorem listing_after (settings : Settings) (operations : List Operation) :
    (after settings operations).Listing :=
  (nested_after settings operations).listing

end Tracer

end CallTree
