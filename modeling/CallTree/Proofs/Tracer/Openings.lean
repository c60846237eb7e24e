import CallTree.Proofs.Tracer.Lifetime
import Mathlib.Data.List.Induction

/-!
# Who opened an open frame

While a host goes on with a transaction, a frame above the root is open only because an instruction
opened it in the course of the run (`OpenedBy`), and that instruction begins the life of the frame.
So a step that closes a frame also ends a life, and what it finds to be settled was left there by
that instruction.

Results:
1. `after_concat`, `after_following`: runs, cut where a frame is opened.
2. `mem_inner_observe`: a step leaves no frame open that was not open before it, except one that it
   opens itself.
3. `exists_openedBy`: every open frame above the root was opened by an instruction of the run.
4. `OpenedBy.lifetime`, `OpenedBy.pending`: the step that closes it.
-/

namespace CallTree

open Ending (Pending)

namespace Tracer

variable {t : Tracer} {id : FrameId} {settings : Settings} {opening : Event} {kind : FrameKind}
  {operations earlier inside : List Operation}

/-! ## 1. Runs -/

theorem after_concat (settings : Settings) (operations : List Operation) (operation : Operation) :
    after settings (operations ++ [operation]) = (after settings operations).perform operation := by
  rw [after, List.foldl_append]
  rfl

theorem after_following (settings : Settings) (earlier inside : List Operation) (opening : Event) :
    after settings (earlier ++ .observe opening.step opening.state :: inside) =
    (after settings earlier).following opening inside := by
  rw [after, List.foldl_append]
  rfl

/-! ## 2. What a step leaves open -/

theorem mem_inner_fail {message : String} (h : id ∈ (t.fail message).inner) : id ∈ t.inner := by
  rw [fail_eq] at h
  split at h
  · exact h
  · rw [inner_pop] at h
    exact List.mem_of_mem_tail h

/-- A frame that is open after a step was open before it, or the step is an instruction that opens
it. -/
theorem mem_inner_observe (hnested : t.Nested) {step : Step} {state : ChainState}
    (h : id ∈ (t.observe step state).tracer.inner) :
    id ∈ t.inner ∨ t.forest.size = id ∧ ∃ kind, step.Opens state kind step.depth := by
  rcases t.step_cases step with
    ⟨message, hsome⟩ | ⟨hnone, kind, hkind⟩ | ⟨hnone, hrevert⟩ | hcloses | ⟨hplain, hstays⟩
  · rw [t.observe_of_error state hsome] at h
    exact .inl (mem_inner_fail h)
  · rcases t.enter_inversion state hnone hkind with hsame | hopens | ⟨-, hadded⟩
    · rw [t.observe_of_kind state hnone hkind, hsame] at h
      exact .inl h
    · rw [(@observe_opening _ t ⟨step, state⟩ kind hopens).1] at h
      rcases List.mem_cons.mp h with rfl | hinner
      · exact .inr ⟨rfl, kind, hopens⟩
      · exact .inl hinner
    · rw [t.observe_of_kind state hnone hkind, hadded] at h
      exact .inl h
  · rw [t.observe_of_revert state hnone hrevert] at h
    rw [← t.inner_sampleAllowance step]
    exact .inl h
  · obtain ⟨top, below, frame, hinner, -, -, htracer, -⟩ := hnested.observe_of_closes hcloses state
    rw [htracer] at h
    rw [hinner]
    exact .inl (List.mem_cons_of_mem _ h)
  · rw [(observe_of_not_closes hplain hstays state).1, inner_sampleAllowance] at h
    exact .inl h

/-! ## 3. The instruction that opened a frame -/

/-- In the course of some operations a frame was opened: `earlier` of them came before, then an
instruction of a kind opened the frame, and `inside` came after it. -/
structure OpenedBy (settings : Settings) (operations : List Operation) (id : FrameId)
    (earlier : List Operation) (opening : Event) (kind : FrameKind) (inside : List Operation) :
    Prop where
  operations : operations = earlier ++ .observe opening.step opening.state :: inside
  opens : opening.step.Opens opening.state kind opening.step.depth
  id : (after settings earlier).forest.size = id

theorem OpenedBy.concat (h : OpenedBy settings operations id earlier opening kind inside)
    (operation : Operation) :
    OpenedBy settings (operations ++ [operation]) id earlier opening kind (inside ++ [operation]) :=
  ⟨by rw [h.operations, List.append_assoc, List.cons_append], h.opens, h.id⟩

/-- An open frame above the root was opened in the course of the operations. -/
theorem exists_openedBy (hadvances : ∀ operation ∈ operations, operation.Advances)
    (hid : id ∈ (after settings operations).inner) :
    ∃ earlier opening kind inside, OpenedBy settings operations id earlier opening kind inside := by
  induction operations using List.reverseRecOn with
  | nil => cases hid
  | append_singleton operations operation ih =>
    have hlast := hadvances operation (List.mem_append_right _ List.mem_cons_self)
    have before (hinner : id ∈ (after settings operations).inner) :
        ∃ earlier opening kind inside,
          OpenedBy settings (operations ++ [operation]) id earlier opening kind inside := by
      obtain ⟨earlier, opening, kind, inside, hopened⟩ :=
        ih (fun other hother => hadvances other (List.mem_append_left _ hother)) hinner
      exact ⟨earlier, opening, kind, _, hopened.concat operation⟩
    rw [after_concat] at hid
    cases operation with
    | observe step state =>
      rcases mem_inner_observe (nested_after ..) hid with hinner | ⟨hsize, kind, hopens⟩
      · exact before hinner
      · exact ⟨operations, ⟨step, state⟩, kind, [], rfl, hopens, hsize⟩
    | fail message => exact before (mem_inner_fail hid)
    | finish | reset | trace => cases hlast

/-! ## 4. The step that closes it -/

namespace OpenedBy

variable {back : Event}

/-- A step that closes the frame and finds an outcome ends the life of the frame. -/
theorem lifetime (h : OpenedBy settings operations id earlier opening kind inside)
    (hadvances : ∀ operation ∈ operations, operation.Advances)
    (htop : (after settings operations).top = id)
    (hcloses : (after settings operations).Closes back.step) (houtcome : back.step.operands ≠ []) :
    (after settings earlier).Lifetime kind opening inside back := by
  have hafter : after settings operations = (after settings earlier).following opening inside := by
    rw [h.operations, after_following]
  rw [hafter] at htop hcloses
  refine ⟨h.opens.instruction, ?_, fun operation hmem => ?_, ?_, hcloses.plain, hcloses.depth,
    houtcome⟩
  · exact (opens_iff ..).mpr ⟨_, (@observe_opening _ _ opening kind h.opens).1⟩
  · refine hadvances operation ?_
    rw [h.operations]
    exact List.mem_append_right _ (List.mem_cons_of_mem _ hmem)
  · rw [htop, h.id]

/-- The frame that a step closes is still as the instruction left it to be settled. -/
theorem pending {step : Step} (h : OpenedBy settings operations id earlier opening kind inside)
    (hadvances : ∀ operation ∈ operations, operation.Advances)
    (htop : (after settings operations).top = id) (hcloses : (after settings operations).Closes step)
    (houtcome : step.operands ≠ []) :
    ∃ frame, (after settings operations).forest.get? id = some frame ∧
      Pending frame opening.step (after settings operations).settings kind := by
  have hlife : (after settings earlier).Lifetime kind opening inside ⟨step, .empty⟩ :=
    h.lifetime hadvances htop hcloses houtcome
  obtain ⟨-, hcarries⟩ := hlife.carries (nested_after ..) inside.length
  rw [List.take_length, ← after_following, ← h.operations, h.id] at hcarries
  exact hcarries.pending

end OpenedBy

end Tracer

end CallTree
