import CallTree.Proofs.Tracer.Standing

/-!
# Tracing one transaction after another

A tracer may be used for one transaction after another, and whatever it was used for before, a
transaction is traced as by a new tracer: the frames, the open frames, the awaited allowance and the
last transaction are those of a new tracer when the first step is taken in. So it makes no difference
either if the steps before were refused in the middle of a close, or if a transaction was broken off.

A transaction is broken off by the first step that is refused. The tracer then stays as this step has
left it: the root is not described, and there is no end of a transaction.

Results:
1. `foldl_next_refused`: the first step that is refused.
2. `Frame.Undescribed`, `undescribed_observeAll`: a root of which the steps alone tell.
3. `trace_after`: a transaction after any operations.
-/

namespace CallTree

namespace Tracer

variable {settings : Settings} {steps : List Step} {state : ChainState} {e : Refusal}

/-! ## 1. The first refusal -/

/-- If not all steps are taken in, then some are accepted and the next one is refused, and nothing
comes after it. -/
theorem foldl_next_refused {outcome : Outcome Unit} (h : outcome.result = .ok ())
    (hrefused : (steps.foldl (Outcome.next state) outcome).result = .error e) :
    ∃ taken step rest, steps = taken ++ step :: rest ∧
      outcome.tracer.Accepts (taken.map (⟨·, state⟩)) ∧
      ((outcome.tracer.observeOn (taken.map (⟨·, state⟩))).observe step state).result = .error e ∧
      ((outcome.tracer.observeOn (taken.map (⟨·, state⟩))).observe step state).tracer =
        (steps.foldl (Outcome.next state) outcome).tracer := by
  induction steps generalizing outcome with
  | nil =>
    rw [List.foldl_nil, h] at hrefused
    cases hrefused
  | cons step steps ih =>
    have hnext : outcome.next state step = { outcome.tracer.observe step state with
        warnings := outcome.warnings ++ (outcome.tracer.observe step state).warnings } := by
      simp only [Outcome.next, h]
    rw [List.foldl_cons] at hrefused ⊢
    cases hresult : (outcome.tracer.observe step state).result with
    | error other =>
      have hstops : (outcome.next state step).result = .error other := hnext ▸ hresult
      rw [foldl_next_of_error hstops, hstops] at hrefused
      obtain rfl : other = e := Except.error.inj hrefused
      refine ⟨[], step, steps, rfl, trivial, hresult, ?_⟩
      rw [foldl_next_of_error hstops, hnext]
      rfl
    | ok u =>
      have haccepted : (outcome.next state step).result = .ok () := hnext ▸ hresult
      obtain ⟨taken, failing, rest, hsteps, haccepts, herror, htracer⟩ := ih haccepted hrefused
      rw [hnext] at haccepts herror htracer
      exact ⟨step :: taken, failing, rest, by rw [hsteps, List.cons_append],
        ⟨hresult, haccepts⟩, herror, hnext ▸ htracer⟩

end Tracer

/-! ## 2. The root before the end -/

/-- The frame does what is assumed of a root before anything is known about it, and it has no
output. -/
structure Frame.Undescribed (frame : Frame) : Prop where
  action : frame.action = Tracer.unknownRoot.action
  output : frame.output = none

theorem Frame.lasting_undescribed :
    Lasting (fun id frame => id = rootId → frame.Undescribed) fun _ _ => True where
  root _ := ⟨rfl, rfl⟩
  child _ h := fun hroot => ⟨(h hroot).action, (h hroot).output⟩
  grant _ h := fun hroot => ⟨(h hroot).action, (h hroot).output⟩
  revert h := fun hroot => ⟨(h hroot).action, (h hroot).output⟩
  failRoot _ h := fun hroot => ⟨(h hroot).action, (h hroot).output⟩
  fail _ _ _ := trivial
  push _ _ hne := fun hroot => absurd hroot hne
  leaf _ := trivial

namespace Tracer

variable {settings : Settings} {steps : List Step} {state : ChainState} {e : Refusal}

/-- Steps alone do not describe the root. -/
theorem undescribed_observeAll (settings : Settings) (steps : List Step) (state : ChainState) :
    ∃ root, ((fresh settings).observeAll steps state).tracer.forest.get? rootId = some root ∧
      root.Undescribed := by
  obtain ⟨hnested, heach⟩ := each_observeAll Frame.lasting_undescribed (fun _ _ _ _ _ => trivial)
    ⟨.fresh settings, .fresh Frame.lasting_undescribed.root settings⟩ steps state
  obtain ⟨root, hroot, -⟩ := hnested.exists_root
  exact ⟨root, hroot, heach.opened rootId (root_mem_openIds _) root hroot rfl⟩

/-! ## 3. Any transaction -/

/-- A transaction is broken off for a reason and leaves the tracer `t` behind: some steps have been
accepted, the next one has been refused, and that is all that has happened to a new tracer. -/
structure BreaksOff (settings : Settings) (steps : List Step) (state : ChainState) (e : Refusal)
    (t : Tracer) : Prop where
  refused : ∃ taken step rest, steps = taken ++ step :: rest ∧
    (fresh settings).Accepts (taken.map (⟨·, state⟩)) ∧
    (((fresh settings).observeOn (taken.map (⟨·, state⟩))).observe step state).result = .error e ∧
    (((fresh settings).observeOn (taken.map (⟨·, state⟩))).observe step state).tracer = t
  root : ∃ root, t.forest.get? rootId = some root ∧ root.Undescribed
  transaction : t.transaction = none

/-- A transaction that is refused is broken off. -/
theorem breaksOff_trace {tx : Transaction}
    (h : ((fresh settings).trace steps state tx).result = .error e) :
    BreaksOff settings steps state e ((fresh settings).trace steps state tx).tracer := by
  have hreset : (fresh settings).reset = fresh settings := rfl
  have hmoves := (fresh settings).moves_observeAll steps state
  have hroot := undescribed_observeAll settings steps state
  simp only [trace, hreset] at h ⊢
  split at h
  next other hother =>
    obtain rfl : other = e := Except.error.inj h
    exact ⟨foldl_next_refused rfl hother, hroot, hmoves.transaction⟩
  next => cases h

/-- After any operations, a transaction is traced as by a new tracer with the same settings: it gives
the same records or is refused for the same reason, with the same warnings, and it leaves the same
tracer behind. If it is refused, it is broken off. -/
theorem trace_after (settings : Settings) (operations : List Operation) (steps : List Step)
    (state : ChainState) (tx : Transaction) :
    (after settings operations).trace steps state tx = (fresh settings).trace steps state tx ∧
    ∀ e, ((after settings operations).trace steps state tx).result = .error e →
      BreaksOff settings steps state e ((after settings operations).trace steps state tx).tracer := by
  have hsame : (after settings operations).trace steps state tx =
      (fresh settings).trace steps state tx := by
    rw [trace, trace, reset, reset, settings_after]
    rfl
  rw [hsame]
  exact ⟨rfl, fun _ h => breaksOff_trace h⟩

end Tracer

end CallTree
