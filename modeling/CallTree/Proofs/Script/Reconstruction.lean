import CallTree.Proofs.Script.Replay

/-!
# The tree of a script

Results:
1. `flatMap_visitsFrom`: in a forest that holds the frames of a script, the walk from a frame meets
   what the script adds to it.
2. `reconstruction`: a new tracer that has taken in a script holds the frames of the script, and
   both the walk of its forest and its records follow the script.
-/

namespace CallTree

namespace Script

/-! ## 1. The walk -/

variable {depth : Nat}

/-- The walk need not go deeper than the script has frames. -/
theorem flatMap_visitsFrom (script : Script depth) {settings : Settings} {forest : Forest} {id : Nat}
    (h : forest.Holds id (script.frames settings id)) {levels : Nat} (hlevels : script.size ≤ levels)
    (path : List Nat) (index : Nat) :
    (((script.children id).zipIdx index).flatMap fun (child, index) =>
      forest.visitsFrom levels (path ++ [index]) child) =
    script.visits settings id path index := by
  induction script generalizing id levels path index with
  | done => rfl
  | plain _ _ rest ih | builtIn _ _ rest ih => exact ih h hlevels path index
  | selfDestruct event _ rest ih =>
    obtain ⟨hleaf, hrest⟩ := h
    have hsize : rest.size + 1 ≤ levels := hlevels
    obtain ⟨levels, rfl⟩ : ∃ less, levels = less + 1 := ⟨levels - 1, by omega⟩
    have hbeside := ih hrest (show rest.size ≤ levels + 1 by omega) path (index + 1)
    rw [children, List.zipIdx_cons, List.flatMap_cons, hbeside]
    simp only [Forest.visitsFrom, hleaf]
    rfl
  | frame kind opening _ inside ending rest ihInside ihRest =>
    obtain ⟨hframe, hbehind⟩ := h
    obtain ⟨hinside, hrest⟩ := Forest.holds_append.mp hbehind
    rw [length_frames] at hrest
    have hsize : inside.size + rest.size + 1 ≤ levels := hlevels
    obtain ⟨levels, rfl⟩ : ∃ less, levels = less + 1 := ⟨levels - 1, by omega⟩
    have hbelow := ihInside hinside (show inside.size ≤ levels by omega) (path ++ [index]) 0
    have hbeside := ihRest hrest (show rest.size ≤ levels + 1 by omega) path (index + 1)
    rw [children, List.zipIdx_cons, List.flatMap_cons, hbeside]
    simp only [Forest.visitsFrom, hframe]
    rw [show (ending.frame settings kind opening.step
      (allowance settings kind opening.step inside ending) (inside.children (id + 1))).children =
        inside.children (id + 1) from rfl, hbelow]
    rfl

/-! ## 2. The tracer -/

/-- The root of a script, before the transaction describes it. -/
def root (script : Script 1) : Frame :=
  Tracer.unknownRoot.extend (script.sample false) (script.children 1)

/-- The visits of a script from its root on. -/
def visitsBelow (script : Script 1) (settings : Settings) (root : Frame) : List Visit :=
  ⟨rootId, [], root⟩ :: script.visits settings 1 [] 0

/-- The records of a script that is a whole transaction. -/
def records (script : Script 1) (settings : Settings) (tx : Transaction) : List Record :=
  (script.visitsBelow settings (script.root.describe tx)).map (Record.ofVisit (some tx))

theorem visits_append (script : Script 1) (settings : Settings) {root : Frame}
    (h : root.children = script.children 1) :
    ((Forest.ofRoot root).append (script.frames settings 1)).visits =
    script.visitsBelow settings root := by
  have hholds := (Forest.ofRoot root).append_holds (script.frames settings 1)
  have hsize : ((Forest.ofRoot root).append (script.frames settings 1)).size = script.size + 1 := by
    rw [Forest.size_append, Forest.size_ofRoot, length_frames, Nat.add_comm]
  have hroot : ((Forest.ofRoot root).append (script.frames settings 1)).get? rootId = some root := by
    rw [Forest.get?_append, if_pos (show rootId < (Forest.ofRoot root).size from Nat.one_pos)]
    rfl
  rw [Forest.visits, hsize, Forest.visitsFrom, hroot]
  simp only [h, List.nil_append]
  exact congrArg _ (script.flatMap_visitsFrom hholds (Nat.le_refl _) [] 0)

/-- The tracer shows the tree of a script. -/
structure DrawnBy (script : Script 1) (settings : Settings) (t : Tracer) : Prop where
  /-- No frame but the root is open. -/
  closed : t.inner = []
  frames : t.forest.frames.toList = script.root :: script.frames settings 1
  visits : t.forest.visits = script.visitsBelow settings script.root
  records : ∀ tx, (t.finish tx).records = script.records settings tx

theorem drawnBy_of_forest {script : Script 1} {settings : Settings} {t : Tracer}
    (hinner : t.inner = [])
    (hforest : t.forest = (Forest.ofRoot script.root).append (script.frames settings 1)) :
    script.DrawnBy settings t where
  closed := hinner
  frames := by
    rw [hforest]
    simp [Forest.append, Forest.ofRoot]
  visits := by
    rw [hforest]
    exact script.visits_append settings rfl
  records tx := by
    -- The description of the root leaves its children alone, so the walk goes the same way.
    have hfinished : (t.finish tx).forest =
        (Forest.ofRoot (script.root.describe tx)).append (script.frames settings 1) := by
      show t.forest.modify rootId (Frame.describe tx) = _
      rw [hforest, Forest.modify_append_of_lt Nat.one_pos, Forest.modify_ofRoot]
    rw [Tracer.records, Forest.records, hfinished, script.visits_append settings rfl]
    rfl

/-- A new tracer that has taken in the steps of a script shows the tree of the script. The steps are
accepted if and only if all lookups are answered, and then a transaction of these steps has the
records of the script. -/
theorem reconstruction (settings : Settings) (script : Script 1) :
    script.DrawnBy settings ((Tracer.fresh settings).observeOn script.events) ∧
    ((Tracer.fresh settings).Accepts script.events ↔ script.Answered) ∧
    ∀ steps state tx, script.events = steps.map (⟨·, state⟩) →
      (((Tracer.fresh settings).trace steps state tx).result = .ok (script.records settings tx) ↔
        script.Answered) := by
  obtain ⟨hgrown, hanswered⟩ := script.replays (Tracer.fresh settings) rfl Nat.one_pos
  have hforest : ((Tracer.fresh settings).observeOn script.events).forest =
      (Forest.ofRoot script.root).append (script.frames settings 1) := by
    rw [hgrown]
    show ((Forest.ofRoot _).modify rootId _).append _ = _
    rw [Forest.modify_ofRoot]
    rfl
  have hinner : ((Tracer.fresh settings).observeOn script.events).inner = [] := by
    rw [hgrown]
    rfl
  have hdrawn := drawnBy_of_forest hinner hforest
  refine ⟨hdrawn, hanswered, fun steps state tx hsteps => ?_⟩
  obtain ⟨hanswer, haccepts⟩ := (Tracer.fresh settings).trace_result steps state tx
  rw [← hsteps] at hanswer haccepts
  constructor
  · exact fun hresult => hanswered.mp (haccepts _ hresult)
  · intro h
    rw [← hdrawn.records tx]
    exact hanswer (hanswered.mpr h)

/-- An account is called, calls another one that gives back its changes, and destroys itself. -/
def callAndDestroy : Script 1 :=
  .frame .call ⟨.emptyCall 1 100000 0, .empty⟩ ⟨rfl, rfl, by decide, by decide, fun _ => rfl, rfl⟩
    (.frame .call ⟨.emptyCall 2 50000 0, .empty⟩ ⟨rfl, rfl, by decide, by decide, fun _ => rfl, rfl⟩
      .done
      (.reverted ⟨{ opcode := revertOpcode, depth := 3 }, .empty⟩ [] ⟨.idle 2 40000 0, .empty⟩
        ⟨rfl, rfl, rfl⟩ (fun _ hreport => by cases hreport) ⟨⟨by decide, rfl⟩, by decide⟩)
      (.selfDestruct
        ⟨{ opcode := FrameKind.selfDestruct.opcode, operands := [0], depth := 2 }, .empty⟩
        ⟨rfl, rfl, by decide, rfl, rfl⟩ .done))
    (.returned ⟨.idle 1 90000 1, .empty⟩ ⟨⟨by decide, rfl⟩, by decide⟩)
    .done

/-- A transaction without any data of its own. -/
def emptyTransaction : Transaction :=
  ⟨.call, 0, 0, 0, 100000, 0, [], [], none, none, none, none, none, none⟩

theorem reconstruction_callAndDestroy :
    ((Tracer.fresh {}).trace (callAndDestroy.events.map (·.step)) .empty emptyTransaction).result =
    .ok (callAndDestroy.records {} emptyTransaction) := by
  refine ((reconstruction {} callAndDestroy).2.2 _ .empty emptyTransaction rfl).mpr ?_
  -- Only a creation asks for a code.
  have answered : ∀ {depth : Nat} (ending : Ending depth), ending.Answered .call :=
    fun _ _ _ hkind => absurd hkind (by decide)
  exact ⟨⟨trivial, answered _, trivial⟩, answered _, trivial⟩

end Script

end CallTree
