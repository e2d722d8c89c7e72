import IplanRunner.Executor.Mock
import IplanRunner.Foundation.Runtime
import IplanRunner.Gates.Totality
import IplanRunner.Runs.History

/-!
Histories that compute.

* `driveSession`: the session `_drive` leaves, without the gate; `drive_snd` and `drive_returns` say
  that the gate changes nothing and that, on a judged ledger, it returns.
* `Readable` survives turns, so a run of a manifest with a list of roots returns once its loop ends.
* `Move`, `play`: a scripted history, and `play_reached`: what it ends in is reached.
-/

namespace IplanRunner

open Foundation

variable [PyRuntime]

/-! ### The loop without the gate -/

section Session

variable {W : Type} (h : Host W) (cfg : RunConfig)

/-- The session `_drive` leaves, and the state its loop ended in, `none` when it raised. -/
def driveSession (manifest : Manifest) (completed : List String) (s : Session W) :
    Option RunState × Session W :=
  match topoOrder manifest.taskGraph with
  | .error _ => (none, s)
  | .ok order =>
      match driveLoop h cfg manifest.taskGraph order completed s with
      | (.error _, s') => (none, s')
      | (.ok state, s') => (some state,
          { s' with ledger := reconcile (s'.ledger.setRunState state) })

/-- The gate does not change what `_drive` leaves. -/
theorem drive_snd (manifest : Manifest) (completed : List String) (s : Session W) :
    (drive h cfg manifest completed s).2 = (driveSession h cfg manifest completed s).2 := by
  rw [drive, driveSession]
  cases horder : topoOrder manifest.taskGraph with
  | error e => simp [Call.bind_apply]
  | ok order =>
      have hofe : (Call.ofExcept (.ok order) : Loop W (List String)) s = (.ok order, s) := rfl
      rw [Call.bind_ok hofe]
      rcases hloop : driveLoop h cfg manifest.taskGraph order completed s with ⟨e | state, s'⟩
      · simp only [Call.bind_error hloop, hloop]
      · rw [Call.bind_ok hloop]
        simp only [hloop]
        cases hg : runGate (reconcile (s'.ledger.setRunState state)).toDoc cfg.gate <;>
          simp [Call.bind_apply, Loop.update, Loop.ledger, hg]

/-- A loop that ended on a judged ledger is followed by a gate that returns. -/
theorem drive_returns {manifest : Manifest} {completed : List String} {s s' : Session W}
    {state : RunState} (hend : driveSession h cfg manifest completed s = (some state, s'))
    (hread : s'.ledger.Judged) :
    ∃ res, drive h cfg manifest completed s = (.ok res, s') ∧ res.ledger = s'.ledger := by
  rw [driveSession] at hend
  rw [drive]
  cases horder : topoOrder manifest.taskGraph with
  | error e => rw [horder] at hend; simp at hend
  | ok order =>
      have hofe : (Call.ofExcept (.ok order) : Loop W (List String)) s = (.ok order, s) := rfl
      rw [Call.bind_ok hofe]
      rcases hloop : driveLoop h cfg manifest.taskGraph order completed s with ⟨e | st, s₁⟩
      · simp [horder, hloop] at hend
      · simp only [horder, hloop, Prod.mk.injEq, Option.some.injEq] at hend
        obtain ⟨rfl, rfl⟩ := hend
        obtain ⟨g, hg⟩ := runGate_returns hread cfg.gate
        refine ⟨⟨_, g⟩, ?_, rfl⟩
        rw [Call.bind_ok hloop]
        simp [Call.bind_apply, Loop.update, Loop.ledger, hg]

/-- The ledger `resume` leaves. -/
theorem resume_snd (manifest : Manifest) (s : Session W) :
    (resume h cfg manifest s).2 = (driveSession h cfg manifest (completedIds s.ledger)
      { s with ledger := s.ledger.setRunState .running }).2 :=
  drive_snd h cfg manifest _ _

end Session

/-! ### Readable ledgers -/

/-- The events of a turn list the paths they touched. -/
lemma Turn.paths {W : Type} {h : Host W} {cfg : RunConfig} {node : TaskNode} {taskId : String}
    {completed : List String} {L : Ledger} {r : Except PyErr Unit} {δ : Delta} {fx : List Effect}
    (hturn : Turn h cfg node taskId completed L r δ fx) :
    ∀ e ∈ δ.events, ∃ ps, e.touchedPaths = .list ps := by
  intro e he
  cases hturn with
  | unmet _ =>
      simp only [blockDelta, List.mem_singleton] at he
      exact ⟨_, by rw [he]; rfl⟩
  | ran _ hrun =>
      cases hrun with
      | committed _ => simp at he
      | conflict _ _ =>
          simp only [blockDelta, List.mem_singleton] at he
          exact ⟨_, by rw [he]; rfl⟩
      | crashed _ _ _ _ =>
          simp only [crashDelta, List.mem_singleton] at he
          exact ⟨_, by rw [he]; rfl⟩
      | succeeded _ _ _ _ _ _ _ =>
          simp only [successDelta, editEvents, List.mem_cons, List.mem_append, List.mem_map,
            List.not_mem_nil, or_false] at he
          rcases he with (rfl | ⟨x, -, rfl⟩) | rfl <;> exact ⟨_, rfl⟩
      | failed _ _ _ _ _ =>
          simp only [failureDelta, compensationEvents, List.mem_cons, List.mem_append,
            List.not_mem_nil, or_false] at he
          rcases he with (rfl | he) | rfl
          · exact ⟨_, rfl⟩
          · split at he
            · simp at he
            · exact ⟨_, by rw [List.mem_singleton.mp he]; rfl⟩
          · exact ⟨_, rfl⟩

/-- The roots of a manifest are a list of strings. -/
def Manifest.ReadableRoots (m : Manifest) : Prop :=
  ∃ roots : List String, m.isolationScope.lookup "allowed_roots" = some (strList roots)

lemma readable_history :
    HistoryInvariant Manifest.ReadableRoots (fun _ _ => True) Ledger.Readable where
  start := by
    intro m L hm hstart
    obtain ⟨-, hlog, -, -, -, hscope, -⟩ := startLedger_empty hstart
    obtain ⟨roots, hroots⟩ := hm
    exact ⟨⟨roots, by rw [hscope, hroots]⟩, by simp [hlog]⟩
  turn := by
    intro W h cfg m node taskId completed L r δ fx _ _ _ _ _ hturn hL
    refine ⟨hL.roots, fun e he => ?_⟩
    have hbody : e.toEventBody ∈ (L.apply taskId δ).bodies := List.mem_map.mpr ⟨e, he, rfl⟩
    rw [bodies_apply] at hbody
    rcases List.mem_append.mp hbody with h1 | h1
    · obtain ⟨e', he', heq⟩ := List.mem_map.mp h1
      rw [← heq]
      exact hL.paths e' he'
    · exact hturn.paths _ h1
  state := fun _ hL => ⟨hL.roots, hL.paths⟩
  reconcile := fun hL => ⟨hL.roots, hL.paths⟩
  override := fun _ _ hL => ⟨hL.roots, hL.paths⟩
  record := by
    intro L resolution subject hL
    refine ⟨hL.roots, fun e he => ?_⟩
    rcases List.mem_append.mp he with h1 | h1
    · exact hL.paths e h1
    · exact ⟨[], by rw [List.mem_singleton.mp h1]; rfl⟩

/-- **A run whose loop ends returns**, the roots of its manifest being a list of strings. -/
theorem run_returns {W : Type} (h : Host W) (cfg : RunConfig) {manifest : Manifest} {w : W}
    {L : Ledger} {state : RunState} {s' : Session W} (hroots : manifest.ReadableRoots)
    (hstart : startLedger manifest = .ok L)
    (hend : driveSession h cfg manifest [] ⟨L, w, []⟩ = (some state, s')) :
    ∃ res, run h cfg manifest w = (.ok res, s'.world, s'.effects) ∧ res.ledger = s'.ledger := by
  have hsnd := drive_snd h cfg manifest [] ⟨L, w, []⟩
  obtain ⟨r, st, L', fx, w', hdrive, hexec, -⟩ := drive_spec h cfg manifest [] ⟨L, w, []⟩
  have hread : s'.ledger.Readable := by
    have hL := readable_history.start hroots hstart
    have hL' := hdrive.invariant readable_history hroots (exact_start hstart) hL
    rw [hexec, hend] at hsnd
    rwa [← show L' = s'.ledger from congrArg Session.ledger hsnd]
  obtain ⟨res, hres, hledger⟩ := drive_returns h cfg hend hread.judged
  exact ⟨res, by rw [run, hstart]; simp only [hres], hledger⟩

/-- **A resume of a reached ledger returns** when its loop ends. -/
theorem resume_returns {W : Type} (h : Host W) (cfg : RunConfig) {manifest : Manifest} {w : W}
    {L : Ledger} {state : RunState} {s' : Session W} {overrides : Ledger → String → Prop}
    (hroots : manifest.ReadableRoots) (hL : Reached Manifest.ReadableRoots overrides L)
    (hend : driveSession h cfg manifest (completedIds L) ⟨L.setRunState .running, w, []⟩
      = (some state, s')) :
    ∃ res, resume h cfg manifest ⟨L, w, []⟩ = (.ok res, s') ∧ res.ledger = s'.ledger := by
  have hnext : Reached Manifest.ReadableRoots (fun _ _ => True)
      (resume h cfg manifest ⟨L, w, []⟩).2.ledger :=
    .resume hroots (hL.mono (fun _ h => h) fun _ _ _ => trivial)
  have hread := hnext.invariant readable_history
  rw [resume_snd, hend] at hread
  exact drive_returns h cfg hend hread.judged

/-- The loop of a run ends. -/
def runEnds {W : Type} (h : Host W) (cfg : RunConfig) (manifest : Manifest) (w : W) : Bool :=
  match startLedger manifest with
  | .error _ => false
  | .ok L => (driveSession h cfg manifest [] ⟨L, w, []⟩).1.isSome

lemma run_of_runEnds {W : Type} {h : Host W} {cfg : RunConfig} {manifest : Manifest} {w : W}
    (hroots : manifest.ReadableRoots) (hends : runEnds h cfg manifest w = true) :
    ∃ res w' fx, run h cfg manifest w = (.ok res, w', fx) := by
  rw [runEnds] at hends
  split at hends
  · simp at hends
  · rename_i L hstart
    rcases hend : driveSession h cfg manifest [] ⟨L, w, []⟩ with ⟨_ | state, s'⟩
    · simp [hend] at hends
    · obtain ⟨res, hrun, -⟩ := run_returns h cfg hroots hstart hend
      exact ⟨res, _, _, hrun⟩

/-- A run whose loop ends returns what the loop leaves. -/
lemma exists_run {W : Type} (h : Host W) (cfg : RunConfig) {manifest : Manifest} (w : W)
    (hroots : manifest.ReadableRoots) (P : Session W → Bool)
    (hP : ((startLedger manifest).toOption.any fun L =>
      (driveSession h cfg manifest [] ⟨L, w, []⟩).1.isSome
        && P (driveSession h cfg manifest [] ⟨L, w, []⟩).2) = true) :
    ∃ res w' fx, run h cfg manifest w = (.ok res, w', fx) ∧ P ⟨res.ledger, w', fx⟩ = true := by
  cases hstart : startLedger manifest with
  | error e =>
      rw [hstart] at hP
      cases hP
  | ok L =>
      rw [hstart] at hP
      obtain ⟨hsome, hcheck⟩ := (Bool.and_eq_true _ _).mp hP
      rcases hend : driveSession h cfg manifest [] ⟨L, w, []⟩ with ⟨_ | state, s'⟩
      · rw [hend] at hsome
        cases hsome
      · obtain ⟨res, hrun, hledger⟩ := run_returns h cfg hroots hstart hend
        rw [hend] at hcheck
        exact ⟨res, _, _, hrun, by rw [hledger]; exact hcheck⟩

/-! ### Scripted histories -/

/-- What is done to a ledger after its run: a resume with a fresh executor and fresh ids, or a
decision of the operator. -/
inductive Move where
  | resume (outcomes : List (String × MockSpec)) (answers : List ControlAnswer)
  | decide (blockerId decision : String)

/-- A task of a scripted manifest, with its dependencies. -/
def scriptNode (task : String × List String) : TaskNode :=
  ⟨.str task.1, .str task.1, task.2.map .str, .dict [("criteria", .list [])]⟩

/-- An approved manifest over a task graph. -/
def scriptManifest (tasks : List (String × List String)) : Manifest where
  schemaVersion := .str "1.0"
  control := ⟨.str "IPLAN-1", .str "1.0.0", .str "sha256:0", .bool true, .int 95⟩
  isolationScope := [("client_id", .str "c1"), ("project_id", .str "p1"),
    ("allowed_roots", .list [.str "src/"])]
  taskGraph := tasks.map scriptNode

omit [PyRuntime] in
lemma scriptManifest_roots (tasks : List (String × List String)) :
    (scriptManifest tasks).ReadableRoots := ⟨["src/"], rfl⟩

/-- The operator of scripted histories. -/
def scriptOperator : Actor := ⟨.str "op-1", some "operator"⟩

/-- The time of scripted histories. -/
def scriptNow : String := "2026-06-26T00:00:00Z"

/-- `run` and `resume` without keyword arguments. -/
def scriptConfig : RunConfig := ⟨0, 0, defaultGate⟩

/-- The result a task always ends with. -/
def steadyResult (outcomes : List (String × ExecutorResult)) (taskId : String) : ExecutorResult :=
  (outcomes.lookup taskId).getD mockSuccess

/-- A scripted host whose executor gives every task one result, and whose control lets the loop
run. -/
def steadyHost (outcomes : List (String × ExecutorResult)) : Host MockWorld :=
  { mockHost (outcomes.map fun p => (p.1, .always p.2)) scriptNow with
    control := fun w => (.running, w) }

lemma steadyHost_execute (outcomes : List (String × ExecutorResult)) (node : TaskNode)
    (scope : Dict) (w : MockWorld) :
    ((steadyHost outcomes).execute node scope w).1
      = .ok (steadyResult outcomes node.taskId.pyStr) := by
  have hlookup : ∀ t, (outcomes.map fun p => (p.1, MockSpec.always p.2)).lookup t
      = (outcomes.lookup t).map .always := by
    intro t
    induction outcomes with
    | nil => rfl
    | cons p rest ih =>
        rw [List.map_cons, List.lookup_cons, List.lookup_cons, ih]
        split <;> rfl
  show (mockExecute _ node w).1 = _
  rw [mockExecute, steadyResult, hlookup]
  cases outcomes.lookup node.taskId.pyStr <;> rfl

/-- An executor that gives a node one result ends with it, however often it is retried. -/
lemma Final.of_const {W : Type} {h : Host W} {cfg : RunConfig} {node : TaskNode} {scope : Dict}
    {result result' : ExecutorResult} (hconst : ∀ w, (h.execute node scope w).1 = .ok result)
    (hfinal : Final h cfg node scope result') : result' = result := by
  obtain ⟨w, hw⟩ := hfinal.executed
  rw [hconst w] at hw
  cases hw
  rfl

/-- The moves one after the other; an override `overrides` forbids ends the history. -/
def play (overrides : Ledger → String → Bool) (manifest : Manifest) :
    Ledger → List Move → Option Ledger
  | L, [] => some L
  | L, .resume outcomes answers :: rest =>
      play overrides manifest (driveSession (mockHost outcomes scriptNow) scriptConfig manifest
        (completedIds L) ⟨L.setRunState .running, .fresh answers, []⟩).2.ledger rest
  | L, .decide blockerId decision :: rest =>
      if decision = "override" ∧ overrides L blockerId = false then none
      else
        match resolveBlocker L blockerId decision scriptOperator scriptNow with
        | .error _ => none
        | .ok L' => play overrides manifest L' rest

/-- A run with a scripted executor, then the moves. -/
def playRun (overrides : Ledger → String → Bool) (manifest : Manifest)
    (outcomes : List (String × MockSpec)) (answers : List ControlAnswer) (moves : List Move) :
    Option Ledger :=
  match startLedger manifest with
  | .error _ => none
  | .ok L =>
      match driveSession (mockHost outcomes scriptNow) scriptConfig manifest []
          ⟨L, .fresh answers, []⟩ with
      | (none, _) => none
      | (some _, s) => play overrides manifest s.ledger moves

lemma play_reached {manifests : Manifest → Prop} {overrides : Ledger → String → Bool}
    {manifest : Manifest} (hm : manifests manifest) {L L' : Ledger} {moves : List Move}
    (hplay : play overrides manifest L moves = some L')
    (hL : Reached manifests (fun L i => overrides L i = true) L) :
    Reached manifests (fun L i => overrides L i = true) L' := by
  induction moves generalizing L with
  | nil =>
      obtain rfl : L = L' := by simpa [play] using hplay
      exact hL
  | cons move rest ih =>
      cases move with
      | resume outcomes answers =>
          rw [play] at hplay
          refine ih hplay ?_
          have hstep : Reached manifests (fun L i => overrides L i = true)
              (resume (mockHost outcomes scriptNow) scriptConfig manifest
                ⟨L, .fresh answers, []⟩).2.ledger := .resume hm hL
          rwa [resume_snd] at hstep
      | decide blockerId decision =>
          rw [play] at hplay
          split_ifs at hplay with hforbid
          split at hplay
          · simp at hplay
          · rename_i L₁ hres
            refine ih hplay (.resolve hL (fun hd => ?_) hres)
            by_contra hne
            exact hforbid ⟨hd, by simpa using hne⟩

/-- A scripted history starts with a run that returns. -/
lemma playRun_run {overrides : Ledger → String → Bool} {manifest : Manifest}
    (hroots : manifest.ReadableRoots) {outcomes : List (String × MockSpec)}
    {answers : List ControlAnswer} {moves : List Move} {L : Ledger}
    (hplay : playRun overrides manifest outcomes answers moves = some L) :
    ∃ res w' fx, run (mockHost outcomes scriptNow) scriptConfig manifest (.fresh answers)
        = (.ok res, w', fx)
      ∧ play overrides manifest res.ledger moves = some L := by
  rw [playRun] at hplay
  split at hplay
  · simp at hplay
  · rename_i L₀ hstart
    split at hplay
    · simp at hplay
    · rename_i state s hend
      obtain ⟨res, hrun, hledger⟩ := run_returns _ _ hroots hstart hend
      exact ⟨res, _, _, hrun, by rwa [hledger]⟩

/-- **A scripted history ends in a reached ledger.** -/
theorem playRun_reached {manifests : Manifest → Prop} {overrides : Ledger → String → Bool}
    {manifest : Manifest} (hm : manifests manifest) (hroots : manifest.ReadableRoots)
    {outcomes : List (String × MockSpec)} {answers : List ControlAnswer} {moves : List Move}
    {L : Ledger} (hplay : playRun overrides manifest outcomes answers moves = some L) :
    Reached manifests (fun L i => overrides L i = true) L := by
  obtain ⟨res, w', fx, hrun, hmoves⟩ := playRun_run hroots hplay
  exact play_reached hm hmoves (.run hm hrun)

end IplanRunner
