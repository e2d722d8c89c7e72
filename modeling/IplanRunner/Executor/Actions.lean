import IplanRunner.Evidence.Runner
import IplanRunner.Executor.Base

/-!
The actions of a task, carried out one after the other (`executor/scripted.py`,
`executor/_apply.py`).

* `Effectors`: the three functions the executors reach the workspace by.
* `performAction`, `attemptAction`: one action; of what it raises only a `PermissionError` is
  caught.
* `applyTaskSpec`: the actions up to one that fails, then the checks.
* `Executor`: what the run loop calls, with the paths a call writes or reports; `scriptedExecutor`.
* `reached`, `writtenPaths`: the actions the loop comes to, and what it writes;
  `performActions_touched` says that a result lists exactly that.
-/

namespace IplanRunner

open Foundation

/-- What the executors reach the workspace by: `apply_write`, `run_command` and `undo_writes`. -/
structure Effectors (W : Type) where
  applyWrite : Val → Val → List Val → Call PyErr W String
  runCommand : Val → Call PyErr W CommandOutcome
  undoWrites : List String → Call PyErr W (List String)

/-- How an action ends that does not raise. -/
inductive Performed where
  | wrote (path : String)
  | passed
  | failed (reason : String)
  deriving DecidableEq

/-- The action ends the loop. -/
def Performed.stops : Performed → Bool
  | .failed _ => true
  | _ => false

/-- The path the action has written. -/
def Performed.path? : Performed → Option String
  | .wrote path => some path
  | _ => none

variable [PyRuntime] {W : Type} (eff : Effectors W) (roots : List Val)

/-! ### The loop over the actions -/

/-- One action, without the `except`. -/
def performAction (action : Val) : Call PyErr W Performed := do
  let kind ← Call.ofExcept (action.item "type")
  if kind.pyEq (.str "write") then
    let path ← Call.ofExcept (action.item "path")
    let content ← Call.ofExcept (action.get "content" (.str ""))
    return .wrote (← eff.applyWrite path content roots)
  else if kind.pyEq (.str "command") then
    let cmd ← Call.ofExcept (action.item "cmd")
    let outcome ← eff.runCommand cmd
    let text := cmd.pyStr
    if outcome.exitCode ≠ 0 then return .failed s!"command failed: {text}" else return .passed
  else return .passed

/-- One action: a `PermissionError` counts as its failure. -/
def attemptAction (action : Val) : Call PyErr W Performed := fun w =>
  match performAction eff roots action w with
  | (.error (.permissionError message), w') => (.ok (.failed message), w')
  | r => r

/-- The loop over the actions: the paths written, and the reason of a failure. -/
def performActions : List Val → List String → Call PyErr W (List String × Option String)
  | [], touched => pure (touched, none)
  | action :: rest, touched => do
      match ← attemptAction eff roots action with
      | .wrote path => performActions rest (touched ++ [path])
      | .passed => performActions rest touched
      | .failed reason => return (touched, some reason)

/-- The result of a task whose checks have been run. -/
def checkedResult (touched : List String) (report : CheckReport) : ExecutorResult :=
  let passed := report.results.countP (·.exitCode = 0)
  let total := report.results.length
  let evidence : Dict :=
    [("kind", .str "test"), ("summary", .str s!"{passed}/{total} checks passed"),
      ("location", .str "workspace")]
  if report.passed then ⟨.success, touched, some evidence, none, false⟩
  else ⟨.failure, touched, some evidence, some "checks failed", false⟩

/-- The end of `apply_task_spec`, from the checks on. -/
def applyChecks (secrets : List String) (spec : Val) (touched : List String) :
    Call PyErr W ExecutorResult := do
  let checks ← Call.ofExcept (spec.get "checks" (.list []))
  if !checks.truthy then return ⟨.success, touched, none, none, false⟩
  let checkList ← Call.ofExcept checks.iter
  return checkedResult touched (← runChecks eff.runCommand secrets checkList)

/-- `for action in spec.get("actions", [])`. -/
def actionsOf (spec : Val) : Except PyErr (List Val) := do
  (← spec.get "actions" (.list [])).iter

/-- `apply_task_spec`, and `ScriptedExecutor.execute` from its loop on. -/
def applyTaskSpec (secrets : List String) (spec : Val) : Call PyErr W ExecutorResult := do
  let actions ← Call.ofExcept (actionsOf spec)
  let (touched, failure) ← performActions eff roots actions []
  match failure with
  | some reason => return ⟨.failure, touched, none, some reason, false⟩
  | none => applyChecks eff secrets spec touched

/-! ### What the effectors keep -/

section Moves

variable {eff roots} {R : W → W → Prop} (hrefl : ∀ w, R w w)
  (htrans : ∀ {u v w}, R u v → R v w → R u w)
  (hwrite : ∀ path content, Call.Moves R (eff.applyWrite path content roots))
  (hrun : ∀ cmd, Call.Moves R (eff.runCommand cmd))

include hrefl htrans hwrite hrun

lemma performAction_moves (action : Val) : Call.Moves R (performAction eff roots action) := by
  have hpure : ∀ {α : Type} (x : Except PyErr α), Call.Moves R (Call.ofExcept x : Call PyErr W α) :=
    fun x => Call.moves_of_keep hrefl fun _ => rfl
  rw [performAction]
  refine Call.Moves.bind (R := R) htrans (hpure _) fun kind => ?_
  split_ifs
  · refine Call.Moves.bind (R := R) htrans (hpure _) fun path => ?_
    refine Call.Moves.bind (R := R) htrans (hpure _) fun content => ?_
    exact Call.Moves.bind (R := R) htrans (hwrite path content) fun _ => hpure (.ok _)
  · refine Call.Moves.bind (R := R) htrans (hpure _) fun cmd => ?_
    refine Call.Moves.bind (R := R) htrans (hrun cmd) fun outcome => ?_
    dsimp only
    split_ifs
    · exact hpure (.ok _)
    · exact hpure (.ok _)
  · exact hpure (.ok _)

lemma performActions_moves (actions : List Val) (touched : List String) :
    Call.Moves R (performActions eff roots actions touched) := by
  induction actions generalizing touched with
  | nil => exact Call.moves_of_keep hrefl fun _ => rfl
  | cons action rest ih =>
      have hattempt : Call.Moves R (attemptAction eff roots action) := by
        intro w
        have hone := performAction_moves hrefl htrans hwrite hrun action w
        rw [attemptAction]
        split
        · rename_i message w' h
          rwa [h] at hone
        · exact hone
      rw [performActions]
      refine Call.Moves.bind (R := R) htrans hattempt fun p => ?_
      cases p with
      | wrote path => exact ih _
      | passed => exact ih _
      | failed reason => exact Call.moves_of_keep hrefl fun _ => rfl

/-- **A task moves the world as its effectors do.** -/
theorem applyTaskSpec_moves (secrets : List String) (spec : Val) :
    Call.Moves R (applyTaskSpec eff roots secrets spec) := by
  have hpure : ∀ {α : Type} (x : Except PyErr α), Call.Moves R (Call.ofExcept x : Call PyErr W α) :=
    fun x => Call.moves_of_keep hrefl fun _ => rfl
  rw [applyTaskSpec]
  refine Call.Moves.bind (R := R) htrans (hpure _) fun actions => ?_
  refine Call.Moves.bind (R := R) htrans (performActions_moves hrefl htrans hwrite hrun actions [])
    fun ended => ?_
  obtain ⟨touched, failure⟩ := ended
  cases failure with
  | some reason => exact hpure (.ok _)
  | none =>
      dsimp only
      rw [applyChecks]
      refine Call.Moves.bind (R := R) htrans (hpure _) fun checks => ?_
      split_ifs
      · exact hpure (.ok _)
      · refine Call.Moves.bind (R := R) htrans (hpure _) fun checkList => ?_
        refine Call.Moves.bind (R := R) htrans ?_ fun report => hpure (.ok _)
        exact runCheckList_moves hrefl htrans (fun _ _ cmd _ => hrun cmd) _

end Moves

/-! ### Executors -/

/-- `list(ctx.isolation_scope.get("allowed_roots", []))`. -/
def scopeRoots (scope : Dict) : Except PyErr (List Val) :=
  ((scope.lookup "allowed_roots").getD (.list [])).iter

/-- An executor, and what a call of its `execute` does to the workspace, whatever its result says:
the paths its write actions write, and those it is told have changed. -/
structure Executor (W : Type) where
  execute : TaskNode → Dict → W → Except PyErr ExecutorResult × W
  compensate : List String → W → Except PyErr Unit × W
  written : TaskNode → Dict → W → List String
  reported : TaskNode → Dict → W → List String

/-- The run loop driven by an executor. -/
def Host.driving (h : Host W) (x : Executor W) : Host W :=
  { h with execute := x.execute, compensate := x.compensate }

/-- `undo_writes(touched_paths, self._workspace)`. -/
def undoTouched (touched : List String) : Call PyErr W Unit := do
  let _ ← eff.undoWrites touched
  return ()

/-- The actions the loop comes to, each with the world it meets. -/
def reached (actions : List Val) (w : W) : List (Val × W) :=
  Call.visits (attemptAction eff roots) Performed.stops actions w

/-- The path an action writes, when its write returns. -/
def writes? (v : Val × W) : Option String :=
  match (attemptAction eff roots v.1 v.2).1 with
  | .ok p => p.path?
  | .error _ => none

/-- The paths the loop writes. -/
def writtenPaths (actions : List Val) (w : W) : List String :=
  (reached eff roots actions w).filterMap (writes? eff roots)

/-- The paths `apply_task_spec` writes. -/
def specWrites (spec : Val) (w : W) : List String :=
  match actionsOf spec with
  | .ok actions => writtenPaths eff roots actions w
  | .error _ => []

/-- `self._spec.get(str(task.get("task_id")), {})`, the specification being `spec or {}`. -/
def taskSpecOf (spec : Val) (node : TaskNode) : Except PyErr Val :=
  (spec.orElse (.dict [])).get node.taskId.pyStr (.dict [])

/-- `ScriptedExecutor.execute`. -/
def scriptedExecute (secrets : List String) (spec : Val) (node : TaskNode) (scope : Dict) :
    Call PyErr W ExecutorResult := do
  let taskSpec ← Call.ofExcept (taskSpecOf spec node)
  let roots ← Call.ofExcept (scopeRoots scope)
  applyTaskSpec eff roots secrets taskSpec

/-- What `ScriptedExecutor.execute` writes. -/
def scriptedWrites (spec : Val) (node : TaskNode) (scope : Dict) (w : W) : List String :=
  match taskSpecOf spec node, scopeRoots scope with
  | .ok taskSpec, .ok roots => specWrites eff roots taskSpec w
  | _, _ => []

/-- `ScriptedExecutor`. -/
def scriptedExecutor (secrets : List String) (spec : Val) : Executor W where
  execute := scriptedExecute eff secrets spec
  compensate := undoTouched eff
  written := scriptedWrites eff spec
  reported := fun _ _ _ => []

/-! ### What a result lists -/

variable {eff roots}

/-- **An action has written a path** exactly when it is a write and its write has returned the
path. -/
theorem attemptAction_wrote_iff {action : Val} {w w' : W} {p : String} :
    attemptAction eff roots action w = (.ok (.wrote p), w')
      ↔ ∃ path content, action.item "type" = .ok (.str "write") ∧ action.item "path" = .ok path
        ∧ action.get "content" (.str "") = .ok content
        ∧ eff.applyWrite path content roots w = (.ok p, w') := by
  have hcaught : attemptAction eff roots action w = (.ok (.wrote p), w')
      ↔ performAction eff roots action w = (.ok (.wrote p), w') := by
    rw [attemptAction]
    rcases performAction eff roots action w with ⟨e | q, w₁⟩
    · cases e <;> simp
    · simp
  rw [hcaught, performAction]
  constructor
  · intro h
    obtain ⟨kind, w₁, hkind, h⟩ := Call.bind_eq_ok.mp h
    rw [Call.ofExcept_apply, Prod.mk.injEq] at hkind
    obtain ⟨hkind, rfl⟩ := hkind
    split at h
    · rename_i hwrite
      rw [Val.pyEq_str_iff] at hwrite
      rw [hwrite] at hkind
      obtain ⟨path, w₂, hpath, h⟩ := Call.bind_eq_ok.mp h
      obtain ⟨content, w₃, hcontent, h⟩ := Call.bind_eq_ok.mp h
      obtain ⟨q, w₄, hw, hend⟩ := Call.bind_eq_ok.mp h
      rw [Call.ofExcept_apply, Prod.mk.injEq] at hpath hcontent
      obtain ⟨hpath, rfl⟩ := hpath
      obtain ⟨hcontent, rfl⟩ := hcontent
      cases hend
      exact ⟨path, content, hkind, hpath, hcontent, hw⟩
    · split at h
      · obtain ⟨cmd, w₂, -, h⟩ := Call.bind_eq_ok.mp h
        obtain ⟨outcome, w₃, -, h⟩ := Call.bind_eq_ok.mp h
        split at h <;> cases h
      · cases h
  · rintro ⟨path, content, hkind, hpath, hcontent, hw⟩
    rw [hkind, Call.bind_ok (Call.ofExcept_apply _ _), if_pos (Val.pyEq_refl _), hpath, hcontent,
      Call.bind_ok (Call.ofExcept_apply _ _), Call.bind_ok (Call.ofExcept_apply _ _),
      Call.bind_ok hw]
    rfl

lemma performActions_cons {action : Val} {w w' : W} {p : Performed}
    (h : attemptAction eff roots action w = (.ok p, w')) (rest : List Val) (touched : List String) :
    performActions eff roots (action :: rest) touched w = match p with
      | .wrote path => performActions eff roots rest (touched ++ [path]) w'
      | .passed => performActions eff roots rest touched w'
      | .failed reason => (.ok (touched, some reason), w') := by
  rw [performActions, Call.bind_ok h]
  cases p <;> rfl

lemma performActions_raised {action : Val} {w w' : W} {e : PyErr}
    (h : attemptAction eff roots action w = (.error e, w')) (rest : List Val)
    (touched : List String) :
    performActions eff roots (action :: rest) touched w = (.error e, w') := by
  rw [performActions, Call.bind_error h]

lemma reached_cons {action : Val} {w w' : W} {p : Performed}
    (h : attemptAction eff roots action w = (.ok p, w')) (rest : List Val) :
    reached eff roots (action :: rest) w
      = (action, w) :: if p.stops then [] else reached eff roots rest w' :=
  Call.visits_ok h rest

lemma reached_raised {action : Val} {w w' : W} {e : PyErr}
    (h : attemptAction eff roots action w = (.error e, w')) (rest : List Val) :
    reached eff roots (action :: rest) w = [(action, w)] :=
  Call.visits_error h rest

lemma writtenPaths_cons {action : Val} {w w' : W} {p : Performed}
    (h : attemptAction eff roots action w = (.ok p, w')) (rest : List Val) :
    writtenPaths eff roots (action :: rest) w
      = p.path?.toList ++ if p.stops then [] else writtenPaths eff roots rest w' := by
  have hone : writes? eff roots (action, w) = p.path? := by rw [writes?, h]
  rw [writtenPaths, reached_cons h, List.filterMap_cons, hone]
  cases p <;> rfl

/-- **A loop that ends has listed what it wrote.** -/
theorem performActions_touched {actions : List Val} {touched touched' : List String}
    {failure : Option String} {w w' : W}
    (h : performActions eff roots actions touched w = (.ok (touched', failure), w')) :
    touched' = touched ++ writtenPaths eff roots actions w := by
  induction actions generalizing touched w with
  | nil =>
      cases h
      exact (List.append_nil _).symm
  | cons action rest ih =>
      rcases hone : attemptAction eff roots action w with ⟨e | p, w₁⟩
      · rw [performActions_raised hone] at h
        cases h
      · rw [performActions_cons hone] at h
        rw [writtenPaths_cons hone]
        cases p with
        | wrote path =>
            rw [ih h, List.append_assoc]
            rfl
        | passed => exact ih h
        | failed reason =>
            cases h
            exact (List.append_nil _).symm

/-- **A loop raises** when an action it comes to does. -/
theorem performActions_raises_iff {actions : List Val} {touched : List String} {w : W} :
    (performActions eff roots actions touched).Raises w
      ↔ ∃ v ∈ reached eff roots actions w, (attemptAction eff roots v.1).Raises v.2 := by
  induction actions generalizing touched w with
  | nil => simp [performActions, reached, Call.visits]
  | cons action rest ih =>
      rcases hone : attemptAction eff roots action w with ⟨e | p, w₁⟩
      · have hraises : (attemptAction eff roots action).Raises w := ⟨e, by rw [hone]⟩
        rw [Call.Raises, performActions_raised hone, reached_raised hone]
        simpa using hraises
      · have hhead : ¬ (attemptAction eff roots action).Raises w := Call.not_raises_of_ok hone
        rw [Call.Raises, performActions_cons hone, reached_cons hone]
        simp only [List.mem_cons, exists_eq_or_imp, hhead, false_or]
        cases p with
        | wrote path => exact ih
        | passed => exact ih
        | failed reason => simp [Performed.stops]

omit [PyRuntime] in
/-- The result lists what has been written. -/
lemma applyChecks_ok {secrets : List String} {spec : Val} {touched : List String} {w w' : W}
    {result : ExecutorResult} (h : applyChecks eff secrets spec touched w = (.ok result, w')) :
    result.touchedPaths = touched ∧ result.retriable = false := by
  rw [applyChecks] at h
  obtain ⟨checks, w₁, -, h⟩ := Call.bind_eq_ok.mp h
  split at h
  · cases h
    exact ⟨rfl, rfl⟩
  · obtain ⟨checkList, w₂, -, h⟩ := Call.bind_eq_ok.mp h
    obtain ⟨report, w₃, -, h⟩ := Call.bind_eq_ok.mp h
    cases h
    rw [checkedResult]
    split <;> exact ⟨rfl, rfl⟩

/-- **`apply_task_spec` lists what it wrote**, and its failures are not retriable. -/
theorem applyTaskSpec_ok {secrets : List String} {spec : Val} {w w' : W} {result : ExecutorResult}
    (h : applyTaskSpec eff roots secrets spec w = (.ok result, w')) :
    result.touchedPaths = specWrites eff roots spec w ∧ result.retriable = false := by
  rw [applyTaskSpec] at h
  obtain ⟨actions, w₁, hactions, h⟩ := Call.bind_eq_ok.mp h
  obtain ⟨⟨touched, failure⟩, w₂, hloop, h⟩ := Call.bind_eq_ok.mp h
  rw [Call.ofExcept_apply, Prod.mk.injEq] at hactions
  obtain ⟨hactions, rfl⟩ := hactions
  have htouched := performActions_touched hloop
  rw [List.nil_append] at htouched
  rw [specWrites, hactions]
  cases failure with
  | some reason =>
      cases h
      exact ⟨htouched, rfl⟩
  | none =>
      obtain ⟨hpaths, hretry⟩ := applyChecks_ok h
      exact ⟨hpaths.trans htouched, hretry⟩

/-- What a call of an executor has to say that returns: all it wrote, and that it is final. -/
def Executor.Lists (x : Executor W) : Prop :=
  ∀ node scope w w' result, x.execute node scope w = (.ok result, w') →
    x.written node scope w ⊆ result.touchedPaths ∧ result.retriable = false

theorem scriptedExecutor_lists (eff : Effectors W) (secrets : List String) (spec : Val) :
    (scriptedExecutor eff secrets spec).Lists := by
  intro node scope w w' result h
  change scriptedExecute eff secrets spec node scope w = _ at h
  rw [scriptedExecute] at h
  obtain ⟨taskSpec, w₁, htask, h⟩ := Call.bind_eq_ok.mp h
  obtain ⟨roots, w₂, hroots, h⟩ := Call.bind_eq_ok.mp h
  rw [Call.ofExcept_apply, Prod.mk.injEq] at htask hroots
  obtain ⟨htask, rfl⟩ := htask
  obtain ⟨hroots, rfl⟩ := hroots
  obtain ⟨htouched, hretry⟩ := applyTaskSpec_ok h
  refine ⟨?_, hretry⟩
  show scriptedWrites eff spec node scope w ⊆ result.touchedPaths
  rw [scriptedWrites, htask, hroots, htouched]
  exact List.Subset.refl _

end IplanRunner
