import IplanRunner.Executor.Base
import IplanRunner.Gates.Runner
import IplanRunner.Orchestrator.State
import IplanRunner.Orchestrator.Topo

/-!
The run loop (`orchestrator/loop.py`) and its bounded retry (`orchestrator/saga.py`).

* `executeWithRetry`, `escalate`, `runTask`, `blockUnmetDeps`: one task.
* `turn`, `driveLoop`, `drive`: the loop over the order, the reconciliation and the gate.
* `initLedger`, `run`, `resume`: the two entry points.  `run` hands out its ledger only when it
  returns; `resume` changes the ledger it is given, also when it raises.
-/

namespace IplanRunner

open Foundation

/-- `_AGENT_ID`. -/
def agentId : String := "claude"

/-- The keyword arguments of `run` and `resume` that are no calls. -/
structure RunConfig where
  maxRetries : ℕ
  backoffBase : ℚ
  gate : Gate

/-- `RunResult`. -/
structure RunResult where
  ledger : Ledger
  gateResult : GateResult

variable [PyRuntime] {W : Type} (h : Host W) (cfg : RunConfig)

/-! ### One task -/

/-- `execute_with_retry`, with `left` retries left. -/
def executeWithRetry (node : TaskNode) (scope : Dict) :
    ℕ → ℕ → Loop W (ExecutorResult × ℕ)
  | left, attempt => do
      let result ← Loop.execute h node scope
      if result.outcome = .success then return (result, attempt)
      match left with
      | 0 => return (result, attempt)
      | left + 1 =>
          if result.retriable then
            Loop.sleep h (backoff attempt cfg.backoffBase)
            executeWithRetry node scope left (attempt + 1)
          else return (result, attempt)

/-- `_escalate`. -/
def escalate (taskId reason blockedAt : String) : Loop W Unit := do
  let blockerId ← Loop.ids h "B"
  Loop.update (·.block taskId reason blockerId blockedAt .inProgress)

/-- The `file_edited` events of a success. -/
def logEdits (taskId : String) : List String → Loop W Unit
  | [] => pure ()
  | path :: rest => do
      let atTime ← Loop.clock h
      Loop.update (·.logEvent .fileEdited taskId atTime [path])
      logEdits taskId rest

/-- `{"evidence_id": ..., "task_id": ..., **evidence}`. -/
def evidenceEntry (evidenceId taskId : String) (evidence : Dict) : Dict :=
  Dict.update [("evidence_id", .str evidenceId), ("task_id", .str taskId)] evidence

/-- The evidence of a success, when there is any. -/
def recordEvidence (taskId : String) : Option Dict → Loop W Unit
  | none => pure ()
  | some evidence => do
      let evidenceId ← Loop.ids h "EV"
      Loop.update (·.addEvidence (evidenceEntry evidenceId taskId evidence))
      Loop.update (·.setTask taskId fun e => { e with
        evidenceRefs := e.evidenceRefs ++ [evidenceId]
        acceptance := { e.acceptance with result := .pass } })

/-- The success branch of `_run_task`. -/
def settleSuccess (taskId : String) (result : ExecutorResult) : Loop W Unit := do
  logEdits h taskId result.touchedPaths
  recordEvidence h taskId result.evidence
  let completedAt ← Loop.clock h
  Loop.update (·.setStatus taskId .completed)
  Loop.update (·.addHistory taskId .inProgress .completed completedAt)
  Loop.update (·.logEvent .taskCompleted taskId completedAt [])
  Loop.update (·.setTxn ({ · with status := .committed }))

/-- `result.reason or "execution failed"`. -/
def failureReason (result : ExecutorResult) : String :=
  match result.reason with
  | some reason => if reason = "" then "execution failed" else reason
  | none => "execution failed"

/-- The failure branch of `_run_task`. -/
def settleFailure (taskId : String) (result : ExecutorResult) : Loop W Unit := do
  if result.touchedPaths ≠ [] then
    Loop.compensate h result.touchedPaths
    let atTime ← Loop.clock h
    Loop.update (·.logEvent .compensation taskId atTime result.touchedPaths)
    Loop.update (·.setTxn ({ · with status := .compensated }))
  let blockedAt ← Loop.clock h
  escalate h taskId (failureReason result) blockedAt

/-- `_run_task`, from the acquired lease up to the call of the executor. -/
def beginTask (taskId acquiredAt : String) : Loop W Unit := do
  let leaseId ← Loop.ids h "L"
  Loop.update (·.addLease ⟨leaseId, taskId, agentId, .str acquiredAt, .none, .none⟩)
  let txnId ← Loop.ids h "TX"
  Loop.update (·.addTxn
    ⟨txnId, taskId, "execute", "revert", executeKey taskId, .pending, 600, none⟩)
  let startedAt ← Loop.clock h
  Loop.update (·.setStatus taskId .inProgress)
  Loop.update (·.addHistory taskId .pending .inProgress startedAt)
  Loop.update (·.logEvent .taskStarted taskId startedAt [])

/-- `_run_task`, from the call of the executor on. -/
def executeTask (node : TaskNode) (taskId : String) : Loop W Unit := do
  let scope := (← Loop.ledger).isolationScope
  let (result, attempts) ← executeWithRetry h cfg node scope cfg.maxRetries 1
  Loop.update (·.setTxn ({ · with attempts := some attempts }))
  if result.outcome = .success then settleSuccess h taskId result
  else settleFailure h taskId result
  let releasedAt ← Loop.clock h
  Loop.update (·.setLease ({ · with releasedAt := .str releasedAt }))

/-- `_run_task`. -/
def runTask (node : TaskNode) : Loop W Unit := do
  let taskId := node.taskId.pyStr
  if alreadyCommitted (← Loop.ledger) (executeKey taskId) then return
  let acquiredAt ← Loop.clock h
  if !canAcquire (← Loop.ledger).agentLeases taskId acquiredAt then
    escalate h taskId "lease conflict" acquiredAt
    return
  beginTask h taskId acquiredAt
  executeTask h cfg node taskId

/-- `_block_unmet_deps`. -/
def blockUnmetDeps (node : TaskNode) : Loop W Unit := do
  let taskId := node.taskId.pyStr
  let blockerId ← Loop.ids h "B"
  let atTime ← Loop.clock h
  Loop.update (·.block taskId "dependency not satisfied" blockerId atTime .pending)

/-! ### The loop -/

/-- `_reconcile`. -/
def reconcile (L : Ledger) : Ledger :=
  let pending := L.taskLedger.countP fun t => t.status = .pending ∨ t.status = .inProgress
  let openBlockers := L.blockers.length
  let allowed : Bool := pending = 0 ∧ openBlockers = 0
  { L with
    reconciliation := ⟨allowed, pending, openBlockers⟩
    control := if allowed then { L.control with status := .completed }
      else if openBlockers ≠ 0 then { L.control with status := .blocked }
      else L.control }

omit [PyRuntime] in
lemma reconcile_runState (L : Ledger) : (reconcile L).control.runState = L.control.runState := by
  rw [reconcile]
  dsimp only
  split_ifs <;> rfl

omit [PyRuntime] in
lemma reconcile_requiresLanding (L : Ledger) :
    (reconcile L).control.requiresLanding = L.control.requiresLanding := by
  rw [reconcile]
  dsimp only
  split_ifs <;> rfl

/-- `task(ledger, task_id)["status"]`. -/
def taskStatus (taskId : String) : Loop W TaskStatus := do
  match (← Loop.ledger).task? taskId with
  | some entry => return entry.status
  | none => Call.raise (.keyError taskId)

/-- What the loop of `_drive` does for a task control lets it take up. -/
def turn (node : TaskNode) (taskId : String) (completed : List String) : Loop W (List String) := do
  if node.dependsOn.all fun d => d.pyStr ∈ completed then
    runTask h cfg node
    if (← taskStatus taskId) = .completed then return taskId :: completed else return completed
  else
    blockUnmetDeps h node
    return completed

/-- The loop of `_drive` over the order, `completed` being the set of completed ids. -/
def driveLoop (graph : List TaskNode) : List String → List String → Loop W RunState
  | [], _ => pure .completed
  | taskId :: rest, completed => do
      if (← taskStatus taskId) = .completed then
        driveLoop graph rest (taskId :: completed)
      else
        match ← Loop.control h with
        | .aborted => return .aborted
        | .paused => return .paused
        | .running =>
            match lastNode graph taskId with
            | none => Call.raise (.keyError taskId)
            | some node => do
                let completed ← turn h cfg node taskId completed
                driveLoop graph rest completed

/-- `ledger["ledger_control"]["run_state"] = state`. -/
def Ledger.setRunState (L : Ledger) (state : RunState) : Ledger :=
  { L with control := { L.control with runState := state } }

/-- `_drive`. -/
def drive (manifest : Manifest) (completed : List String) : Loop W RunResult := do
  let order ← Call.ofExcept (topoOrder manifest.taskGraph)
  let runState ← driveLoop h cfg manifest.taskGraph order completed
  Loop.update (·.setRunState runState)
  Loop.update reconcile
  let ledger ← Loop.ledger
  let gateResult ← Call.ofExcept (runGate ledger.toDoc cfg.gate)
  return ⟨ledger, gateResult⟩

/-! ### The entry points -/

/-- `(t.get("acceptance") or {}).get("criteria", [])`. -/
def initialCriteria (t : TaskNode) : Except PyErr Val :=
  (t.acceptance.orElse (.dict [])).get "criteria" (.list [])

/-- The entry of a task no run has taken up yet. -/
def initialEntry (t : TaskNode) (criteria : Val) : TaskEntry where
  taskId := t.taskId
  title := t.title
  status := .pending
  evidenceRefs := []
  acceptance := ⟨criteria, .none⟩
  blockedReason := none
  decisionOwner := none

/-- `_init_ledger`: an acceptance that is no dictionary raises. -/
def initLedger (manifest : Manifest) : Except PyErr Ledger := do
  let entries ← manifest.taskGraph.mapM fun t => do return initialEntry t (← initialCriteria t)
  return {
    control := {
      ledgerId := "LEDGER-" ++ manifest.control.sourceIplan.pyStr
      sourceIplan := manifest.control.sourceIplan
      sourceIplanVersion := manifest.control.sourceIplanVersion
      sourceIplanChecksum := manifest.control.sourceIplanChecksum
      status := .inProgress
      runState := .running
      requiresLanding := false }
    isolationScope := manifest.isolationScope
    taskLedger := entries
    agentLeases := []
    executionEvidence := []
    blockers := []
    reconciliation := ⟨false, manifest.taskGraph.length, 0⟩
    sagaJournal := []
    executionHistory := []
    executionLog := []
    resolutions := []
    vcs := none }

/-- The ledger `run` starts from, a manifest that fails validation being refused. -/
def startLedger (manifest : Manifest) : Except PyErr Ledger := do
  if statusOf (← validateIntake manifest) = .fail then
    throw (.valueError "intake manifest failed validation")
  initLedger manifest

/-- `run`, in a world `w`: its result, the world it leaves and the calls it made. -/
def run (manifest : Manifest) (w : W) : Except PyErr RunResult × W × List Effect :=
  match startLedger manifest with
  | .error e => (.error e, w, [])
  | .ok ledger =>
      let (result, s) := drive h cfg manifest [] ⟨ledger, w, []⟩
      (result, s.world, s.effects)

/-- The ids of the completed entries, as `resume` reads them. -/
def completedIds (L : Ledger) : List String :=
  (L.taskLedger.filter (·.status = .completed)).map (·.taskId.pyStr)

/-- `resume`. -/
def resume (manifest : Manifest) : Loop W RunResult := do
  let completed := completedIds (← Loop.ledger)
  Loop.update (·.setRunState .running)
  drive h cfg manifest completed

end IplanRunner
