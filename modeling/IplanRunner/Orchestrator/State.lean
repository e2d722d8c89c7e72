import Mathlib.Tactic.Simps.Basic
import IplanRunner.Foundation.Calls
import IplanRunner.Ledger.Store

/-!
What one statement of the run loop does to a ledger (`orchestrator/state.py`, `leases.py` and
`saga.py`, and the statements of `orchestrator/loop.py` that write a ledger section).

* `Ledger.task?`, `Ledger.setTask`: `task` and an assignment to a field of the entry it returns.
* `Ledger.block`: the statements `_escalate` and `_block_unmet_deps` share.
* `alreadyCommitted`, `canAcquire`: the two guards of `_run_task`.
-/

namespace IplanRunner

open Foundation

/-! ### Task entries -/

/-- `task`: the first entry with the id. -/
def Ledger.task? (L : Ledger) (taskId : String) : Option TaskEntry :=
  L.taskLedger.find? (·.named taskId)

/-- An assignment to fields of `task(ledger, task_id)`. -/
@[simps] def Ledger.setTask (L : Ledger) (taskId : String) (f : TaskEntry → TaskEntry) : Ledger :=
  { L with taskLedger := updateFirst (·.named taskId) f L.taskLedger }

/-- `set_status`.  The loop has looked the entry up before, so a missing one has raised there. -/
def Ledger.setStatus (L : Ledger) (taskId : String) (newStatus : TaskStatus) : Ledger :=
  L.setTask taskId fun e => { e with status := newStatus }

/-- Two assignments to the same entry, the first of which does not rename it. -/
lemma updateFirst_named {f g : TaskEntry → TaskEntry} (h : ∀ e, (f e).taskId = e.taskId)
    (taskId : String) (l : List TaskEntry) :
    updateFirst (·.named taskId) g (updateFirst (·.named taskId) f l)
      = updateFirst (·.named taskId) (g ∘ f) l :=
  updateFirst_updateFirst (fun e => by rw [TaskEntry.named, TaskEntry.named, h]) l

/-- `add_history`. -/
@[simps] def Ledger.addHistory (L : Ledger) (taskId : String) (fromStatus toStatus : TaskStatus)
    (atTime : String) : Ledger :=
  { L with executionHistory := L.executionHistory ++ [⟨atTime, taskId, fromStatus, toStatus⟩] }

/-! ### The other sections -/

/-- `ledger["blockers"].append(...)`. -/
@[simps] def Ledger.addBlocker (L : Ledger) (b : Blocker) : Ledger :=
  { L with blockers := L.blockers ++ [b] }

/-- `ledger["agent_leases"].append(lease)`. -/
@[simps] def Ledger.addLease (L : Ledger) (lease : Lease) : Ledger :=
  { L with agentLeases := L.agentLeases ++ [lease] }

/-- An assignment to a field of the lease appended last. -/
@[simps] def Ledger.setLease (L : Ledger) (f : Lease → Lease) : Ledger :=
  { L with agentLeases := updateLast f L.agentLeases }

/-- `ledger["saga_journal"].append(txn)`. -/
@[simps] def Ledger.addTxn (L : Ledger) (txn : Txn) : Ledger :=
  { L with sagaJournal := L.sagaJournal ++ [txn] }

/-- An assignment to a field of the transaction appended last. -/
@[simps] def Ledger.setTxn (L : Ledger) (f : Txn → Txn) : Ledger :=
  { L with sagaJournal := updateLast f L.sagaJournal }

/-- `ledger["execution_evidence"].append(...)`. -/
@[simps] def Ledger.addEvidence (L : Ledger) (evidence : Dict) : Ledger :=
  { L with executionEvidence := L.executionEvidence ++ [evidence] }

/-- `_event`. -/
def loopEvent (scope : Dict) (eventType : EventKind) (taskId atTime : String)
    (paths : List String) : EventBody where
  kind := eventType
  subjectId := .str taskId
  atTime := .str atTime
  touchedPaths := strList paths
  clientId := scope.get "client_id"
  projectId := scope.get "project_id"

section Runtime

variable [PyRuntime]

/-- `append_event(ledger, _event(scope, ...))`. -/
@[simps] def Ledger.logEvent (L : Ledger) (eventType : EventKind) (taskId atTime : String)
    (paths : List String) : Ledger :=
  { L with
    executionLog :=
      appendEvent L.executionLog (loopEvent L.isolationScope eventType taskId atTime paths) }

/-- What `_escalate` and `_block_unmet_deps` do, the first to a task in progress and the second to
a pending one. -/
def Ledger.block (L : Ledger) (taskId reason blockerId atTime : String)
    (fromStatus : TaskStatus) : Ledger :=
  (((((L.addBlocker ⟨blockerId, taskId, reason, "operator"⟩).setTask taskId
    fun e => { e with blockedReason := some reason, decisionOwner := some "operator" }).setStatus
    taskId .blocked).addHistory taskId fromStatus .blocked atTime).logEvent .taskBlocked taskId
    atTime [])

end Runtime

/-! ### Leases (`leases.py`) -/

/-- The three states of a lease. -/
inductive LeaseState where
  | released
  | expired
  | active
  deriving DecidableEq, Repr

section Runtime

variable [PyRuntime]

/-- `lease_state`. -/
def leaseState (lease : Lease) (now : String) : LeaseState :=
  if lease.releasedAt.truthy then .released
  else if lease.expiresAt.truthy && decide (lease.expiresAt.pyStr < now) then .expired
  else .active

/-- `can_acquire`. -/
def canAcquire (existing : List Lease) (taskId now : String) : Bool :=
  !existing.any fun lease => lease.taskId == taskId && leaseState lease now == .active

end Runtime

/-! ### Idempotency (`saga.py`) -/

/-- `f"{task_id}-execute"`. -/
def executeKey (taskId : String) : String := taskId ++ "-execute"

lemma executeKey_inj {a b : String} : executeKey a = executeKey b ↔ a = b := by
  constructor
  · intro h
    have h1 : a.toList ++ "-execute".toList = b.toList ++ "-execute".toList := by
      rw [← String.toList_append, ← String.toList_append]
      exact congrArg String.toList h
    exact String.toList_inj.mp (List.append_cancel_right h1)
  · rintro rfl
    rfl

/-- `already_committed`. -/
def alreadyCommitted (L : Ledger) (idempotencyKey : String) : Bool :=
  L.sagaJournal.any fun txn => txn.idempotencyKey == idempotencyKey && txn.status == .committed

/-- `backoff`. -/
def backoff (attempt : ℕ) (base : ℚ) : ℚ := base * 2 ^ (attempt - 1)

end IplanRunner
