import IplanRunner.Foundation.Calls
import IplanRunner.Ledger.Store
import IplanRunner.Validation.Base

/-!
Execution-ledger validation (`validation/ledger_rules.py`, `ledger/isolation.py`), over an arbitrary
document.

* `inScope`, `eventInScope`: the isolation helpers.
* `taskFindings`, `blockerFindings`, `leaseFindings`, `reconciliationFindings`, `logFindings`,
  `chainFindings`, `landingFindings`: the sections of `validate_ledger`, in its order.
* `validateLedger`: the validator; `Judgement`: what its sections have read and found, when it
  returns.
-/

namespace IplanRunner

open Foundation

variable [PyRuntime]

/-! ### Isolation (`ledger/isolation.py`) -/

/-- `path.startswith(root)`. -/
def startsWith (path root : String) : Bool := root.toList.isPrefixOf path.toList

/-- `in_scope`: the roots come from a document, one that is no string raises. -/
def inScope (path : String) (allowedRoots : List Val) : Except PyErr Bool :=
  anyE (fun root => match root with
    | .str r => .ok (startsWith path r)
    | _ => .error .typeError) allowedRoots

/-- `event_in_scope`. -/
def eventInScope (event clientId projectId : Val) : Except PyErr Bool := do
  if !(← event.get "client_id").pyEq clientId then return false
  return (← event.get "project_id").pyEq projectId

/-! ### The sections of `validate_ledger` -/

/-- Whether three members of a document are all truthy, read left to right. -/
def allPresent (d : Val) (a b c : String) : Except PyErr Bool := do
  if !(← d.get a).truthy then return false
  if !(← d.get b).truthy then return false
  return (← d.get c).truthy

/-- `LEDGER.SOURCE_VERSION_MISSING`. -/
def sourceFindings (control : Val) : Except PyErr (List Finding) := do
  if ← allPresent control "source_iplan" "source_iplan_version" "source_iplan_checksum" then
    return []
  return [finding .ledgerSourceVersionMissing
    "ledger_control is missing source IPLAN id/version/checksum"]

/-- `scope_ok`. -/
def scopeOk (scope : Val) : Except PyErr Bool :=
  allPresent scope "client_id" "project_id" "allowed_roots"

/-- `has_evidence`. -/
def hasEvidence (evidence task : Val) : Except PyErr Bool := do
  if (← task.get "evidence_refs").truthy then return true
  anyE (fun ev => do return (← ev.get "task_id").pyEq (← task.get "task_id")) (← evidence.iter)

/-- `(task.get("acceptance") or {}).get("result") == "pass"`. -/
def acceptancePass (task : Val) : Except PyErr Bool := do
  return (← ((← task.get "acceptance").orElse (.dict [])).get "result").pyEq (.str "pass")

/-- `task.get("status") == status`. -/
def statusIs (task : Val) (status : String) : Except PyErr Bool := do
  return (← task.get "status").pyEq (.str status)

/-- `LEDGER.EVIDENCE_REQUIRED` and `LEDGER.ACCEPTANCE_WEAK`, for a completed task. -/
def completedFindings (evidence task : Val) : Except PyErr (List Finding) := do
  let taskId ← task.get "task_id"
  let ok ← hasEvidence evidence task
  let missing := if ok then [] else
    [finding .ledgerEvidenceRequired s!"completed task {taskId.pyStr} has no evidence"]
  let pass ← acceptancePass task
  let weak := if pass then [] else
    [finding .ledgerAcceptanceWeak s!"completed task {taskId.pyStr} acceptance is not pass"]
  return missing ++ weak

/-- `LEDGER.BLOCKED_WITHOUT_OWNER`, for a blocked task. -/
def blockedFindings (task : Val) : Except PyErr (List Finding) := do
  if (← task.get "decision_owner").truthy then return []
  let taskId ← task.get "task_id"
  return [finding .ledgerBlockedWithoutOwner s!"blocked task {taskId.pyStr} has no decision_owner"]

/-- `if task.get("status") == status`: the findings of the branch. -/
def ifStatus (task : Val) (status : String) (branch : Except PyErr (List Finding)) :
    Except PyErr (List Finding) := do
  if ← statusIs task status then branch else return []

/-- The pass of the loop over `task_ledger`. -/
def taskFindings (evidence task : Val) : Except PyErr (List Finding) := do
  let done ← ifStatus task "completed" (completedFindings evidence task)
  let stuck ← ifStatus task "blocked" (blockedFindings task)
  return done ++ stuck

/-- The pass of the loop over `blockers`. -/
def blockerFindings (blocker : Val) : Except PyErr (List Finding) := do
  if (← blocker.get "decision_owner").truthy then return []
  let blockerId ← blocker.get "blocker_id"
  return [finding .ledgerBlockedWithoutOwner s!"blocker {blockerId.pyStr} has no decision_owner"]

/-- `_leases_overlap`: the bounds are compared as text, `None` included. -/
def leasesOverlap (a b : Val) : Except PyErr Bool := do
  if !(decide ((← a.get "acquired_at").pyStr < (← b.get "expires_at").pyStr)) then return false
  return decide ((← b.get "acquired_at").pyStr < (← a.get "expires_at").pyStr)

/-- Some two leases of the list overlap. -/
def anyOverlap : List Val → Except PyErr Bool
  | [] => .ok false
  | a :: rest => do if ← anyE (leasesOverlap a) rest then return true else anyOverlap rest

/-- The unreleased leases, each with the task it is filed under. -/
def unreleased (leases : List Val) : Except PyErr (List (String × Val)) :=
  collect (fun lease => do
    if (← lease.get "released_at") == .none then
      return [((← lease.get "task_id").pyStr, lease)]
    else return []) leases

/-- `LEDGER.LEASE_OVERLAP`, once for each task with two overlapping leases. -/
def leaseFindings (leases : List Val) : Except PyErr (List Finding) := do
  let filed ← unreleased leases
  collect (fun taskId => do
    if ← anyOverlap ((filed.filter fun p => p.1 == taskId).map Prod.snd) then
      return [finding .ledgerLeaseOverlap s!"task {taskId} has overlapping unreleased leases"]
    else return []) (filed.map Prod.fst).eraseDups

/-- `int(reconciliation.get(key, 0) or 0) > 0`. -/
def positiveCount (reconciliation : Val) (key : String) : Except PyErr Bool := do
  return decide (0 < (← ((← reconciliation.get key (.int 0)).orElse (.int 0)).pyInt))

/-- Some stated count is positive. -/
def somethingRemains (reconciliation : Val) : Except PyErr Bool := do
  if ← positiveCount reconciliation "pending_tasks" then return true
  positiveCount reconciliation "open_blockers"

/-- `LEDGER.RECONCILE_INCONSISTENT`: the counts are the ones the document states itself. -/
def reconciliationFindings (reconciliation : Val) : Except PyErr (List Finding) := do
  if !(← reconciliation.get "allowed").truthy then return []
  if ← somethingRemains reconciliation then
    return [finding .ledgerReconcileInconsistent
      "reconciliation allowed while tasks/blockers remain"]
  return []

/-- Whether an event touches a path outside the roots. -/
def touchesOutside (roots event : Val) : Except PyErr Bool := do
  let outside ← collect (fun path => do
    if ← inScope path.pyStr (← roots.iter) then return [] else return [()])
    (← (← event.get "touched_paths" (.list [])).iter)
  return !outside.isEmpty

/-- `ISOLATION.PATH_OUTSIDE_ROOTS` and `ISOLATION.EVENT_SCOPE_MISMATCH`. -/
def logFindings (scope : Val) (log : List Val) : Except PyErr (List Finding) := do
  let roots ← scope.item "allowed_roots"
  let clientId ← scope.item "client_id"
  let projectId ← scope.item "project_id"
  let seen ← collect (fun event => do
    let violation ← touchesOutside roots event
    let inside ← eventInScope event clientId projectId
    return [(violation, !inside)]) log
  let path := if seen.any Prod.fst then [finding .isolationPathOutsideRoots
    "an event touched a path outside allowed_roots"] else []
  let mismatch := if seen.any Prod.snd then [finding .isolationEventScopeMismatch
    "an event client_id/project_id differs from the ledger scope"] else []
  return path ++ mismatch

/-- The rules about the log, skipped when the scope is incomplete. -/
def isolationFindings (scopeOk : Bool) (scope : Val) (log : List Val) :
    Except PyErr (List Finding) :=
  if scopeOk then logFindings scope log else .ok []

/-- `HASHCHAIN.BROKEN`. -/
def chainFindings (log : List Val) : Except PyErr (List Finding) := do
  if ← verifyChain log then return []
  return [finding .hashchainBroken "execution_log hash chain is inconsistent"]

/-- `LEDGER.NOT_COMMITTED`. -/
def landingFindings (document control : Val) : Except PyErr (List Finding) := do
  if !(← control.get "requires_landing").truthy then return []
  if (← (← document.get "vcs" (.dict [])).get "commits").truthy then return []
  return [finding .ledgerNotCommitted "requires_landing but no vcs commit recorded"]

/-- `for x in document.get(key, [])`. -/
def docList (document : Val) (key : String) : Except PyErr (List Val) := do
  (← document.get key (.list [])).iter

/-- `document.get(key, {})`. -/
def docDict (document : Val) (key : String) : Except PyErr Val := document.get key (.dict [])

/-- `validate_ledger`. -/
def validateLedger (document : Val) : Except PyErr (List Finding) := do
  let control ← docDict document "ledger_control"
  let source ← sourceFindings control
  let scope ← docDict document "isolation_scope"
  let ok ← scopeOk scope
  let missing := if ok then [] else [finding .isolationScopeMissing
    "isolation_scope is missing client_id/project_id/allowed_roots"]
  let evidence ← document.get "execution_evidence" (.list [])
  let tasks ← collect (taskFindings evidence) (← docList document "task_ledger")
  let blockers ← collect blockerFindings (← docList document "blockers")
  let leases ← leaseFindings (← docList document "agent_leases")
  let reconciliation ← reconciliationFindings (← docDict document "reconciliation")
  let log ← docList document "execution_log"
  let isolation ← isolationFindings ok scope log
  let chain ← chainFindings log
  let landing ← landingFindings document control
  return source ++ missing ++ tasks ++ blockers ++ leases ++ reconciliation ++ isolation ++ chain
    ++ landing

/-- What the sections of the validator have read of a document, and found. -/
structure Judgement (document : Val) where
  control : Val
  scope : Val
  ok : Bool
  evidence : Val
  taskList : List Val
  blockerList : List Val
  leaseList : List Val
  reconciliationDict : Val
  log : List Val
  source : List Finding
  tasks : List Finding
  blockers : List Finding
  leases : List Finding
  reconciliation : List Finding
  isolation : List Finding
  chain : List Finding
  landing : List Finding
  control_eq : docDict document "ledger_control" = .ok control
  source_eq : sourceFindings control = .ok source
  scope_eq : docDict document "isolation_scope" = .ok scope
  ok_eq : scopeOk scope = .ok ok
  evidence_eq : document.get "execution_evidence" (.list []) = .ok evidence
  taskList_eq : docList document "task_ledger" = .ok taskList
  tasks_eq : collect (taskFindings evidence) taskList = .ok tasks
  blockerList_eq : docList document "blockers" = .ok blockerList
  blockers_eq : collect blockerFindings blockerList = .ok blockers
  leaseList_eq : docList document "agent_leases" = .ok leaseList
  leases_eq : leaseFindings leaseList = .ok leases
  reconciliationDict_eq : docDict document "reconciliation" = .ok reconciliationDict
  reconciliation_eq : reconciliationFindings reconciliationDict = .ok reconciliation
  log_eq : docList document "execution_log" = .ok log
  isolation_eq : isolationFindings ok scope log = .ok isolation
  chain_eq : chainFindings log = .ok chain
  landing_eq : landingFindings document control = .ok landing

/-- `ISOLATION.SCOPE_MISSING`. -/
def Judgement.missing {document : Val} (j : Judgement document) : List Finding :=
  if j.ok then [] else [finding .isolationScopeMissing
    "isolation_scope is missing client_id/project_id/allowed_roots"]

/-- All that has been found. -/
def Judgement.findings {document : Val} (j : Judgement document) : List Finding :=
  j.source ++ j.missing ++ j.tasks ++ j.blockers ++ j.leases ++ j.reconciliation ++ j.isolation
    ++ j.chain ++ j.landing

/-- **The validator returns** what a judgement has found. -/
theorem validateLedger_eq_ok_iff {document : Val} {fs : List Finding} :
    validateLedger document = .ok fs ↔ ∃ j : Judgement document, j.findings = fs := by
  rw [validateLedger]
  simp only [except_bind_eq_ok]
  constructor
  · rintro ⟨control, hcontrol, source, hsource, scope, hscope, ok, hok, evidence, hevidence,
      taskList, htaskList, tasks, htasks, blockerList, hblockerList, blockers, hblockers, leaseList,
      hleaseList, leases, hleases, recDict, hrecDict, rec, hrec, log, hlog, isolation, hisolation,
      chain, hchain, landing, hlanding, hfs⟩
    exact ⟨⟨control, scope, ok, evidence, taskList, blockerList, leaseList, recDict, log, source,
      tasks, blockers, leases, rec, isolation, chain, landing, hcontrol, hsource, hscope, hok,
      hevidence, htaskList, htasks, hblockerList, hblockers, hleaseList, hleases, hrecDict, hrec,
      hlog, hisolation, hchain, hlanding⟩, Except.ok.inj hfs⟩
  · rintro ⟨j, rfl⟩
    exact ⟨j.control, j.control_eq, j.source, j.source_eq, j.scope, j.scope_eq, j.ok, j.ok_eq,
      j.evidence, j.evidence_eq, j.taskList, j.taskList_eq, j.tasks, j.tasks_eq, j.blockerList,
      j.blockerList_eq, j.blockers, j.blockers_eq, j.leaseList, j.leaseList_eq, j.leases,
      j.leases_eq, j.reconciliationDict, j.reconciliationDict_eq, j.reconciliation,
      j.reconciliation_eq, j.log, j.log_eq, j.isolation, j.isolation_eq, j.chain, j.chain_eq,
      j.landing, j.landing_eq, rfl⟩

end IplanRunner
