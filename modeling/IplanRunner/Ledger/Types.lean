import IplanRunner.Foundation.Python

/-!
The data model of one execution ledger (`framework/execution`), as `orchestrator/loop.py` builds
it.

* `TaskEntry`, `Lease`, `Blocker`, `Txn`, `HistoryEntry`, `Event`: the records of its sections.
* `Ledger`: the sections themselves.  `metadata` and `audit_snapshots` are constants nothing reads
  and are left out.
* `Ledger.toDoc`: the document the validators and the receipt read.
-/

namespace IplanRunner

open Foundation

/-! ### Enumerations -/

/-- The states of a task (`STATE_MODEL.md`). -/
inductive TaskStatus where
  | pending
  | inProgress
  | completed
  | blocked
  deriving DecidableEq, Repr

/-- `ledger_control.run_state` (`CONTROL_MODEL.md`). -/
inductive RunState where
  | running
  | completed
  | paused
  | aborted
  deriving DecidableEq, Repr

/-- `ledger_control.status`. -/
inductive ControlStatus where
  | inProgress
  | completed
  | blocked
  deriving DecidableEq, Repr

/-- `acceptance.result`. -/
inductive AcceptanceResult where
  | none
  | pass
  deriving DecidableEq, Repr

/-- The status of a saga transaction. -/
inductive TxnStatus where
  | pending
  | committed
  | compensated
  deriving DecidableEq, Repr

/-- The kinds of an execution-log event; an agent may record a kind of its own. -/
inductive EventKind where
  | taskStarted
  | fileEdited
  | taskCompleted
  | taskBlocked
  | compensation
  | resolution
  | commit
  | other (kind : Val)
  deriving DecidableEq

/-- `status` as the document spells it. -/
def TaskStatus.text : TaskStatus → String
  | .pending => "pending"
  | .inProgress => "in_progress"
  | .completed => "completed"
  | .blocked => "blocked"

/-- `run_state` as the document spells it. -/
def RunState.text : RunState → String
  | .running => "running"
  | .completed => "completed"
  | .paused => "paused"
  | .aborted => "aborted"

/-- `ledger_control.status` as the document spells it. -/
def ControlStatus.text : ControlStatus → String
  | .inProgress => "in_progress"
  | .completed => "completed"
  | .blocked => "blocked"

/-- `acceptance.result` as the document spells it. -/
def AcceptanceResult.text : AcceptanceResult → String
  | .none => "none"
  | .pass => "pass"

/-- `event_type`. -/
def EventKind.toVal : EventKind → Val
  | .taskStarted => .str "task_started"
  | .fileEdited => .str "file_edited"
  | .taskCompleted => .str "task_completed"
  | .taskBlocked => .str "task_blocked"
  | .compensation => .str "compensation"
  | .resolution => .str "resolution"
  | .commit => .str "commit"
  | .other kind => kind

/-- The kind an `event_type` spells. -/
def EventKind.ofVal (v : Val) : EventKind :=
  if v = .str "task_started" then .taskStarted
  else if v = .str "file_edited" then .fileEdited
  else if v = .str "task_completed" then .taskCompleted
  else if v = .str "task_blocked" then .taskBlocked
  else if v = .str "compensation" then .compensation
  else if v = .str "resolution" then .resolution
  else if v = .str "commit" then .commit
  else .other v

@[simp] lemma EventKind.ofVal_toVal (v : Val) : (EventKind.ofVal v).toVal = v := by
  rw [EventKind.ofVal]
  split_ifs with h1 h2 h3 h4 h5 h6 h7
  · exact h1.symm
  · exact h2.symm
  · exact h3.symm
  · exact h4.symm
  · exact h5.symm
  · exact h6.symm
  · exact h7.symm
  · rfl

/-! ### The records -/

/-- The `acceptance` member of a task entry. -/
structure Acceptance where
  criteria : Val
  result : AcceptanceResult
  deriving DecidableEq

/-- An entry of `task_ledger`. -/
structure TaskEntry where
  taskId : Val
  title : Val
  status : TaskStatus
  evidenceRefs : List String
  acceptance : Acceptance
  blockedReason : Option String
  decisionOwner : Option String
  deriving DecidableEq

/-- `entry["task_id"] == task_id`. -/
def TaskEntry.named (entry : TaskEntry) (taskId : String) : Bool := entry.taskId == .str taskId

/-- An entry of `agent_leases`; a lease read back from a file may carry any timestamps. -/
structure Lease where
  leaseId : String
  taskId : String
  agentId : String
  acquiredAt : Val
  expiresAt : Val
  releasedAt : Val
  deriving DecidableEq

/-- An entry of `blockers`. -/
structure Blocker where
  blockerId : String
  taskId : String
  description : String
  decisionOwner : String
  deriving DecidableEq, Repr

/-- `reconciliation`. -/
structure Reconciliation where
  allowed : Bool
  pendingTasks : ℕ
  openBlockers : ℕ
  deriving DecidableEq, Repr

/-- An entry of `saga_journal`; `attempts` is absent until the executor has answered. -/
structure Txn where
  txnId : String
  taskId : String
  action : String
  compensation : String
  idempotencyKey : String
  status : TxnStatus
  timeoutS : ℕ
  attempts : Option ℕ
  deriving DecidableEq, Repr

/-- An entry of `execution_history`. -/
structure HistoryEntry where
  atTime : String
  taskId : String
  fromStatus : TaskStatus
  toStatus : TaskStatus
  deriving DecidableEq, Repr

/-- An event before it is chained. -/
structure EventBody where
  kind : EventKind
  subjectId : Val
  atTime : Val
  touchedPaths : Val
  clientId : Val
  projectId : Val
  deriving DecidableEq

/-- The members of a logged event the program reads or writes. -/
def eventNames : List String :=
  ["event_type", "subject_id", "at", "touched_paths", "client_id", "project_id", "sequence",
    "previous_event_hash", "event_hash", "signature"]

/-- An event of `execution_log`: one read back from a file may carry any values in its chain fields
and further members.  A missing `previous_event_hash`, `client_id` or `project_id` reads as `None`,
missing `touched_paths` as the empty list. -/
structure Event extends EventBody where
  sequence : Val
  previousEventHash : Val
  eventHash : Val
  signature : Option Val
  others : Dict := []
  others_names : ∀ p ∈ others, p.1 ∉ eventNames := by simp
  deriving DecidableEq

/-- An entry of `resolutions`. -/
structure Resolution where
  blockerId : String
  decision : String
  actor : Val
  atTime : String
  deriving DecidableEq

/-- A landed commit. -/
structure Commit where
  sha : String
  message : String
  atTime : String
  touchedPaths : List Val
  deriving DecidableEq

/-- `vcs`, once the run has been landed. -/
structure Vcs where
  branch : String
  commits : List Commit
  deriving DecidableEq

/-- `ledger_control`. -/
structure LedgerControl where
  ledgerId : String
  sourceIplan : Val
  sourceIplanVersion : Val
  sourceIplanChecksum : Val
  status : ControlStatus
  runState : RunState
  requiresLanding : Bool
  deriving DecidableEq

/-- An execution ledger. -/
structure Ledger where
  control : LedgerControl
  isolationScope : Dict
  taskLedger : List TaskEntry
  agentLeases : List Lease
  executionEvidence : List Dict
  blockers : List Blocker
  reconciliation : Reconciliation
  sagaJournal : List Txn
  executionHistory : List HistoryEntry
  executionLog : List Event
  resolutions : List Resolution
  vcs : Option Vcs
  deriving DecidableEq

/-! ### The document -/

/-- A string member that may be `null`. -/
def optStr : Option String → Val
  | none => .none
  | some s => .str s

/-- A list of strings. -/
def strList (ss : List String) : Val := .list (ss.map .str)

/-- A task entry as a document. -/
def TaskEntry.toVal (t : TaskEntry) : Val :=
  .dict
    [("task_id", t.taskId), ("title", t.title), ("status", .str t.status.text),
      ("evidence_refs", strList t.evidenceRefs),
      ("acceptance",
        .dict [("criteria", t.acceptance.criteria), ("result", .str t.acceptance.result.text)]),
      ("blocked_reason", optStr t.blockedReason), ("decision_owner", optStr t.decisionOwner)]

/-- A lease as a document. -/
def Lease.toVal (l : Lease) : Val :=
  .dict
    [("lease_id", .str l.leaseId), ("task_id", .str l.taskId), ("agent_id", .str l.agentId),
      ("acquired_at", l.acquiredAt), ("expires_at", l.expiresAt), ("released_at", l.releasedAt)]

/-- A blocker as a document. -/
def Blocker.toVal (b : Blocker) : Val :=
  .dict
    [("blocker_id", .str b.blockerId), ("task_id", .str b.taskId),
      ("description", .str b.description), ("decision_owner", .str b.decisionOwner)]

/-- An event as a document. -/
def Event.toVal (e : Event) : Val :=
  .dict <|
    [("event_type", e.kind.toVal), ("subject_id", e.subjectId), ("at", e.atTime),
      ("touched_paths", e.touchedPaths), ("client_id", e.clientId), ("project_id", e.projectId),
      ("sequence", e.sequence), ("previous_event_hash", e.previousEventHash),
      ("event_hash", e.eventHash)]
    ++ (match e.signature with
      | some s => [("signature", s)]
      | none => [])
    ++ e.others

section Event

variable (e : Event)

@[simp] lemma Event.get_sequence : e.toVal.get "sequence" = .ok e.sequence := rfl

@[simp] lemma Event.item_sequence : e.toVal.item "sequence" = .ok e.sequence := rfl

@[simp] lemma Event.get_previous :
    e.toVal.get "previous_event_hash" = .ok e.previousEventHash := rfl

@[simp] lemma Event.get_hash : e.toVal.get "event_hash" = .ok e.eventHash := rfl

@[simp] lemma Event.item_kind : e.toVal.item "event_type" = .ok e.kind.toVal := rfl

@[simp] lemma Event.item_subject : e.toVal.item "subject_id" = .ok e.subjectId := rfl

@[simp] lemma Event.item_at : e.toVal.item "at" = .ok e.atTime := rfl

@[simp] lemma Event.get_paths (d : Val) :
    e.toVal.get "touched_paths" d = .ok e.touchedPaths := rfl

@[simp] lemma Event.get_client : e.toVal.get "client_id" = .ok e.clientId := rfl

@[simp] lemma Event.get_project : e.toVal.get "project_id" = .ok e.projectId := rfl

end Event

/-- `ledger_control` as a document. -/
def LedgerControl.toVal (c : LedgerControl) : Val :=
  .dict <|
    [("ledger_id", .str c.ledgerId), ("source_iplan", c.sourceIplan),
      ("source_iplan_version", c.sourceIplanVersion),
      ("source_iplan_checksum", c.sourceIplanChecksum), ("status", .str c.status.text),
      ("run_state", .str c.runState.text)]
    ++ if c.requiresLanding then [("requires_landing", .bool true)] else []

/-- `reconciliation` as a document. -/
def Reconciliation.toVal (r : Reconciliation) : Val :=
  .dict
    [("allowed", .bool r.allowed), ("pending_tasks", .int r.pendingTasks),
      ("open_blockers", .int r.openBlockers)]

/-- `vcs` as a document. -/
def Vcs.toVal (v : Vcs) : Val :=
  .dict
    [("branch", .str v.branch),
      ("commits", .list (v.commits.map fun c => .dict
        [("sha", .str c.sha), ("message", .str c.message), ("at", .str c.atTime),
          ("touched_paths", .list c.touchedPaths)]))]

/-- The sections of a ledger the validators and the receipt read, as a document. -/
def Ledger.toDoc (L : Ledger) : Val :=
  .dict <|
    [("ledger_control", L.control.toVal), ("isolation_scope", .dict L.isolationScope),
      ("task_ledger", .list (L.taskLedger.map TaskEntry.toVal)),
      ("agent_leases", .list (L.agentLeases.map Lease.toVal)),
      ("execution_evidence", .list (L.executionEvidence.map .dict)),
      ("blockers", .list (L.blockers.map Blocker.toVal)),
      ("reconciliation", L.reconciliation.toVal),
      ("execution_log", .list (L.executionLog.map Event.toVal))]
    ++ match L.vcs with
      | some v => [("vcs", v.toVal)]
      | none => []

end IplanRunner
