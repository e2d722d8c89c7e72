import IplanRunner.Orchestrator.State

/-!
What an agent records in a ledger itself (`record_transaction` and `record_touched_file` in
`engine.py`).

* `Txn.ofDict`: an agent's transaction as the program reads it back.
* `transactionEvent`, `touchedFileEvent`: the events, every member being the agent's own value.
-/

namespace IplanRunner

open Foundation

/-- A string member, or `""`. -/
def strMember (d : Dict) (key : String) : String :=
  match Dict.get d key with
  | .str s => s
  | _ => ""

/-- An agent's transaction in the journal.  `already_committed` compares the key with a nonempty
text and the status with `"committed"`; nothing reads the rest. -/
def Txn.ofDict (txn : Dict) : Txn where
  txnId := strMember txn "txn_id"
  taskId := strMember txn "task_id"
  action := strMember txn "action"
  compensation := strMember txn "compensation"
  idempotencyKey := strMember txn "idempotency_key"
  status := if Dict.get txn "status" = .str "committed" then .committed else .pending
  timeoutS := 0
  attempts := none

/-- The event of `record_transaction`. -/
def transactionEvent (scope txn : Dict) : EventBody where
  kind := EventKind.ofVal ((txn.lookup "action").getD (.str "transaction"))
  subjectId := Dict.get txn "task_id"
  atTime := (txn.lookup "at").getD (.str "")
  touchedPaths := (txn.lookup "touched_paths").getD (.list [])
  clientId := Dict.get scope "client_id"
  projectId := Dict.get scope "project_id"

/-- The event of `record_touched_file`. -/
def touchedFileEvent (scope : Dict) (taskId path atTime : Val) : EventBody where
  kind := .fileEdited
  subjectId := taskId
  atTime := atTime
  touchedPaths := .list [path]
  clientId := Dict.get scope "client_id"
  projectId := Dict.get scope "project_id"

variable [PyRuntime]

/-- `record_transaction`. -/
@[simps] def recordTransaction (L : Ledger) (txn : Dict) : Ledger :=
  { L with
    sagaJournal := L.sagaJournal ++ [Txn.ofDict txn]
    executionLog := appendEvent L.executionLog (transactionEvent L.isolationScope txn) }

/-- `record_touched_file`. -/
@[simps] def recordTouchedFile (L : Ledger) (taskId path atTime : Val) : Ledger :=
  { L with
    executionLog :=
      appendEvent L.executionLog (touchedFileEvent L.isolationScope taskId path atTime) }

end IplanRunner
