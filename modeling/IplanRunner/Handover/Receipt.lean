import IplanRunner.Gates.Runner

/-!
The handover receipt (`handover/receipt.py`), over an arbitrary ledger document.

* `Receipt`, `buildHandoverReceipt`: the receipt and its builder; its constant `metadata` is left
  out.
* `hasOpen`, `reconciled`: the two facts about the ledger the status rests on.
-/

namespace IplanRunner

open Foundation

/-- `result.status`. -/
inductive ReceiptStatus where
  | completed
  | aborted
  deriving DecidableEq, Repr

/-- The last commit the receipt names. -/
structure CommitRef where
  sha : Val
  branch : Val
  deriving DecidableEq

/-- An `iplan-handover-receipt`. -/
structure Receipt where
  receiptId : String
  sourceIplan : Val
  sourceIplanVersion : Val
  ledgerRef : Val
  gateStatus : GateStatus
  auditReportRef : Val
  commit : Option CommitRef
  createdAt : String
  status : ReceiptStatus
  reconciled : Bool
  deriving DecidableEq

variable [PyRuntime]

/-- `has_open`: some task is pending or in progress. -/
def hasOpen (tasks : List Val) : Except PyErr Bool :=
  anyE (fun t => do
    if ← statusIs t "pending" then return true
    statusIs t "in_progress") tasks

/-- `bool(ledger.get("reconciliation", {}).get("allowed"))`. -/
def reconciled (ledger : Val) : Except PyErr Bool := do
  return (← (← docDict ledger "reconciliation").get "allowed").truthy

/-- `{"sha": commits[-1]["sha"], "branch": ...} if commits else None`. -/
def lastCommit (ledger : Val) : Except PyErr (Option CommitRef) := do
  let vcs ← docDict ledger "vcs"
  let commits ← vcs.get "commits" (.list [])
  if !commits.truthy then return none
  match (← commits.iter).getLast? with
  | some c => return some ⟨← c.item "sha", ← vcs.get "branch"⟩
  | none => return none

/-- `build_handover_receipt`. -/
def buildHandoverReceipt (ledger : Val) (gateResult : GateResult) (auditReport : Option Val)
    (clock : String) : Except PyErr Receipt := do
  let control ← docDict ledger "ledger_control"
  let ledgerRef ← control.get "ledger_id"
  let tasks ← docList ledger "task_ledger"
  let hasOpen ← hasOpen tasks
  let reconciled ← reconciled ledger
  let gatePassed : Bool := gateResult.status = .passed
  let status : ReceiptStatus :=
    if gatePassed && reconciled && !hasOpen then .completed else .aborted
  let commit ← lastCommit ledger
  let audit := match auditReport with
    | some report => report.orElse (.dict [])
    | none => .dict []
  return {
    receiptId := s!"RECEIPT-{ledgerRef.pyStr}"
    sourceIplan := ← control.get "source_iplan"
    sourceIplanVersion := ← control.get "source_iplan_version"
    ledgerRef := ledgerRef
    gateStatus := if gatePassed then .passed else .failed
    auditReportRef := ← (← audit.get "audit_control" (.dict [])).get "report_id"
    commit := commit
    createdAt := clock
    status := status
    reconciled := reconciled }

/-- A receipt says completed when the gate passed, the document is reconciled and no task is
open. -/
lemma receipt_status {doc : Val} {g : GateResult} {audit : Option Val} {clock : String}
    {r : Receipt} (hr : buildHandoverReceipt doc g audit clock = .ok r) :
    r.status = .completed ↔ g.status = .passed ∧ reconciled doc = .ok true
      ∧ ∃ tasks, docList doc "task_ledger" = .ok tasks ∧ hasOpen tasks = .ok false := by
  unfold buildHandoverReceipt at hr
  simp only [except_bind_eq_ok] at hr
  obtain ⟨_, -, _, -, tasks, htasks, opened, hopen, rec, hrec, _, -, _, -, _, -, _, -, _, -, hr⟩ :=
    hr
  obtain rfl := Except.ok.inj hr
  rw [hrec, htasks]
  cases opened <;> cases rec <;> simp [hopen]

end IplanRunner
