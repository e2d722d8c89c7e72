import Mathlib.Tactic.Common

/-!
Findings and severities of the validators (`validation/_base.py`).

* `RuleId`: the rule catalogue, with `RuleId.text` and `RuleId.severity` (the map `SEVERITY`).
* `finding`, `statusOf`: the two functions of the module.
-/

namespace IplanRunner

/-- The rule catalogue (`framework/conformance/rule-ids.yaml`). -/
inductive RuleId where
  | ledgerSourceVersionMissing
  | ledgerEvidenceRequired
  | ledgerAcceptanceWeak
  | ledgerBlockedWithoutOwner
  | ledgerLeaseOverlap
  | ledgerReconcileInconsistent
  | isolationScopeMissing
  | isolationPathOutsideRoots
  | isolationEventScopeMismatch
  | hashchainBroken
  | ledgerNotCommitted
  | chainOrderInvalid
  | chainUpstreamUnreconciled
  | chainLeaseOverlap
  | auditIdentityMismatch
  | auditVersionMissing
  | auditVersionInconsistent
  | monSourceBindingMissing
  | monSloMissingTarget
  | monSignalRefUnresolved
  | monProbeMissing
  | intakeSchemaUnsupported
  | intakeSourceMissing
  | intakeApprovalInsufficient
  | intakeScopeMissing
  | intakeNoTasks
  | intakeTaskFieldsMissing
  | intakeDepUnresolved
  | handoverSourceMissing
  | handoverStatusInvalid
  | handoverGateNotPassed
  | handoverNotReconciled
  | remotePayloadIdsMissing
  | remotePayloadNoTodos
  | remotePayloadContextMissing
  | remotePayloadExecutorIdFormat
  | remotePayloadRepositoryShape
  | remotePayloadRepositoryUrlScheme
  | remotePayloadRepositoryRef
  deriving DecidableEq, Repr

/-- The rule as the documents spell it. -/
def RuleId.text : RuleId → String
  | .ledgerSourceVersionMissing => "LEDGER.SOURCE_VERSION_MISSING"
  | .ledgerEvidenceRequired => "LEDGER.EVIDENCE_REQUIRED"
  | .ledgerAcceptanceWeak => "LEDGER.ACCEPTANCE_WEAK"
  | .ledgerBlockedWithoutOwner => "LEDGER.BLOCKED_WITHOUT_OWNER"
  | .ledgerLeaseOverlap => "LEDGER.LEASE_OVERLAP"
  | .ledgerReconcileInconsistent => "LEDGER.RECONCILE_INCONSISTENT"
  | .isolationScopeMissing => "ISOLATION.SCOPE_MISSING"
  | .isolationPathOutsideRoots => "ISOLATION.PATH_OUTSIDE_ROOTS"
  | .isolationEventScopeMismatch => "ISOLATION.EVENT_SCOPE_MISMATCH"
  | .hashchainBroken => "HASHCHAIN.BROKEN"
  | .ledgerNotCommitted => "LEDGER.NOT_COMMITTED"
  | .chainOrderInvalid => "CHAIN.ORDER_INVALID"
  | .chainUpstreamUnreconciled => "CHAIN.UPSTREAM_UNRECONCILED"
  | .chainLeaseOverlap => "CHAIN.LEASE_OVERLAP"
  | .auditIdentityMismatch => "AUDIT.IDENTITY_MISMATCH"
  | .auditVersionMissing => "AUDIT.VERSION_MISSING"
  | .auditVersionInconsistent => "AUDIT.VERSION_INCONSISTENT"
  | .monSourceBindingMissing => "MON.SOURCE_BINDING_MISSING"
  | .monSloMissingTarget => "MON.SLO_MISSING_TARGET"
  | .monSignalRefUnresolved => "MON.SIGNAL_REF_UNRESOLVED"
  | .monProbeMissing => "MON.PROBE_MISSING"
  | .intakeSchemaUnsupported => "INTAKE.SCHEMA_UNSUPPORTED"
  | .intakeSourceMissing => "INTAKE.SOURCE_MISSING"
  | .intakeApprovalInsufficient => "INTAKE.APPROVAL_INSUFFICIENT"
  | .intakeScopeMissing => "INTAKE.SCOPE_MISSING"
  | .intakeNoTasks => "INTAKE.NO_TASKS"
  | .intakeTaskFieldsMissing => "INTAKE.TASK_FIELDS_MISSING"
  | .intakeDepUnresolved => "INTAKE.DEP_UNRESOLVED"
  | .handoverSourceMissing => "HANDOVER.SOURCE_MISSING"
  | .handoverStatusInvalid => "HANDOVER.STATUS_INVALID"
  | .handoverGateNotPassed => "HANDOVER.GATE_NOT_PASSED"
  | .handoverNotReconciled => "HANDOVER.NOT_RECONCILED"
  | .remotePayloadIdsMissing => "REMOTE.PAYLOAD_IDS_MISSING"
  | .remotePayloadNoTodos => "REMOTE.PAYLOAD_NO_TODOS"
  | .remotePayloadContextMissing => "REMOTE.PAYLOAD_CONTEXT_MISSING"
  | .remotePayloadExecutorIdFormat => "REMOTE.PAYLOAD_EXECUTOR_ID_FORMAT"
  | .remotePayloadRepositoryShape => "REMOTE.PAYLOAD_REPOSITORY_SHAPE"
  | .remotePayloadRepositoryUrlScheme => "REMOTE.PAYLOAD_REPOSITORY_URL_SCHEME"
  | .remotePayloadRepositoryRef => "REMOTE.PAYLOAD_REPOSITORY_REF"

/-- The severity of a finding. -/
inductive Severity where
  | warning
  | error
  deriving DecidableEq, Repr

/-- `SEVERITY`: every rule is an error but the missing probe. -/
def RuleId.severity : RuleId → Severity
  | .monProbeMissing => .warning
  | _ => .error

/-- A finding of a validator. -/
structure Finding where
  ruleId : RuleId
  severity : Severity
  message : String
  deriving DecidableEq, Repr

/-- `finding`. -/
def finding (ruleId : RuleId) (message : String) : Finding := ⟨ruleId, ruleId.severity, message⟩

@[simp] lemma finding_ruleId (r : RuleId) (m : String) : (finding r m).ruleId = r := rfl

@[simp] lemma finding_severity (r : RuleId) (m : String) :
    (finding r m).severity = r.severity := rfl

/-- The verdict on a document. -/
inductive DocStatus where
  | pass
  | warn
  | fail
  deriving DecidableEq, Repr

/-- `status_of`. -/
def statusOf (findings : List Finding) : DocStatus :=
  if findings.any (·.severity == .error) then .fail
  else if findings.any (·.severity == .warning) then .warn
  else .pass

lemma statusOf_ne_fail_iff (fs : List Finding) :
    statusOf fs ≠ .fail ↔ ∀ f ∈ fs, f.severity ≠ .error := by
  rw [statusOf]
  by_cases h : fs.any (·.severity == .error) = true
  · rw [if_pos h]
    simpa using h
  · rw [if_neg h]
    constructor
    · intro _ f hf he
      exact h (List.any_eq_true.mpr ⟨f, hf, by simp [he]⟩)
    · intro _
      split_ifs <;> simp

section Errorless

variable {c : Prop} [Decidable c] {r : RuleId} {message : String}

/-- An error found under a condition is not found exactly when the condition fails. -/
lemma errorless_iff_not (hr : r.severity = .error) :
    (∀ f ∈ (if c then [finding r message] else []), f.severity ≠ .error) ↔ ¬ c := by
  by_cases h : c <;> simp [h, hr]

/-- An error found unless a condition holds is not found exactly when it holds. -/
lemma errorless_iff (hr : r.severity = .error) :
    (∀ f ∈ (if c then [] else [finding r message]), f.severity ≠ .error) ↔ c := by
  by_cases h : c <;> simp [h, hr]

end Errorless

end IplanRunner
