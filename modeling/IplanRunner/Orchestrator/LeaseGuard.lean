import IplanRunner.Foundation.Runtime
import IplanRunner.Orchestrator.State
import IplanRunner.Validation.Overlaps

/-!
The guard of the run loop and the overlap rule of the validator.

* `withLeases`: a document whose `agent_leases` are the given ones; `validateLedger_withLeases` says
  that the validator reads them in one place only.
* `apart_of_canAcquire`: a lease that starts now overlaps no lease the guard does not count as
  active.
* `lease_guard_refines`: what the guard admits adds no finding.
-/

namespace IplanRunner

open Foundation

section Runtime

variable [PyRuntime]

/-! ### Documents with leases -/

/-- The members of a lease. -/
def Lease.toDict (l : Lease) : Dict :=
  [("lease_id", .str l.leaseId), ("task_id", .str l.taskId), ("agent_id", .str l.agentId),
    ("acquired_at", l.acquiredAt), ("expires_at", l.expiresAt), ("released_at", l.releasedAt)]

omit [PyRuntime] in
lemma map_toVal_leases (leases : List Lease) :
    leases.map Lease.toVal = (leases.map Lease.toDict).map .dict := by
  rw [List.map_map]
  rfl

/-- A document with these leases. -/
def withLeases (doc : Dict) (leases : List Lease) : Val :=
  .dict (Dict.set doc "agent_leases" (.list (leases.map Lease.toVal)))

omit [PyRuntime] in
lemma get_withLeases (doc : Dict) (leases : List Lease) {key : String} (default : Val)
    (h : key ≠ "agent_leases") :
    (withLeases doc leases).get key default = (Val.dict doc).get key default := by
  rw [withLeases, Val.get, Val.get, Dict.lookup_set_of_ne doc h]

omit [PyRuntime] in
lemma docList_withLeases (doc : Dict) (leases : List Lease) :
    docList (withLeases doc leases) "agent_leases" = .ok (leases.map Lease.toVal) := by
  rw [docList, withLeases, Val.get, Dict.lookup_set_self]
  rfl

/-- The findings depend on the leases only through those of the leases. -/
lemma validateLedger_withLeases (doc : Dict) {leases leases' : List Lease}
    (h : leaseFindings (leases.map Lease.toVal) = leaseFindings (leases'.map Lease.toVal)) :
    validateLedger (withLeases doc leases) = validateLedger (withLeases doc leases') := by
  have hdict : ∀ ls key, key ≠ "agent_leases" →
      docDict (withLeases doc ls) key = docDict (.dict doc) key :=
    fun ls key hne => get_withLeases doc ls _ hne
  have hlist : ∀ ls key, key ≠ "agent_leases" →
      docList (withLeases doc ls) key = docList (.dict doc) key := by
    intro ls key hne
    rw [docList, docList, get_withLeases doc ls _ hne]
  have hlanding : ∀ ls control,
      landingFindings (withLeases doc ls) control = landingFindings (.dict doc) control := by
    intro ls control
    rw [landingFindings, landingFindings, get_withLeases doc ls _ (by decide)]
  rw [validateLedger, validateLedger]
  simp only [hdict _ "ledger_control" (by decide), hdict _ "isolation_scope" (by decide),
    hdict _ "reconciliation" (by decide), hlist _ "task_ledger" (by decide),
    hlist _ "blockers" (by decide), hlist _ "execution_log" (by decide), hlanding,
    get_withLeases doc _ _ (show "execution_evidence" ≠ "agent_leases" by decide),
    docList_withLeases, ok_bind, h]

/-- The findings of the leases are among those of the document. -/
lemma leaseFindings_subset {doc : Dict} {leases : List Lease} {fs : List Finding}
    (h : validateLedger (withLeases doc leases) = .ok fs) :
    ∃ ls, leaseFindings (leases.map Lease.toVal) = .ok ls ∧ ls ⊆ fs := by
  obtain ⟨j, rfl⟩ := validateLedger_eq_ok_iff.mp h
  have hsame : leases.map Lease.toVal = j.leaseList :=
    Except.ok.inj ((docList_withLeases doc leases).symm.trans j.leaseList_eq)
  refine ⟨j.leases, by rw [hsame, j.leases_eq], fun f hf => ?_⟩
  simp [Judgement.findings, hf]

/-! ### The guard -/

/-- **A lease that starts now** overlaps no unreleased lease of its task, when none is active: such
a lease has ended before. -/
lemma apart_of_canAcquire {leases : List Lease} {taskId now : String}
    (hguard : canAcquire leases taskId now = true) {old lease : Lease} (hold : old ∈ leases)
    (hopen : old.releasedAt = .none) (htask : old.taskId = taskId)
    (hacquired : lease.acquiredAt = .str now) : ¬ WindowsOverlap old.toDict lease.toDict := by
  rintro ⟨-, hbefore⟩
  have hstart : now < old.expiresAt.pyStr := by
    rw [← show (Val.str now).pyStr = now from rfl, ← hacquired]
    exact hbefore
  rw [canAcquire, Bool.not_eq_true', List.any_eq_false] at hguard
  have hstate := hguard old hold
  rw [htask, beq_self_eq_true, Bool.true_and, beq_iff_eq, leaseState, hopen] at hstate
  by_cases hended : (old.expiresAt.truthy && decide (old.expiresAt.pyStr < now)) = true
  · rw [Bool.and_eq_true, decide_eq_true_eq] at hended
    exact String.lt_asymm hended.2 hstart
  · exact hstate (by rw [if_neg (by simp [Val.truthy]), if_neg hended])

/-- **The guard refines the overlap rule.**  When a lease of the task can be acquired now, the
validator finds with it what it has found without, if there was no overlap. -/
theorem lease_guard_refines {doc : Dict} {leases : List Lease} {taskId now : String}
    (hguard : canAcquire leases taskId now = true) {fs : List Finding}
    (hfs : validateLedger (withLeases doc leases) = .ok fs)
    (hno : ∀ f ∈ fs, f.ruleId ≠ .ledgerLeaseOverlap) (leaseId agentId : String) (expiresAt : Val) :
    validateLedger (withLeases doc
      (leases ++ [⟨leaseId, taskId, agentId, .str now, expiresAt, .none⟩])) = .ok fs := by
  obtain ⟨ls, hls, hsub⟩ := leaseFindings_subset hfs
  obtain rfl : ls = [] := by
    rw [List.eq_nil_iff_forall_not_mem]
    intro f hf
    rw [leaseFindings_eq] at hls
    obtain ⟨k, rfl⟩ := mem_overlapsBy hls f hf
    exact hno _ (hsub hf) rfl
  let lease : Lease := ⟨leaseId, taskId, agentId, .str now, expiresAt, .none⟩
  have hmore : leaseFindings ((leases ++ [lease]).map Lease.toVal) = .ok [] := by
    rw [leaseFindings_eq, map_toVal_leases, overlapsBy_eq_nil_iff, LeasesApart] at hls ⊢
    rw [List.map_append, List.pairwise_append]
    refine ⟨hls, List.pairwise_singleton _ _, fun a ha b hb => ?_⟩
    obtain ⟨old, hold, rfl⟩ := List.mem_map.mp ha
    obtain rfl := List.mem_singleton.mp hb
    intro hunreleased _ hkey
    exact apart_of_canAcquire hguard hold hunreleased hkey rfl
  rw [validateLedger_withLeases doc (hmore.trans hls.symm), hfs]

end Runtime

section Example

attribute [local instance] cpython

/-- The lease of `T1` has expired without being released, the next one has no end. -/
theorem lease_guard_refines_expired :
    validateLedger (withLeases []
        ([⟨"L1", "T1", "a1", .str "2026-06-26T00:00:00Z", .str "2026-06-26T01:00:00Z", .none⟩]
          ++ [⟨"L2", "T1", "a2", .str "2026-06-26T02:00:00Z", .none, .none⟩]))
      = .ok [finding .ledgerSourceVersionMissing
          "ledger_control is missing source IPLAN id/version/checksum",
        finding .isolationScopeMissing
          "isolation_scope is missing client_id/project_id/allowed_roots"] :=
  lease_guard_refines (by decide +kernel) (eq_ok_of_toOption (by decide +kernel)) (by decide)
    "L2" "a2" .none

end Example

end IplanRunner
