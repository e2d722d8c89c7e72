import IplanRunner.Foundation.Runtime
import IplanRunner.Gates.Verdict
import IplanRunner.Handover.Receipt

/-!
What a completed handover receipt proves about an arbitrary ledger document.

* `validateLedger_sections`: a validator that returned ran every section, and collected what the
  sections found.
* `AllDone`: every task is completed with evidence and acceptance, and no blocker is open.
* `SelfAttested`: the documents that pass the default gate, state themselves that they are
  reconciled and are not `AllDone`.
* `completionProven_iff`: these are exactly the documents whose receipt says too much.
-/

namespace IplanRunner

open Foundation

section Runtime

variable [PyRuntime]

/-! ### What the validator has seen -/

/-- **A validator that returned** has judged every task and every blocker. -/
theorem validateLedger_sections {doc : Val} {fs : List Finding}
    (h : validateLedger doc = .ok fs) :
    (∃ control, docDict doc "ledger_control" = .ok control ∧ Returns (sourceFindings control))
      ∧ ∃ evidence tasks tf blockers bf,
        doc.get "execution_evidence" (.list []) = .ok evidence
        ∧ docList doc "task_ledger" = .ok tasks
        ∧ collect (taskFindings evidence) tasks = .ok tf ∧ (∀ f ∈ tf, f ∈ fs)
        ∧ docList doc "blockers" = .ok blockers
        ∧ collect blockerFindings blockers = .ok bf := by
  obtain ⟨j, rfl⟩ := validateLedger_eq_ok_iff.mp h
  refine ⟨⟨j.control, j.control_eq, j.source, j.source_eq⟩, j.evidence, j.taskList, j.tasks,
    j.blockerList, j.blockers, j.evidence_eq, j.taskList_eq, j.tasks_eq, fun f hf => ?_,
    j.blockerList_eq, j.blockers_eq⟩
  simp [Judgement.findings, hf]

/-- A task without a finding of the two rules about completed tasks has its evidence and its
acceptance, when it is completed. -/
lemma taskFindings_clean {evidence t : Val} {zs : List Finding}
    (h : taskFindings evidence t = .ok zs)
    (hclean : ∀ f ∈ zs, f.ruleId ≠ .ledgerEvidenceRequired ∧ f.ruleId ≠ .ledgerAcceptanceWeak) :
    ∃ b, statusIs t "completed" = .ok b
      ∧ (b = true → hasEvidence evidence t = .ok true ∧ acceptancePass t = .ok true) := by
  rw [taskFindings] at h
  simp only [except_bind_eq_ok] at h
  obtain ⟨done, hdone, stuck, -, hzs⟩ := h
  obtain rfl := Except.ok.inj hzs
  rw [ifStatus, except_bind_eq_ok] at hdone
  obtain ⟨b, hb, hdone⟩ := hdone
  refine ⟨b, hb, fun hbt => ?_⟩
  rw [hbt, if_pos rfl, completedFindings] at hdone
  simp only [except_bind_eq_ok] at hdone
  obtain ⟨taskId, -, ok, hok, pass, hpass, hfs⟩ := hdone
  obtain rfl := Except.ok.inj hfs
  constructor
  · cases ok with
    | true => exact hok
    | false =>
        have hmem := hclean (finding .ledgerEvidenceRequired
          s!"completed task {taskId.pyStr} has no evidence") (by simp)
        exact absurd rfl hmem.1
  · cases pass with
    | true => exact hpass
    | false =>
        have hmem := hclean (finding .ledgerAcceptanceWeak
          s!"completed task {taskId.pyStr} acceptance is not pass") (by simp)
        exact absurd rfl hmem.2

/-! ### What a receipt may claim -/

/-- The tasks and the evidence of the document are readable, every task is completed, with evidence
and acceptance, and no blocker is open. -/
def AllDone (doc : Val) : Prop :=
  (∃ evidence tasks, doc.get "execution_evidence" (.list []) = .ok evidence
      ∧ docList doc "task_ledger" = .ok tasks
      ∧ ∀ t ∈ tasks, statusIs t "completed" = .ok true ∧ hasEvidence evidence t = .ok true
        ∧ acceptancePass t = .ok true)
    ∧ docList doc "blockers" = .ok []

/-- A receipt that says completed is right about the document. -/
def CompletionProven (doc : Val) (clock : String) : Prop :=
  ∀ g r, runGate doc defaultGate = .ok g → g.status = .passed →
    buildHandoverReceipt doc g none clock = .ok r → r.status = .completed → AllDone doc

/-- **A document that attests its own completion**: no rule of the default gate fires, it says
`reconciliation.allowed`, and no task is pending or in progress; but some task has another status
than completed, or a blocker is open. -/
structure SelfAttested (doc : Val) : Prop where
  clean : ∃ fs, validateLedger doc = .ok fs ∧ ∀ f ∈ fs, ¬ defaultGate.references f.ruleId
  allowed : reconciled doc = .ok true
  settled : ∃ tasks, docList doc "task_ledger" = .ok tasks ∧ hasOpen tasks = .ok false
  commits : Returns (lastCommit doc)
  unfinished : (∃ tasks, docList doc "task_ledger" = .ok tasks
      ∧ ∃ t ∈ tasks, statusIs t "completed" = .ok false)
    ∨ ∃ b bs, docList doc "blockers" = .ok (b :: bs)

/-- A receipt is built when the sections it reads are readable, and says completed exactly when the
gate passed, the document says so and no task is open. -/
lemma receipt_completed_iff (doc : Val) (g : GateResult) (clock : String) (hg : g.status = .passed)
    (hcontrol : ∃ kvs, docDict doc "ledger_control" = .ok (.dict kvs)) :
    (∃ r, buildHandoverReceipt doc g none clock = .ok r ∧ r.status = .completed)
      ↔ reconciled doc = .ok true
        ∧ (∃ tasks, docList doc "task_ledger" = .ok tasks ∧ hasOpen tasks = .ok false)
        ∧ Returns (lastCommit doc) := by
  obtain ⟨kvs, hkvs⟩ := hcontrol
  have haudit : ((Val.dict []).get "audit_control" (.dict []) : Except PyErr Val)
      = .ok (.dict []) := rfl
  constructor
  · rintro ⟨r, hr, hst⟩
    obtain ⟨-, hrec, hopen⟩ := (receipt_status hr).mp hst
    unfold buildHandoverReceipt at hr
    simp only [except_bind_eq_ok] at hr
    obtain ⟨_, -, _, -, _, -, _, -, _, -, commit, hcommit, -⟩ := hr
    exact ⟨hrec, hopen, commit, hcommit⟩
  · rintro ⟨hrec, ⟨tasks, htasks, hopen⟩, commit, hcommit⟩
    rw [buildHandoverReceipt, hkvs]
    simp [htasks, hopen, hrec, hcommit, hg, Val.get, pure, Except.pure]

/-- A document the validator accepts has a dictionary under `ledger_control`. -/
lemma control_dict {doc : Val} {fs : List Finding} (h : validateLedger doc = .ok fs) :
    ∃ kvs, docDict doc "ledger_control" = .ok (.dict kvs) := by
  obtain ⟨⟨control, hcontrol, source, hsource⟩, -⟩ := validateLedger_sections h
  rw [sourceFindings, except_bind_eq_ok] at hsource
  obtain ⟨present, hpresent, -⟩ := hsource
  rw [allPresent, except_bind_eq_ok] at hpresent
  obtain ⟨v, hv, -⟩ := hpresent
  cases control with
  | dict kvs => exact ⟨kvs, hcontrol⟩
  | _ => simp [Val.get] at hv

/-- Behind a passed gate, a task is either not completed or has evidence and acceptance. -/
lemma tasks_of_clean {doc : Val} {fs : List Finding} (h : validateLedger doc = .ok fs)
    (hclean : ∀ f ∈ fs, ¬ defaultGate.references f.ruleId) :
    ∃ evidence tasks, doc.get "execution_evidence" (.list []) = .ok evidence
      ∧ docList doc "task_ledger" = .ok tasks
      ∧ ∀ t ∈ tasks, ∃ b, statusIs t "completed" = .ok b
        ∧ (b = true → hasEvidence evidence t = .ok true ∧ acceptancePass t = .ok true) := by
  obtain ⟨-, evidence, tasks, tf, -, -, hev, htasks, htf, hsub, -⟩ := validateLedger_sections h
  refine ⟨evidence, tasks, hev, htasks, fun t ht => ?_⟩
  obtain ⟨hall, hmem⟩ := collect_eq_ok htf
  obtain ⟨zs, hzs⟩ := hall t ht
  refine taskFindings_clean hzs fun f hf => ?_
  have hnot := hclean f (hsub f ((hmem f).mpr ⟨t, ht, zs, hzs, hf⟩))
  rw [defaultGate_references] at hnot
  constructor <;> intro heq <;> rw [heq] at hnot <;> exact hnot (by simp)

/-- **Exactly the self-attested documents** get a completed receipt without being done. -/
theorem completionProven_iff (doc : Val) (clock : String) :
    CompletionProven doc clock ↔ ¬ SelfAttested doc := by
  constructor
  · rintro hproven ⟨⟨fs, hfs, hclean⟩, hallowed, hsettled, hcommits, hunfinished⟩
    obtain ⟨g, hg, hpassed⟩ := (runGate_passed_iff doc defaultGate).mpr ⟨fs, hfs, hclean⟩
    obtain ⟨r, hr, hst⟩ := (receipt_completed_iff doc g clock hpassed (control_dict hfs)).mpr
      ⟨hallowed, hsettled, hcommits⟩
    obtain ⟨⟨evidence, tasks, -, htasks, hall⟩, hnone⟩ := hproven g r hg hpassed hr hst
    rcases hunfinished with ⟨tasks', htasks', t, ht, hnot⟩ | ⟨b, bs, hbs⟩
    · rw [htasks] at htasks'
      obtain rfl := Except.ok.inj htasks'
      rw [(hall t ht).1] at hnot
      exact absurd hnot (by simp)
    · rw [hnone] at hbs
      exact absurd hbs (by simp)
  · intro hnot g r hg hpassed hr hst
    obtain ⟨fs, hfs, hclean⟩ := (runGate_passed_iff doc defaultGate).mp ⟨g, hg, hpassed⟩
    obtain ⟨hallowed, hsettled, hcommits⟩ := (receipt_completed_iff doc g clock hpassed
      (control_dict hfs)).mp ⟨r, hr, hst⟩
    obtain ⟨evidence, tasks, hev, htasks, hjudged⟩ := tasks_of_clean hfs hclean
    obtain ⟨-, -, -, -, blockers, -, -, -, -, -, hblockers, -⟩ := validateLedger_sections hfs
    have hself := SelfAttested.mk ⟨fs, hfs, hclean⟩ hallowed hsettled hcommits
    refine ⟨⟨evidence, tasks, hev, htasks, fun t ht => ?_⟩, ?_⟩
    · obtain ⟨b, hb, hproof⟩ := hjudged t ht
      cases b with
      | true => exact ⟨hb, hproof rfl⟩
      | false => exact absurd (hself (Or.inl ⟨tasks, htasks, t, ht, hb⟩)) hnot
    · cases blockers with
      | nil => exact hblockers
      | cons b bs => exact absurd (hself (Or.inr ⟨b, bs, hblockers⟩)) hnot

end Runtime

section Example

attribute [local instance] cpython

/-- A document written by hand: its only task is blocked, under an owner, and it says `allowed`. -/
def selfAttestedDoc : Val := .dict
  [("ledger_control", .dict [("ledger_id", .str "LEDGER-IPLAN-1"), ("source_iplan", .str "IPLAN-1"),
      ("source_iplan_version", .str "1.0.0"), ("source_iplan_checksum", .str "sha256:0")]),
    ("isolation_scope", .dict [("client_id", .str "c1"), ("project_id", .str "p1"),
      ("allowed_roots", .list [.str "src/"])]),
    ("task_ledger", .list [.dict [("task_id", .str "T1"), ("status", .str "blocked"),
      ("decision_owner", .str "operator")]]),
    ("blockers", .list [.dict [("blocker_id", .str "B1"), ("task_id", .str "T1"),
      ("decision_owner", .str "operator")]]),
    ("reconciliation", .dict [("allowed", .bool true)])]

/-- The gate passes on it and its receipt says completed, with a task blocked and a blocker open. -/
theorem selfAttestedDoc_completed :
    ∃ g r, runGate selfAttestedDoc defaultGate = .ok g ∧ g.status = .passed
      ∧ buildHandoverReceipt selfAttestedDoc g none "2026-06-26T00:00:00Z" = .ok r
      ∧ r.status = .completed ∧ ¬ AllDone selfAttestedDoc := by
  refine ⟨gateVerdict [] defaultGate, _, rfl, rfl, rfl, rfl, ?_⟩
  rintro ⟨-, hnone⟩
  have hone : docList selfAttestedDoc "blockers" = .ok [.dict [("blocker_id", .str "B1"),
      ("task_id", .str "T1"), ("decision_owner", .str "operator")]] := rfl
  rw [hone] at hnone
  exact absurd hnone (by simp)

end Example

end IplanRunner
