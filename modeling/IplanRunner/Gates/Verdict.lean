import IplanRunner.Gates.Totality

/-!
What the default gate says about a ledger of the run loop.

* `Silent`: no finding of a list is of a rule the default gate references.
* `GateClean`: completed tasks are proven, blocked ones and blockers owned, every event is inside
  the roots and the scope, the log is chained and a required landing has a commit.
* `defaultGate_passed_iff`: a gate that returns passes exactly on the clean ledgers.
-/

namespace IplanRunner

open Foundation

/-- No finding is of a rule the default gate references. -/
def Silent (fs : List Finding) : Prop := ∀ f ∈ fs, ¬ defaultGate.references f.ruleId

lemma defaultGate_references (r : RuleId) : defaultGate.references r ↔
    r ∈ [RuleId.ledgerEvidenceRequired, .ledgerAcceptanceWeak, .ledgerBlockedWithoutOwner,
      .isolationScopeMissing, .isolationPathOutsideRoots, .isolationEventScopeMismatch,
      .hashchainBroken, .ledgerNotCommitted] := by
  simp [Gate.references, defaultGate, or_assoc]

@[simp] lemma silent_nil : Silent [] := by simp [Silent]

lemma silent_append (fs gs : List Finding) : Silent (fs ++ gs) ↔ Silent fs ∧ Silent gs :=
  List.forall_mem_append

/-- A branch that adds one finding unless a condition holds. -/
lemma silent_ite (c : Bool) (r : RuleId) (m : String) :
    Silent (if c then [] else [finding r m]) ↔ (defaultGate.references r → c = true) := by
  cases c <;> simp [Silent]

/-- A branch that adds one finding when a condition holds. -/
lemma silent_if (c : Bool) (r : RuleId) (m : String) :
    Silent (if c then [finding r m] else []) ↔ (defaultGate.references r → c = false) := by
  cases c <;> simp [Silent]

/-- The findings of a loop are silent when those of every pass are. -/
lemma silent_collect {α : Type} {f : α → Except PyErr (List Finding)} {xs : List α}
    {fs : List Finding} (h : collect f xs = .ok fs) :
    Silent fs ↔ ∀ x ∈ xs, ∀ gs, f x = .ok gs → Silent gs := by
  obtain ⟨-, hmem⟩ := collect_eq_ok h
  constructor
  · intro hs x hx gs hgs g hg
    exact hs g ((hmem g).mpr ⟨x, hx, gs, hgs, hg⟩)
  · intro hall g hg
    obtain ⟨x, hx, gs, hgs, hg⟩ := (hmem g).mp hg
    exact hall x hx gs hgs g hg

section Runtime

variable [PyRuntime]

/-! ### Sections the default gate does not look at -/

omit [PyRuntime] in
lemma silent_source {control : Val} {fs : List Finding} (h : sourceFindings control = .ok fs) :
    Silent fs := by
  rw [sourceFindings] at h
  obtain ⟨b, -, h⟩ := except_bind_eq_ok.mp h
  cases b <;> cases h <;> simp [Silent, defaultGate_references]

lemma silent_lease {leases : List Val} {fs : List Finding} (h : leaseFindings leases = .ok fs) :
    Silent fs := by
  rw [leaseFindings] at h
  obtain ⟨filed, -, h⟩ := except_bind_eq_ok.mp h
  refine (silent_collect h).mpr fun taskId _ gs hgs => ?_
  obtain ⟨b, -, hgs⟩ := except_bind_eq_ok.mp hgs
  cases b <;> cases hgs <;> simp [Silent, defaultGate_references]

omit [PyRuntime] in
lemma silent_reconciliation {r : Val} {fs : List Finding}
    (h : reconciliationFindings r = .ok fs) : Silent fs := by
  rw [reconciliationFindings] at h
  obtain ⟨v, -, h⟩ := except_bind_eq_ok.mp h
  split at h
  · cases h
    exact silent_nil
  · obtain ⟨b, -, h⟩ := except_bind_eq_ok.mp h
    cases b <;> cases h <;> simp [Silent, defaultGate_references]

/-! ### The tasks and the blockers -/

/-- A completed task is proven, a blocked one owned. -/
structure TaskClean (evidence : List Dict) (t : TaskEntry) : Prop where
  proven : t.status = .completed →
    hasEvidence (.list (evidence.map .dict)) t.toVal = .ok true ∧ t.acceptance.result = .pass
  owned : t.status = .blocked → (optStr t.decisionOwner).truthy = true

omit [PyRuntime] in
lemma TaskStatus.text_inj {a b : TaskStatus} (h : a.text = b.text) : a = b := by
  cases a <;> cases b <;> first | rfl | exact absurd h (by decide)

omit [PyRuntime] in
lemma statusIs_toVal (t : TaskEntry) (status : TaskStatus) :
    statusIs t.toVal status.text = .ok (decide (t.status = status)) := by
  have hget : t.toVal.get "status" = .ok (.str t.status.text) := rfl
  rw [statusIs, hget, ok_bind, Val.pyEq_str_str]
  refine congrArg Except.ok ?_
  rw [beq_eq_decide, Bool.eq_iff_iff, decide_eq_true_iff, decide_eq_true_iff]
  exact ⟨TaskStatus.text_inj, fun h => h ▸ rfl⟩

omit [PyRuntime] in
lemma acceptancePass_toVal (t : TaskEntry) :
    acceptancePass t.toVal = .ok (decide (t.acceptance.result = .pass)) := by
  have hget : t.toVal.get "acceptance" = .ok (.dict [("criteria", t.acceptance.criteria),
      ("result", .str t.acceptance.result.text)]) := rfl
  have hor : (Val.dict [("criteria", t.acceptance.criteria),
      ("result", .str t.acceptance.result.text)]).orElse (.dict [])
        = .dict [("criteria", t.acceptance.criteria), ("result", .str t.acceptance.result.text)] :=
    rfl
  have hresult : (Val.dict [("criteria", t.acceptance.criteria),
      ("result", .str t.acceptance.result.text)]).get "result"
        = .ok (.str t.acceptance.result.text) := rfl
  rw [acceptancePass, hget, ok_bind, hor, hresult, ok_bind, Val.pyEq_str_str]
  cases t.acceptance.result <;> rfl

lemma silent_task {evidence : List Dict} {t : TaskEntry} {fs : List Finding}
    (h : taskFindings (.list (evidence.map .dict)) t.toVal = .ok fs) :
    Silent fs ↔ TaskClean evidence t := by
  rw [taskFindings] at h
  obtain ⟨done, hdone, h⟩ := except_bind_eq_ok.mp h
  obtain ⟨stuck, hstuck, h⟩ := except_bind_eq_ok.mp h
  cases h
  rw [ifStatus, show "completed" = TaskStatus.completed.text from rfl, statusIs_toVal,
    ok_bind] at hdone
  rw [ifStatus, show "blocked" = TaskStatus.blocked.text from rfl, statusIs_toVal,
    ok_bind] at hstuck
  have h1 : Silent done ↔ (t.status = .completed →
      hasEvidence (.list (evidence.map .dict)) t.toVal = .ok true
        ∧ t.acceptance.result = .pass) := by
    by_cases hst : t.status = .completed
    · rw [decide_eq_true hst, if_pos rfl, completedFindings] at hdone
      obtain ⟨taskId, -, hdone⟩ := except_bind_eq_ok.mp hdone
      obtain ⟨ok, hok, hdone⟩ := except_bind_eq_ok.mp hdone
      obtain ⟨pass, hpass, hdone⟩ := except_bind_eq_ok.mp hdone
      rw [acceptancePass_toVal] at hpass
      cases hpass
      cases hdone
      rw [silent_append, silent_ite, silent_ite, hok]
      simp [defaultGate_references, hst]
    · rw [decide_eq_false hst, if_neg (by simp)] at hdone
      cases hdone
      simp [hst]
  have h2 : Silent stuck ↔ (t.status = .blocked → (optStr t.decisionOwner).truthy = true) := by
    by_cases hst : t.status = .blocked
    · have hget : t.toVal.get "decision_owner" = .ok (optStr t.decisionOwner) := rfl
      rw [decide_eq_true hst, if_pos rfl, blockedFindings, hget, ok_bind] at hstuck
      cases ho : (optStr t.decisionOwner).truthy with
      | true =>
          rw [ho, if_pos rfl] at hstuck
          cases hstuck
          simp
      | false =>
          rw [ho, if_neg (by simp)] at hstuck
          obtain ⟨taskId, -, hstuck⟩ := except_bind_eq_ok.mp hstuck
          cases hstuck
          simp [Silent, defaultGate_references, hst]
    · rw [decide_eq_false hst, if_neg (by simp)] at hstuck
      cases hstuck
      simp [hst]
  rw [silent_append, h1, h2]
  exact ⟨fun h => ⟨h.1, h.2⟩, fun h => ⟨h.proven, h.owned⟩⟩

lemma silent_blocker {b : Blocker} {fs : List Finding} (h : blockerFindings b.toVal = .ok fs) :
    Silent fs ↔ b.decisionOwner ≠ "" := by
  have hget : b.toVal.get "decision_owner" = .ok (.str b.decisionOwner) := rfl
  rw [blockerFindings, hget, ok_bind] at h
  by_cases ho : b.decisionOwner = ""
  · rw [ho, Val.truthy, if_neg (by simp)] at h
    obtain ⟨blockerId, -, h⟩ := except_bind_eq_ok.mp h
    cases h
    simp [Silent, defaultGate_references, ho]
  · have htrue : (Val.str b.decisionOwner).truthy = true := by simpa [Val.truthy] using ho
    rw [htrue, if_pos rfl] at h
    cases h
    simpa using ho

/-! ### The log -/

/-- The event is inside the roots and of the scope of the ledger. -/
def EventClean (scope : Dict) (e : Event) : Prop :=
  touchesOutside (Dict.get scope "allowed_roots") e.toVal = .ok false
    ∧ eventInScope e.toVal (Dict.get scope "client_id") (Dict.get scope "project_id") = .ok true

omit [PyRuntime] in
/-- No finding about the log is left when no event is flagged. -/
lemma silent_flags (seen : List (Bool × Bool)) :
    Silent ((if seen.any Prod.fst then [finding .isolationPathOutsideRoots
        "an event touched a path outside allowed_roots"] else [])
      ++ if seen.any Prod.snd then [finding .isolationEventScopeMismatch
        "an event client_id/project_id differs from the ledger scope"] else [])
      ↔ ∀ y ∈ seen, y = (false, false) := by
  rw [silent_append, silent_if, silent_if, List.any_eq_false, List.any_eq_false]
  simp only [defaultGate_references, List.mem_cons, reduceCtorEq, or_true, true_or, false_or,
    forall_const, Bool.not_eq_true]
  exact ⟨fun h y hy => Prod.ext (h.1 y hy) (h.2 y hy),
    fun h => ⟨fun y hy => by rw [h y hy], fun y hy => by rw [h y hy]⟩⟩

lemma silent_log {scope : Dict} {log : List Event} {fs : List Finding}
    (h : logFindings (.dict scope) (log.map Event.toVal) = .ok fs) :
    Silent fs ↔ ∀ e ∈ log, EventClean scope e := by
  rw [logFindings] at h
  obtain ⟨roots, hroots, h⟩ := except_bind_eq_ok.mp h
  obtain ⟨client, hclient, h⟩ := except_bind_eq_ok.mp h
  obtain ⟨project, hproject, h⟩ := except_bind_eq_ok.mp h
  obtain ⟨seen, hseen, h⟩ := except_bind_eq_ok.mp h
  cases h
  have hone : ∀ event zs, (do
      let violation ← touchesOutside roots event
      let inside ← eventInScope event client project
      return [(violation, !inside)]) = (.ok zs : Except PyErr (List (Bool × Bool))) →
      ∃ v i, touchesOutside roots event = .ok v ∧ eventInScope event client project = .ok i
        ∧ zs = [(v, !i)] := by
    intro event zs hzs
    obtain ⟨v, hv, hzs⟩ := except_bind_eq_ok.mp hzs
    obtain ⟨i, hi, hzs⟩ := except_bind_eq_ok.mp hzs
    cases hzs
    exact ⟨v, i, hv, hi, rfl⟩
  obtain ⟨hall, hmem⟩ := collect_eq_ok hseen
  rw [silent_flags]
  simp only [EventClean, dictGet_of_item hroots, dictGet_of_item hclient, dictGet_of_item hproject]
  constructor
  · intro hs e he
    obtain ⟨zs, hzs⟩ := hall e.toVal (List.mem_map_of_mem he)
    obtain ⟨v, i, hv, hi, rfl⟩ := hone _ _ hzs
    have hpair := hs (v, !i) ((hmem _).mpr ⟨e.toVal, List.mem_map_of_mem he, _, hzs, by simp⟩)
    obtain ⟨rfl, hi'⟩ : v = false ∧ i = true := by simpa using hpair
    exact ⟨hv, hi' ▸ hi⟩
  · intro hs y hy
    obtain ⟨event, hevent, zs, hzs, hyz⟩ := (hmem y).mp hy
    obtain ⟨e, he, rfl⟩ := List.mem_map.mp hevent
    obtain ⟨v, i, hv, hi, rfl⟩ := hone _ _ hzs
    obtain ⟨h1, h2⟩ := hs e he
    rw [hv] at h1
    rw [hi] at h2
    cases h1
    cases h2
    exact List.mem_singleton.mp hyz

lemma silent_chain {log : List Event} {fs : List Finding}
    (h : chainFindings (log.map Event.toVal) = .ok fs) : Silent fs ↔ Chained log := by
  rw [chainFindings] at h
  obtain ⟨b, hb, h⟩ := except_bind_eq_ok.mp h
  rw [← verifyChain_toVal, hb]
  cases b <;> cases h <;> simp [Silent, defaultGate_references]

/-- A landing the ledger requires has left a commit. -/
def Landed (L : Ledger) : Prop :=
  L.control.requiresLanding = true → ∃ v, L.vcs = some v ∧ v.commits ≠ []

omit [PyRuntime] in
lemma silent_landing {L : Ledger} {fs : List Finding}
    (h : landingFindings L.toDoc L.control.toVal = .ok fs) : Silent fs ↔ Landed L := by
  have hrequired : L.control.toVal.get "requires_landing"
      = .ok (if L.control.requiresLanding then .bool true else .none) := by
    rw [LedgerControl.toVal]
    cases L.control.requiresLanding <;> rfl
  have hcommits : ∃ commits : Val,
      (do (← L.toDoc.get "vcs" (.dict [])).get "commits" : Except PyErr Val) = .ok commits
      ∧ (commits.truthy = true ↔ ∃ v, L.vcs = some v ∧ v.commits ≠ []) := by
    rw [Ledger.toDoc]
    cases L.vcs with
    | none => exact ⟨.none, rfl, by simp [Val.truthy]⟩
    | some v =>
        refine ⟨.list (v.commits.map fun c => .dict
          [("sha", .str c.sha), ("message", .str c.message), ("at", .str c.atTime),
            ("touched_paths", .list c.touchedPaths)]), rfl, ?_⟩
        cases hc : v.commits <;> simp [Val.truthy, hc]
  rw [landingFindings, hrequired, ok_bind] at h
  rw [Landed]
  by_cases hr : L.control.requiresLanding = true
  · obtain ⟨commits, hread, htruthy⟩ := hcommits
    obtain ⟨vcs, hvcs, hget⟩ := except_bind_eq_ok.mp hread
    rw [hr, if_pos rfl, hvcs, ok_bind, hget, ok_bind] at h
    rw [← htruthy]
    cases hc : commits.truthy <;> rw [hc] at h <;> cases h <;>
      simp [Silent, defaultGate_references, hr]
  · rw [Bool.not_eq_true] at hr
    rw [hr] at h
    cases h
    simp [hr]

/-! ### The verdict -/

/-- What the default gate looks at of a judgement. -/
lemma Judgement.silent_iff {document : Val} (j : Judgement document) :
    Silent j.findings ↔ j.ok = true ∧ Silent j.tasks ∧ Silent j.blockers ∧ Silent j.isolation
      ∧ Silent j.chain ∧ Silent j.landing := by
  have hmissing : Silent j.missing ↔ j.ok = true := by
    rw [Judgement.missing, silent_ite]
    simp [defaultGate_references]
  rw [Judgement.findings]
  simp only [silent_append, hmissing, silent_source j.source_eq, silent_lease j.leases_eq,
    silent_reconciliation j.reconciliation_eq, true_and, and_true, and_assoc]

/-- A ledger no rule of the default gate fires on. -/
structure GateClean (L : Ledger) : Prop where
  scope : scopeOk (.dict L.isolationScope) = .ok true
  tasks : ∀ t ∈ L.taskLedger, TaskClean L.executionEvidence t
  blockers : ∀ b ∈ L.blockers, b.decisionOwner ≠ ""
  events : ∀ e ∈ L.executionLog, EventClean L.isolationScope e
  chained : Chained L.executionLog
  landed : Landed L

/-- **The default gate passes** exactly on the clean ledgers, when it returns. -/
theorem defaultGate_passed_iff {L : Ledger} {g : GateResult}
    (hg : runGate L.toDoc defaultGate = .ok g) : g.status = .passed ↔ GateClean L := by
  rw [runGate] at hg
  obtain ⟨fs, hfs, hg⟩ := except_bind_eq_ok.mp hg
  cases hg
  rw [gateVerdict_passed_iff]
  have hsilent : (∀ r ∈ fs.map (·.ruleId), ¬ defaultGate.references r) ↔ Silent fs := by
    simp [Silent]
  rw [hsilent]
  obtain ⟨j, rfl⟩ := validateLedger_eq_ok_iff.mp hfs
  obtain ⟨control, scope, ok, evidence, taskList, blockerList, leaseList, recDict, log, source,
    tasks, blockers, leases, rec, isolation, chain, landing, hcontrol, hsource, hscope, hok,
    hevidence, htaskList, htasks, hblockerList, hblockers, hleaseList, hleases, hrecDict, hrec,
    hlog, hisolation, hchain, hlanding⟩ := j
  cases (toDoc_control L).symm.trans hcontrol
  cases (toDoc_scope L).symm.trans hscope
  cases (toDoc_evidence L).symm.trans hevidence
  cases (toDoc_tasks L).symm.trans htaskList
  cases (toDoc_blockers L).symm.trans hblockerList
  cases (toDoc_log L).symm.trans hlog
  have htask : Silent tasks ↔ ∀ t ∈ L.taskLedger, TaskClean L.executionEvidence t := by
    obtain ⟨hall, -⟩ := collect_eq_ok htasks
    rw [silent_collect htasks]
    constructor
    · intro h t ht
      obtain ⟨gs, hgs⟩ := hall t.toVal (List.mem_map_of_mem ht)
      exact (silent_task hgs).mp (h _ (List.mem_map_of_mem ht) gs hgs)
    · intro h x hx gs hgs
      obtain ⟨t, ht, rfl⟩ := List.mem_map.mp hx
      exact (silent_task hgs).mpr (h t ht)
  have hblocker : Silent blockers ↔ ∀ b ∈ L.blockers, b.decisionOwner ≠ "" := by
    obtain ⟨hall, -⟩ := collect_eq_ok hblockers
    rw [silent_collect hblockers]
    constructor
    · intro h b hb
      obtain ⟨gs, hgs⟩ := hall b.toVal (List.mem_map_of_mem hb)
      exact (silent_blocker hgs).mp (h _ (List.mem_map_of_mem hb) gs hgs)
    · intro h x hx gs hgs
      obtain ⟨b, hb, rfl⟩ := List.mem_map.mp hx
      exact (silent_blocker hgs).mpr (h b hb)
  rw [Judgement.silent_iff]
  dsimp only
  rw [htask, hblocker, silent_chain hchain, silent_landing hlanding]
  -- an incomplete scope is a finding of its own, and the events are not looked at
  cases ok with
  | false =>
      refine ⟨fun h => absurd h.1 (by simp), fun h => ?_⟩
      have hclean := h.scope
      rw [hok] at hclean
      cases hclean
  | true =>
      rw [isolationFindings, if_pos rfl] at hisolation
      rw [silent_log hisolation]
      constructor
      · rintro ⟨-, h2, h3, h4, h5, h6⟩
        exact ⟨hok, h2, h3, h4, h5, h6⟩
      · rintro ⟨-, h2, h3, h4, h5, h6⟩
        exact ⟨rfl, h2, h3, h4, h5, h6⟩

end Runtime

end IplanRunner
