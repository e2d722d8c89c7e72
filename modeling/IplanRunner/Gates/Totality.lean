import IplanRunner.Gates.Runner

/-!
The gate on a ledger of the run loop: no rule of the validator raises on it.

* `Ledger.Judged`: every event lists the paths it touched, and `in_scope` can judge each of them;
  `Ledger.Readable`: so it is when the roots of the scope are a list of strings.
* `validateLedger_returns`, `runGate_returns`: validator and gate return on a judged ledger.
-/

namespace IplanRunner

open Foundation

/-- What the validator relies on and the types of a ledger do not say. -/
structure Ledger.Readable (L : Ledger) : Prop where
  roots : ∃ roots : List String, L.isolationScope.lookup "allowed_roots" = some (strList roots)
  paths : ∀ e ∈ L.executionLog, ∃ ps, e.touchedPaths = .list ps

variable [PyRuntime]

/-- `in_scope(str(path), scope["allowed_roots"])`. -/
def judgePath (scope : Dict) (path : Val) : Except PyErr Bool := do
  inScope path.pyStr (← (Dict.get scope "allowed_roots").iter)

/-- The gate can judge every path of the log. -/
def Ledger.Judged (L : Ledger) : Prop :=
  ∀ e ∈ L.executionLog, ∃ ps, e.touchedPaths = .list ps
    ∧ ∀ p ∈ ps, Returns (judgePath L.isolationScope p)

omit [PyRuntime] in
lemma returns_get (kvs : Dict) (key : String) (default : Val) :
    Returns ((Val.dict kvs).get key default) := ⟨_, rfl⟩

omit [PyRuntime] in
lemma returns_allPresent (kvs : Dict) (a b c : String) :
    Returns (allPresent (.dict kvs) a b c) := by
  rw [allPresent]
  refine (returns_get _ _ _).bind fun v _ => returns_ite (fun _ => returns_pure _) fun _ => ?_
  refine (returns_get _ _ _).bind fun v _ => returns_ite (fun _ => returns_pure _) fun _ => ?_
  exact (returns_get _ _ _).bind fun v _ => returns_pure _

omit [PyRuntime] in
lemma returns_statusIs (kvs : Dict) (status : String) : Returns (statusIs (.dict kvs) status) := by
  rw [statusIs]
  exact (returns_get _ _ _).bind fun v _ => returns_pure _

omit [PyRuntime] in
lemma returns_ifStatus (kvs : Dict) (status : String) {branch : Except PyErr (List Finding)}
    (h : Returns branch) : Returns (ifStatus (.dict kvs) status branch) := by
  rw [ifStatus]
  exact (returns_statusIs _ _).bind fun _ _ => returns_ite (fun _ => h) fun _ => returns_pure _

/-- The rules about one task of a ledger. -/
lemma returns_taskFindings (evidence : List Dict) (t : TaskEntry) :
    Returns (taskFindings (.list (evidence.map .dict)) t.toVal) := by
  obtain ⟨kvs, hkvs, hacc⟩ : ∃ kvs, t.toVal = .dict kvs
      ∧ (Val.dict kvs).get "acceptance" = .ok (.dict [("criteria", t.acceptance.criteria),
        ("result", .str t.acceptance.result.text)]) := ⟨_, rfl, rfl⟩
  have hevidence : Returns (hasEvidence (.list (evidence.map .dict)) (.dict kvs)) := by
    rw [hasEvidence]
    refine (returns_get _ _ _).bind fun v _ => returns_ite (fun _ => returns_pure _) fun _ => ?_
    refine (returns_ok _).bind fun docs hdocs => ?_
    cases hdocs
    refine returns_anyE fun ev hev => ?_
    obtain ⟨d, -, rfl⟩ := List.mem_map.mp hev
    exact (returns_get _ _ _).bind fun _ _ => (returns_get _ _ _).bind fun _ _ => returns_pure _
  have hpass : Returns (acceptancePass (.dict kvs)) := by
    rw [acceptancePass, hacc, ok_bind]
    have hor : ∀ v w : Val, ((Val.dict [("criteria", v), ("result", w)]).orElse (.dict []))
        = .dict [("criteria", v), ("result", w)] := fun _ _ => rfl
    rw [hor]
    exact (returns_get _ _ _).bind fun _ _ => returns_pure _
  have hcompleted : Returns (completedFindings (.list (evidence.map .dict)) (.dict kvs)) := by
    rw [completedFindings]
    refine (returns_get _ _ _).bind fun _ _ => hevidence.bind fun _ _ => ?_
    exact hpass.bind fun _ _ => returns_pure _
  have hblocked : Returns (blockedFindings (.dict kvs)) := by
    rw [blockedFindings]
    refine (returns_get _ _ _).bind fun _ _ => returns_ite (fun _ => returns_pure _) fun _ => ?_
    exact (returns_get _ _ _).bind fun _ _ => returns_pure _
  rw [hkvs, taskFindings]
  refine (returns_ifStatus _ _ hcompleted).bind fun _ _ => ?_
  exact (returns_ifStatus _ _ hblocked).bind fun _ _ => returns_pure _

lemma returns_blockerFindings (b : Blocker) : Returns (blockerFindings b.toVal) := by
  rw [blockerFindings, Blocker.toVal]
  refine (returns_get _ _ _).bind fun _ _ => returns_ite (fun _ => returns_pure _) fun _ => ?_
  exact (returns_get _ _ _).bind fun _ _ => returns_pure _

/-- Any two dictionaries can be compared as leases. -/
lemma returns_leasesOverlap (a b : Dict) : Returns (leasesOverlap (.dict a) (.dict b)) := by
  rw [leasesOverlap]
  refine (returns_get _ _ _).bind fun _ _ => (returns_get _ _ _).bind fun _ _ => ?_
  refine returns_ite (fun _ => returns_pure _) fun _ => ?_
  exact (returns_get _ _ _).bind fun _ _ => (returns_get _ _ _).bind fun _ _ => returns_pure _

lemma returns_anyOverlap {leases : List Val} (h : ∀ l ∈ leases, ∃ kvs, l = .dict kvs) :
    Returns (anyOverlap leases) := by
  induction leases with
  | nil => exact returns_ok false
  | cons a rest ih =>
      obtain ⟨kvs, rfl⟩ := h a (by simp)
      have hrest : ∀ l ∈ rest, ∃ kvs, l = .dict kvs := fun l hl => h l (by simp [hl])
      have hany : Returns (anyE (leasesOverlap (.dict kvs)) rest) := by
        refine returns_anyE fun b hb => ?_
        obtain ⟨kvs', rfl⟩ := hrest b hb
        exact returns_leasesOverlap kvs kvs'
      rw [anyOverlap]
      exact hany.bind fun _ _ => returns_ite (fun _ => returns_pure _) fun _ => ih hrest

lemma returns_leaseFindings (leases : List Lease) :
    Returns (leaseFindings (leases.map Lease.toVal)) := by
  have hone : ∀ l ∈ leases.map Lease.toVal, ∃ kvs, l = .dict kvs := by
    intro l hl
    obtain ⟨x, -, rfl⟩ := List.mem_map.mp hl
    exact ⟨_, rfl⟩
  have hfiled : Returns (unreleased (leases.map Lease.toVal)) := by
    rw [unreleased]
    refine returns_collect fun l hl => ?_
    obtain ⟨kvs, rfl⟩ := hone l hl
    refine (returns_get _ _ _).bind fun _ _ => returns_ite (fun _ => ?_) fun _ => returns_pure _
    exact (returns_get _ _ _).bind fun _ _ => returns_pure _
  rw [leaseFindings]
  refine hfiled.bind fun filed hok => returns_collect fun taskId _ => ?_
  have hdocs : ∀ p ∈ filed, ∃ kvs, p.2 = .dict kvs := by
    intro p hp
    rw [unreleased] at hok
    obtain ⟨l, hl, zs, hzs, hmem⟩ := ((collect_eq_ok hok).2 p).mp hp
    obtain ⟨kvs, rfl⟩ := hone l hl
    refine ⟨kvs, ?_⟩
    simp only [Val.get, bind, Except.bind, pure, Except.pure] at hzs
    split at hzs <;> cases hzs
    · simp only [List.mem_singleton] at hmem
      rw [hmem]
    · simp at hmem
  refine Returns.bind (returns_anyOverlap fun l hl => ?_) fun _ _ =>
    returns_ite (fun _ => returns_pure _) fun _ => returns_pure _
  obtain ⟨p, hp, rfl⟩ := List.mem_map.mp hl
  exact hdocs p (List.mem_filter.mp hp).1

omit [PyRuntime] in
lemma returns_reconciliationFindings (r : Reconciliation) :
    Returns (reconciliationFindings r.toVal) := by
  have hcount : ∀ n : ℕ, Returns (((Val.int n).orElse (.int 0)).pyInt) := by
    intro n
    rw [Val.orElse]
    split <;> exact returns_ok _
  have hpending : Returns (positiveCount r.toVal "pending_tasks") :=
    (hcount r.pendingTasks).bind fun _ _ => returns_pure _
  have hopen : Returns (positiveCount r.toVal "open_blockers") :=
    (hcount r.openBlockers).bind fun _ _ => returns_pure _
  rw [reconciliationFindings]
  refine (returns_get _ _ _).bind fun _ _ => returns_ite (fun _ => returns_pure _) fun _ => ?_
  have hremains : Returns (somethingRemains r.toVal) := by
    rw [somethingRemains]
    exact hpending.bind fun _ _ => returns_ite (fun _ => returns_pure _) fun _ => hopen
  exact hremains.bind fun _ _ => returns_ite (fun _ => returns_pure _) fun _ => returns_pure _

omit [PyRuntime] in
lemma returns_inScope (path : String) (roots : List String) :
    Returns (inScope path (roots.map .str)) := by
  rw [inScope]
  refine returns_anyE fun root hroot => ?_
  obtain ⟨r, -, rfl⟩ := List.mem_map.mp hroot
  exact returns_ok _

lemma Ledger.Readable.judged {L : Ledger} (hL : L.Readable) : L.Judged := by
  obtain ⟨roots, hroots⟩ := hL.roots
  have hget : Dict.get L.isolationScope "allowed_roots" = strList roots := by
    rw [Dict.get, hroots]
    rfl
  intro e he
  obtain ⟨ps, hps⟩ := hL.paths e he
  refine ⟨ps, hps, fun p _ => ?_⟩
  rw [judgePath, hget, strList, Val.iter, ok_bind]
  exact returns_inScope _ _

omit [PyRuntime] in
/-- A scope that passes `scope_ok` has its three members. -/
lemma item_of_scopeOk {scope : Dict} (h : scopeOk (.dict scope) = .ok true) :
    ∀ key ∈ ["client_id", "project_id", "allowed_roots"], Returns ((Val.dict scope).item key) := by
  have hget : ∀ key, ((scope.lookup key).getD .none).truthy = true →
      Returns ((Val.dict scope).item key) := by
    intro key hkey
    rw [Val.item]
    cases hl : scope.lookup key with
    | none => simp [hl, Val.truthy] at hkey
    | some v => exact returns_ok v
  rw [scopeOk, allPresent] at h
  simp only [Val.get, bind, Except.bind, pure, Except.pure] at h
  by_cases h1 : ((scope.lookup "client_id").getD .none).truthy = true
  · by_cases h2 : ((scope.lookup "project_id").getD .none).truthy = true
    · have h3 : ((scope.lookup "allowed_roots").getD .none).truthy = true := by
        simpa [h1, h2] using h
      intro key hkey
      simp only [List.mem_cons, List.not_mem_nil, or_false] at hkey
      rcases hkey with rfl | rfl | rfl
      · exact hget _ h1
      · exact hget _ h2
      · exact hget _ h3
    · simp [h1, h2] at h
  · simp [h1] at h

omit [PyRuntime] in
lemma dictGet_of_item {d : Dict} {key : String} {v : Val} (h : (Val.dict d).item key = .ok v) :
    Dict.get d key = v := by
  rw [Val.item] at h
  rw [Dict.get]
  cases hl : d.lookup key with
  | none => rw [hl] at h; cases h
  | some w => rw [hl] at h; cases h; rfl

lemma returns_logFindings {L : Ledger} (hL : L.Judged)
    (hok : scopeOk (.dict L.isolationScope) = .ok true) :
    Returns (logFindings (.dict L.isolationScope) (L.executionLog.map Event.toVal)) := by
  have hitem := item_of_scopeOk hok
  rw [logFindings]
  obtain ⟨roots, hrootsItem⟩ := hitem "allowed_roots" (by simp)
  have hget : Dict.get L.isolationScope "allowed_roots" = roots := dictGet_of_item hrootsItem
  rw [hrootsItem, ok_bind]
  refine (hitem "client_id" (by simp)).bind fun client _ => ?_
  refine (hitem "project_id" (by simp)).bind fun project _ => ?_
  refine Returns.bind (returns_collect fun event hevent => ?_) fun _ _ => returns_pure _
  obtain ⟨e, he, rfl⟩ := List.mem_map.mp hevent
  obtain ⟨ps, hps, hjudged⟩ := hL e he
  have htouch : Returns (touchesOutside roots e.toVal) := by
    rw [touchesOutside, Event.get_paths, hps, ok_bind, Val.iter, ok_bind]
    refine Returns.bind (returns_collect fun path hpath => ?_) fun _ _ => returns_pure _
    obtain ⟨b, hb⟩ := hjudged path hpath
    rw [judgePath, hget] at hb
    obtain ⟨rs, hrs, hin⟩ := except_bind_eq_ok.mp hb
    rw [hrs, ok_bind, hin, ok_bind]
    exact returns_ite (fun _ => returns_pure _) fun _ => returns_pure _
  have hscope : Returns (eventInScope e.toVal client project) := by
    rw [eventInScope, Event.get_client, ok_bind, Event.get_project, ok_bind]
    exact returns_ite (fun _ => returns_pure _) fun _ => returns_pure _
  exact htouch.bind fun _ _ => hscope.bind fun _ _ => returns_pure _

lemma returns_verifyChain (log : List Event) : Returns (verifyChain (log.map Event.toVal)) := by
  have key : ∀ (prevHash : Option String) (index : ℕ),
      Returns (verifyChainFrom prevHash index (log.map Event.toVal)) := by
    induction log with
    | nil => exact fun _ _ => returns_ok true
    | cons e rest ih =>
        intro prevHash index
        rw [List.map_cons, verifyChainFrom, verifyEvent_toVal]
        refine (returns_ok _).bind fun hash _ => ?_
        cases hash with
        | none => exact returns_pure false
        | some x => exact ih _ _
  exact key none 0

omit [PyRuntime] in
lemma returns_landingFindings (L : Ledger) : Returns (landingFindings L.toDoc L.control.toVal) := by
  rw [landingFindings]
  have hcontrol : Returns (L.control.toVal.get "requires_landing") := ⟨_, rfl⟩
  refine hcontrol.bind fun _ _ => returns_ite (fun _ => returns_pure _) fun _ => ?_
  have hvcs : ∃ kvs, L.toDoc.get "vcs" (.dict []) = .ok (.dict kvs) := by
    rw [Ledger.toDoc]
    cases L.vcs with
    | none => exact ⟨_, rfl⟩
    | some v => exact ⟨_, rfl⟩
  obtain ⟨kvs, hkvs⟩ := hvcs
  rw [hkvs, ok_bind]
  exact (returns_get _ _ _).bind fun _ _ => returns_ite (fun _ => returns_pure _)
    fun _ => returns_pure _

/-! ### The sections of the document -/

section Document

variable (L : Ledger)

omit [PyRuntime]

lemma toDoc_control : docDict L.toDoc "ledger_control" = .ok L.control.toVal := rfl

lemma toDoc_scope : docDict L.toDoc "isolation_scope" = .ok (.dict L.isolationScope) := rfl

lemma toDoc_evidence :
    L.toDoc.get "execution_evidence" (.list []) = .ok (.list (L.executionEvidence.map .dict)) := rfl

lemma toDoc_tasks : docList L.toDoc "task_ledger" = .ok (L.taskLedger.map TaskEntry.toVal) := rfl

lemma toDoc_blockers : docList L.toDoc "blockers" = .ok (L.blockers.map Blocker.toVal) := rfl

lemma toDoc_leases : docList L.toDoc "agent_leases" = .ok (L.agentLeases.map Lease.toVal) := rfl

lemma toDoc_reconciliation :
    docDict L.toDoc "reconciliation" = .ok L.reconciliation.toVal := rfl

lemma toDoc_log : docList L.toDoc "execution_log" = .ok (L.executionLog.map Event.toVal) := rfl

end Document

/-- **The validator returns** on a judged ledger. -/
theorem validateLedger_returns {L : Ledger} (hL : L.Judged) :
    Returns (validateLedger L.toDoc) := by
  have hsource : Returns (sourceFindings L.control.toVal) := by
    rw [sourceFindings]
    exact (returns_allPresent _ _ _ _).bind fun _ _ =>
      returns_ite (fun _ => returns_pure _) fun _ => returns_pure _
  have htasks : Returns (collect (taskFindings (.list (L.executionEvidence.map .dict)))
      (L.taskLedger.map TaskEntry.toVal)) := by
    refine returns_collect fun t ht => ?_
    obtain ⟨x, -, rfl⟩ := List.mem_map.mp ht
    exact returns_taskFindings _ _
  have hblockers : Returns (collect blockerFindings (L.blockers.map Blocker.toVal)) := by
    refine returns_collect fun b hb => ?_
    obtain ⟨x, -, rfl⟩ := List.mem_map.mp hb
    exact returns_blockerFindings _
  have hchain : Returns (chainFindings (L.executionLog.map Event.toVal)) := by
    rw [chainFindings]
    exact (returns_verifyChain _).bind fun _ _ =>
      returns_ite (fun _ => returns_pure _) fun _ => returns_pure _
  have hisolation : ∀ ok, scopeOk (.dict L.isolationScope) = .ok ok →
      Returns (isolationFindings ok (.dict L.isolationScope)
        (L.executionLog.map Event.toVal)) := by
    intro ok hok
    rw [isolationFindings]
    refine returns_ite (fun h => ?_) fun _ => returns_ok _
    subst h
    exact returns_logFindings hL hok
  rw [validateLedger, toDoc_control, ok_bind]
  refine hsource.bind fun _ _ => ?_
  rw [toDoc_scope, ok_bind]
  refine Returns.bind (returns_allPresent _ _ _ _) fun ok hok => ?_
  rw [toDoc_evidence, ok_bind, toDoc_tasks, ok_bind]
  refine htasks.bind fun _ _ => ?_
  rw [toDoc_blockers, ok_bind]
  refine hblockers.bind fun _ _ => ?_
  rw [toDoc_leases, ok_bind]
  refine (returns_leaseFindings _).bind fun _ _ => ?_
  rw [toDoc_reconciliation, ok_bind]
  refine (returns_reconciliationFindings _).bind fun _ _ => ?_
  rw [toDoc_log, ok_bind]
  refine (hisolation ok hok).bind fun _ _ => hchain.bind fun _ _ => ?_
  exact (returns_landingFindings L).bind fun _ _ => returns_pure _

/-- **The gate returns** on a judged ledger. -/
theorem runGate_returns {L : Ledger} (hL : L.Judged) (gate : Gate) :
    Returns (runGate L.toDoc gate) := by
  rw [runGate]
  exact (validateLedger_returns hL).bind fun _ _ => returns_pure _

end IplanRunner
