import IplanRunner.Handover.FreshRun
import IplanRunner.Orchestrator.LeaseGuard
import IplanRunner.Runs.Leases
import IplanRunner.Runs.Reprojection

/-!
What the validator can find in a ledger during its lifetime: from its run, through resumes,
decisions, landings and signatures in any order.

* `Lived`: the ledgers of a lifetime.
* `WellKept`: what the program itself keeps right; `Lived.wellKept`: it does so in every lifetime.
* `Judgement.of_wellKept`: in a well-kept ledger only the sections about completed tasks and about
  touched paths find anything.
* `lifetime_findings`: which rules fire, and exactly when.
-/

namespace IplanRunner

open Foundation

section Runtime

variable [PyRuntime]

/-! ### Lifetimes -/

/-- The ledger of a run that returned, and what has been made of it later. -/
inductive Lived : Ledger → Prop
  | run {W : Type} {h : Host W} {cfg : RunConfig} {m : Manifest} {w w' : W} {res : RunResult}
      {fx : List Effect} : run h cfg m w = (.ok res, w', fx) → Lived res.ledger
  | later {L L' : Ledger} : Lived L → Later L L' → Lived L'

/-- An event that carries the scope of its ledger, and a list of paths. -/
structure EventBody.OfScope (scope : Dict) (e : EventBody) : Prop where
  client : e.clientId = Dict.get scope "client_id"
  project : e.projectId = Dict.get scope "project_id"
  paths : ∃ ps, e.touchedPaths = .list ps

/-- What the program keeps right in a ledger, whatever its tasks do. -/
structure WellKept (L : Ledger) : Prop where
  firsts : FirstsOnly L.taskLedger
  source : L.control.sourceIplan.truthy = true ∧ L.control.sourceIplanVersion.truthy = true
    ∧ L.control.sourceIplanChecksum.truthy = true
  scope : scopeOk (.dict L.isolationScope) = .ok true
  owned : ∀ t ∈ L.taskLedger, t.status = .blocked → (optStr t.decisionOwner).truthy = true
  evidenced : ∀ t ∈ L.taskLedger, t.acceptance.result = .pass → t.evidenceRefs ≠ []
  owners : ∀ b ∈ L.blockers, b.decisionOwner ≠ ""
  unexpiring : NoExpiry L
  leased : L.agentLeases.Pairwise fun a b => a.taskId = b.taskId → a.releasedAt ≠ .none
  counted : L.reconciliation.allowed = true →
    L.reconciliation.pendingTasks = 0 ∧ L.reconciliation.openBlockers = 0
  events : ∀ e ∈ L.bodies, e.OfScope L.isolationScope
  chained : Chained L.executionLog
  landed : Landed L

/-! ### A turn -/

section Turn

variable {W : Type} {h : Host W} {cfg : RunConfig} {node : TaskNode} {taskId : String}
  {completed : List String} {L : Ledger} {r : Except PyErr Unit} {δ : Delta} {fx : List Effect}

omit [PyRuntime] in
lemma ofScope_loopEvent (scope : Dict) (kind : EventKind) (taskId atTime : String)
    (paths : List String) : (loopEvent scope kind taskId atTime paths).OfScope scope :=
  ⟨rfl, rfl, _, rfl⟩

/-- A turn logs events of the scope. -/
lemma Turn.ofScope (hturn : Turn h cfg node taskId completed L r δ fx) :
    ∀ e ∈ δ.events, e.OfScope L.isolationScope := by
  have hloop := ofScope_loopEvent L.isolationScope
  cases hturn with
  | unmet _ => simpa [blockDelta] using hloop _ _ _ _
  | ran _ hrun =>
      cases hrun with
      | committed _ => simp
      | conflict _ _ => simpa [blockDelta] using hloop _ _ _ _
      | crashed _ _ _ _ => simpa [crashDelta] using hloop _ _ _ _
      | succeeded =>
          intro e he
          simp only [successDelta, editEvents, List.mem_cons, List.mem_append, List.mem_map,
            List.not_mem_nil, or_false] at he
          rcases he with (rfl | ⟨edit, -, rfl⟩) | rfl <;> exact hloop _ _ _ _
      | failed _ _ _ _ _ =>
          intro e he
          simp only [failureDelta, compensationEvents, List.mem_cons, List.mem_append,
            List.not_mem_nil, or_false] at he
          rcases he with (rfl | he) | rfl
          · exact hloop _ _ _ _
          · split at he
            · cases he
            · rw [List.mem_singleton.mp he]
              exact hloop _ _ _ _
          · exact hloop _ _ _ _

/-- A turn leaves a blocked task to the operator, or as it was. -/
lemma Turn.owned (hturn : Turn h cfg node taskId completed L r δ fx) {e : TaskEntry}
    (he : e.status = .blocked → (optStr e.decisionOwner).truthy = true)
    (hblocked : (δ.entry e).status = .blocked) :
    (optStr (δ.entry e).decisionOwner).truthy = true := by
  have hoperator : (optStr (some "operator")).truthy = true := by decide
  cases hturn with
  | unmet _ => exact hoperator
  | ran _ hrun =>
      cases hrun with
      | committed _ => exact he hblocked
      | conflict _ _ => exact hoperator
      | crashed _ _ _ _ => simp [crashDelta] at hblocked
      | succeeded => simp [successDelta, completeEntry] at hblocked
      | failed _ _ _ _ _ => exact hoperator

omit [PyRuntime] in
lemma evidenceChange_evidenced (evidenceId : Option String) {e : TaskEntry}
    (he : e.acceptance.result = .pass → e.evidenceRefs ≠ []) :
    (evidenceChange evidenceId e).acceptance.result = .pass →
      (evidenceChange evidenceId e).evidenceRefs ≠ [] := by
  cases evidenceId with
  | none => exact he
  | some i => simp [evidenceChange]

/-- A turn accepts a task with evidence only. -/
lemma Turn.evidenced (hturn : Turn h cfg node taskId completed L r δ fx) {e : TaskEntry}
    (he : e.acceptance.result = .pass → e.evidenceRefs ≠ []) :
    (δ.entry e).acceptance.result = .pass → (δ.entry e).evidenceRefs ≠ [] := by
  cases hturn with
  | unmet _ => exact he
  | ran _ hrun =>
      cases hrun with
      | committed _ => exact he
      | conflict _ _ => exact he
      | crashed _ _ _ _ => exact he
      | succeeded => exact evidenceChange_evidenced _ he
      | failed _ _ _ _ _ => exact he

/-- The blockers of a turn are the operator's. -/
lemma Turn.owners (hturn : Turn h cfg node taskId completed L r δ fx) :
    ∀ b ∈ δ.blockers, b.decisionOwner ≠ "" := by
  cases hturn with
  | unmet _ => simp [blockDelta]
  | ran _ hrun =>
      cases hrun with
      | committed _ => simp
      | conflict _ _ => simp [blockDelta]
      | crashed _ _ _ _ => simp [crashDelta]
      | succeeded => simp [successDelta]
      | failed _ _ _ _ _ => simp [failureDelta]

/-- A turn leases its task at most once, and when no other lease of the task is active. -/
lemma Turn.leased (hturn : Turn h cfg node taskId completed L r δ fx) : δ.leases = []
    ∨ ∃ l now, δ.leases = [l] ∧ l.taskId = taskId
      ∧ canAcquire L.agentLeases taskId now = true := by
  cases hturn with
  | unmet _ => exact Or.inl rfl
  | ran _ hrun =>
      cases hrun with
      | committed _ => exact Or.inl rfl
      | conflict _ _ => exact Or.inl rfl
      | crashed _ hfree _ _ => exact Or.inr ⟨_, _, rfl, rfl, hfree⟩
      | succeeded _ hfree => exact Or.inr ⟨_, _, rfl, rfl, hfree⟩
      | failed _ hfree _ _ _ => exact Or.inr ⟨_, _, rfl, rfl, hfree⟩

/-- **A turn keeps a ledger well.** -/
lemma WellKept.turn (hL : WellKept L) (hturn : Turn h cfg node taskId completed L r δ fx) :
    WellKept (L.apply taskId δ) where
  firsts := hL.firsts.updateFirst _ hturn.entry_taskId
  source := hL.source
  scope := hL.scope
  owned := by
    intro t ht hblocked
    rcases mem_updateFirst ht with hin | ⟨x, hx, -, rfl⟩
    · exact hL.owned t hin hblocked
    · exact hturn.owned (hL.owned x hx) hblocked
  evidenced := by
    intro t ht
    rcases mem_updateFirst ht with hin | ⟨x, hx, -, rfl⟩
    · exact hL.evidenced t hin
    · exact hturn.evidenced (hL.evidenced x hx)
  owners := by
    intro b hb
    rcases List.mem_append.mp hb with hin | hin
    · exact hL.owners b hin
    · exact hturn.owners b hin
  unexpiring := hturn.noExpiry hL.unexpiring
  leased := by
    rw [Ledger.apply_agentLeases]
    rcases hturn.leased with hnone | ⟨l, now, hone, rfl, hfree⟩
    · rw [hnone, List.append_nil]
      exact hL.leased
    · rw [hone, List.pairwise_append]
      refine ⟨hL.leased, List.pairwise_singleton _ _, fun a ha b hb hsame hopen => ?_⟩
      rw [List.mem_singleton.mp hb] at hsame
      have hreleased := (canAcquire_iff hL.unexpiring _ now).mp hfree a ha hsame
      rw [hopen] at hreleased
      cases hreleased
  counted := hL.counted
  events := by
    intro e he
    rw [bodies_apply, List.mem_append] at he
    rcases he with he | he
    · exact hL.events e he
    · exact hturn.ofScope e he
  chained := (extends_foldl _ _).chained hL.chained
  landed := hL.landed

end Turn

/-! ### The other steps -/

omit [PyRuntime] in
/-- An accepted manifest names its source. -/
lemma accepted_source {m : Manifest} (h : m.Accepted) : m.control.sourceIplan.truthy = true
    ∧ m.control.sourceIplanVersion.truthy = true
    ∧ m.control.sourceIplanChecksum.truthy = true := by
  obtain ⟨fs, hfs, hst⟩ := h
  rw [statusOf_ne_fail_iff] at hst
  rw [validateIntake] at hfs
  obtain ⟨_, -, hfs⟩ := except_bind_eq_ok.mp hfs
  obtain ⟨_, -, hfs⟩ := except_bind_eq_ok.mp hfs
  dsimp only at hfs
  by_cases hhash : (m.taskGraph.any fun t => !t.taskId.hashable) = true
  · rw [if_pos hhash] at hfs
    simp [throw, throwThe, MonadExceptOf.throw, bind, Except.bind] at hfs
  rw [if_neg hhash] at hfs
  obtain ⟨_, -, hfs⟩ := except_bind_eq_ok.mp hfs
  by_contra hmissing
  have hcond : ¬ (m.control.sourceIplan.truthy && m.control.sourceIplanVersion.truthy
      && m.control.sourceIplanChecksum.truthy) = true := by
    simpa [and_assoc] using hmissing
  rw [if_neg hcond] at hfs
  have hfind : finding .intakeSourceMissing "source IPLAN id/version/checksum missing" ∈ fs := by
    cases hfs
    simp
  exact absurd rfl (hst _ hfind)

/-- A new ledger is well kept. -/
lemma WellKept.start {m : Manifest} {L : Ledger} (hstart : startLedger m = .ok L) : WellKept L := by
  have hnew := startLedger_new hstart
  have haccepted := startLedger_accepted hstart
  obtain ⟨hpending, -⟩ := startLedger_entries hstart
  exact
    { firsts := firstsOnly_pending hpending
      source := by
        rw [hnew.source, hnew.version, hnew.checksum]
        exact accepted_source haccepted
      scope := by
        rw [hnew.scope]
        exact scopeOk_of_accepted haccepted
      owned := by
        intro t ht hblocked
        rw [hpending t ht] at hblocked
        cases hblocked
      evidenced := by
        intro t ht hpass
        rw [startLedger_unproven hstart t ht] at hpass
        cases hpass
      owners := by
        rw [hnew.blockers]
        simp
      unexpiring := by
        rw [NoExpiry, hnew.leases]
        simp
      leased := by
        rw [hnew.leases]
        exact List.Pairwise.nil
      counted := by
        intro hallowed
        rw [hnew.disallowed] at hallowed
        cases hallowed
      events := by
        rw [Ledger.bodies, hnew.log]
        simp
      chained := by
        rw [hnew.log]
        trivial
      landed := by
        intro hlanding
        rw [hnew.unlanded] at hlanding
        cases hlanding }

omit [PyRuntime] in
/-- The source of a ledger survives its reconciliation. -/
lemma reconcile_source (L : Ledger) : (reconcile L).control.sourceIplan = L.control.sourceIplan
    ∧ (reconcile L).control.sourceIplanVersion = L.control.sourceIplanVersion
    ∧ (reconcile L).control.sourceIplanChecksum = L.control.sourceIplanChecksum
    ∧ (reconcile L).control.requiresLanding = L.control.requiresLanding := by
  rw [reconcile]
  dsimp only
  split_ifs <;> exact ⟨rfl, rfl, rfl, rfl⟩

/-- A reconciliation keeps a ledger well: it allows completion when both its counts are zero. -/
lemma WellKept.reconcile {L : Ledger} (hL : WellKept L) : WellKept (reconcile L) := by
  obtain ⟨hsource, hversion, hchecksum, hlanding⟩ := reconcile_source L
  refine
    { hL with
      source := ?_
      counted := fun hallowed => ?_
      landed := fun hrequired => ?_ }
  · rw [hsource, hversion, hchecksum]
    exact hL.source
  · simpa [IplanRunner.reconcile] using hallowed
  · rw [hlanding] at hrequired
    exact hL.landed hrequired

/-- An override keeps a ledger well. -/
lemma WellKept.override {L : Ledger} (hL : WellKept L) (b : Blocker) :
    WellKept (L.override b) := by
  refine
    { hL with
      firsts := hL.firsts.map (fun e => by split <;> rfl) fun e => by split <;> simp
      owned := fun t ht hblocked => ?_
      evidenced := fun t ht hpass => ?_
      owners := fun b' hb' => hL.owners b' (List.mem_filter.mp hb').1 }
  · obtain ⟨x, hx, rfl⟩ := List.mem_map.mp ht
    split at hblocked
    · cases hblocked
    · rename_i hother
      rw [if_neg hother]
      exact hL.owned x hx hblocked
  · obtain ⟨x, hx, rfl⟩ := List.mem_map.mp ht
    split at hpass
    · rename_i hnamed
      rw [if_pos hnamed]
      exact hL.evidenced x hx hpass
    · rename_i hother
      rw [if_neg hother]
      exact hL.evidenced x hx hpass

/-- A logged event of the scope keeps a ledger well. -/
lemma WellKept.log {L L' : Ledger} (hL : WellKept L) {e : EventBody}
    (he : e.OfScope L.isolationScope) (hscope : L'.isolationScope = L.isolationScope)
    (hlog : L'.executionLog = appendEvent L.executionLog e) :
    (∀ e ∈ L'.bodies, e.OfScope L'.isolationScope) ∧ Chained L'.executionLog := by
  refine ⟨fun e' he' => ?_, ?_⟩
  · rw [Ledger.bodies, hlog, appendEvent_map_body, List.mem_append, List.mem_singleton] at he'
    rw [hscope]
    rcases he' with hin | rfl
    · exact hL.events e' hin
    · exact he
  · rw [hlog]
    exact (extends_appendEvent _ _).chained hL.chained

/-- **What the program keeps right survives every step of a history.** -/
lemma wellKept_history : HistoryInvariant (fun _ => True) (fun _ _ => True) WellKept where
  start := fun _ hstart => .start hstart
  turn := fun _ _ _ _ _ hturn hL => hL.turn hturn
  state := fun _ hL => { hL with source := hL.source, landed := hL.landed }
  reconcile := fun hL => hL.reconcile
  override := fun _ _ hL => hL.override _
  record := by
    intro L resolution subject hL
    have hevent : (resolutionEvent L.isolationScope subject resolution.atTime).OfScope
        L.isolationScope := ⟨rfl, rfl, [], rfl⟩
    obtain ⟨hevents, hchained⟩ := hL.log hevent
      (show (L.recordResolution resolution subject).isolationScope = _ from rfl) rfl
    exact { hL with events := hevents, chained := hchained }

/-- A landing keeps a ledger well. -/
lemma WellKept.recordCommit {L : Ledger} (hL : WellKept L) (branch : String) (commit : Commit) :
    WellKept (L.recordCommit branch commit) := by
  have hevent : (landingEvent L.isolationScope commit.atTime commit.touchedPaths).OfScope
      L.isolationScope := ⟨rfl, rfl, _, rfl⟩
  obtain ⟨hevents, hchained⟩ := hL.log hevent
    (show (L.recordCommit branch commit).isolationScope = _ from rfl) rfl
  refine { hL with events := hevents, chained := hchained, landed := fun _ => ?_ }
  exact ⟨_, rfl, by simp⟩

/-- Signing keeps a ledger well. -/
lemma WellKept.sign {L : Ledger} (hL : WellKept L) (key : String) : WellKept (L.sign key).2 := by
  refine
    { hL with
      events := ?_
      chained := (extends_sign key _).chained hL.chained }
  rw [bodies_sign]
  exact hL.events

/-- What is done to a well-kept ledger keeps it well. -/
lemma WellKept.later {L L' : Ledger} (hL : WellKept L) (hlater : Later L L') : WellKept L' := by
  cases hlater with
  | resume h cfg manifest s =>
      obtain ⟨r, state, L', fx, w, hdrive, hexec, -⟩ := resume_spec h cfg manifest s
      have hexact : Exact (completedIds s.ledger) (s.ledger.setRunState .running) :=
        hL.firsts.mem_completedIds
      rw [hexec]
      exact hdrive.invariant wellKept_history trivial hexact (wellKept_history.state _ hL)
  | resolve hres =>
      obtain ⟨resolution, subject, ⟨rfl, -⟩ | ⟨-, b, -, rfl⟩⟩ := resolveBlocker_cases hres
      · exact wellKept_history.record _ _ hL
      · exact wellKept_history.record _ _ (hL.override b)
  | land h repo branch message gate s =>
      rcases land_ledger h repo branch message gate s with hkeep | ⟨commit, -, hcommit⟩
      · rwa [hkeep]
      · rw [hcommit]
        exact hL.recordCommit branch commit
  | sign L key => exact hL.sign key

/-- **Every ledger is well kept during its lifetime.** -/
theorem Lived.wellKept {L : Ledger} (hL : Lived L) : WellKept L := by
  induction hL with
  | run hrun =>
      have hreached : Reached (fun _ => True) (fun _ _ => True) _ := .run trivial hrun
      exact hreached.invariant wellKept_history
  | later _ hlater ih => exact ih.later hlater

/-! ### What the validator finds -/

omit [PyRuntime] in
lemma sourceFindings_of {control : LedgerControl} (hiplan : control.sourceIplan.truthy = true)
    (hversion : control.sourceIplanVersion.truthy = true)
    (hchecksum : control.sourceIplanChecksum.truthy = true) :
    sourceFindings control.toVal = .ok [] := by
  have hget : control.toVal.get "source_iplan" = .ok control.sourceIplan
      ∧ control.toVal.get "source_iplan_version" = .ok control.sourceIplanVersion
      ∧ control.toVal.get "source_iplan_checksum" = .ok control.sourceIplanChecksum :=
    ⟨rfl, rfl, rfl⟩
  rw [sourceFindings, allPresent, hget.1, hget.2.1, hget.2.2, ok_bind, hiplan, ok_bind, hversion,
    ok_bind, hchecksum]
  rfl

/-- The findings about a completed task. -/
def completionFindings (evidence : List Dict) (t : TaskEntry) : List Finding :=
  if t.status = .completed then
    (if hasEvidence (.list (evidence.map .dict)) t.toVal = .ok true then [] else
      [finding .ledgerEvidenceRequired s!"completed task {t.taskId.pyStr} has no evidence"])
    ++ (if t.acceptance.result = .pass then [] else
      [finding .ledgerAcceptanceWeak
        s!"completed task {t.taskId.pyStr} acceptance is not pass"])
  else []

/-- A task that is owned when it is blocked has findings only when it is completed. -/
lemma taskFindings_of {evidence : List Dict} {t : TaskEntry} {zs : List Finding}
    (howned : t.status = .blocked → (optStr t.decisionOwner).truthy = true)
    (h : taskFindings (.list (evidence.map .dict)) t.toVal = .ok zs) :
    zs = completionFindings evidence t := by
  rw [taskFindings] at h
  obtain ⟨done, hdone, h⟩ := except_bind_eq_ok.mp h
  obtain ⟨stuck, hstuck, h⟩ := except_bind_eq_ok.mp h
  cases h
  rw [ifStatus, show "completed" = TaskStatus.completed.text from rfl, statusIs_toVal,
    ok_bind] at hdone
  rw [ifStatus, show "blocked" = TaskStatus.blocked.text from rfl, statusIs_toVal,
    ok_bind] at hstuck
  have hnone : stuck = [] := by
    by_cases hst : t.status = .blocked
    · have hget : t.toVal.get "decision_owner" = .ok (optStr t.decisionOwner) := rfl
      rw [decide_eq_true hst, if_pos rfl, blockedFindings, hget, ok_bind, howned hst,
        if_pos rfl] at hstuck
      cases hstuck
      rfl
    · rw [decide_eq_false hst, if_neg (by simp)] at hstuck
      cases hstuck
      rfl
  rw [hnone, List.append_nil, completionFindings]
  by_cases hst : t.status = .completed
  · rw [decide_eq_true hst, if_pos rfl, completedFindings] at hdone
    obtain ⟨taskId, hid, hdone⟩ := except_bind_eq_ok.mp hdone
    obtain rfl : t.taskId = taskId := Except.ok.inj hid
    obtain ⟨ok, hok, hdone⟩ := except_bind_eq_ok.mp hdone
    obtain ⟨pass, hpass, hdone⟩ := except_bind_eq_ok.mp hdone
    rw [acceptancePass_toVal] at hpass
    cases hpass
    cases hdone
    rw [if_pos hst, hok]
    cases ok <;> simp
  · rw [decide_eq_false hst, if_neg (by simp)] at hdone
    cases hdone
    rw [if_neg hst]

omit [PyRuntime] in
/-- An event of the scope is of no other scope. -/
lemma eventInScope_of {scope : Dict} {e : Event} (he : e.toEventBody.OfScope scope) :
    eventInScope e.toVal (Dict.get scope "client_id") (Dict.get scope "project_id")
      = .ok true := by
  have hclient : e.clientId = Dict.get scope "client_id" := he.client
  have hproject : e.projectId = Dict.get scope "project_id" := he.project
  rw [eventInScope, Event.get_client, ok_bind, hclient, Val.pyEq_refl, Event.get_project, ok_bind,
    hproject, Val.pyEq_refl]
  rfl

/-- An event of the scope is clean when its paths are in the roots. -/
lemma eventClean_of {scope : Dict} {e : Event} (he : e.toEventBody.OfScope scope) :
    EventClean scope e ↔ ∀ p ∈ e.paths, InRoots scope p := by
  obtain ⟨ps, hps⟩ := he.paths
  have hpaths : e.touchedPaths.iter = .ok ps := by
    rw [show e.touchedPaths = .list ps from hps]
    rfl
  rw [EventClean, touchesOutside_eq_false hpaths, and_iff_left (eventInScope_of he)]
  rfl

/-- The finding about paths outside the roots. -/
def pathFinding : Finding :=
  finding .isolationPathOutsideRoots "an event touched a path outside allowed_roots"

omit [PyRuntime] in
/-- The default gate hears every finding about paths outside the roots. -/
lemma pathFindings_eq_nil_iff {fs : List Finding} (h : ∀ f ∈ fs, f = pathFinding) :
    fs = [] ↔ Silent fs := by
  refine ⟨fun hfs => hfs ▸ silent_nil, fun hfs => ?_⟩
  refine List.eq_nil_iff_forall_not_mem.mpr fun f hf => hfs f hf ?_
  rw [h f hf, defaultGate_references]
  simp [pathFinding]

/-- About events of the scope the log is searched for paths outside the roots only. -/
lemma logFindings_of {scope : Dict} {log : List Event} {fs : List Finding}
    (hscope : ∀ e ∈ log, e.toEventBody.OfScope scope)
    (h : logFindings (.dict scope) (log.map Event.toVal) = .ok fs) :
    (∀ f ∈ fs, f = pathFinding)
      ∧ (fs = [] ↔ ∀ e ∈ log, ∀ p ∈ e.paths, InRoots scope p) := by
  have hclean := silent_log h
  rw [logFindings] at h
  obtain ⟨roots, -, h⟩ := except_bind_eq_ok.mp h
  obtain ⟨client, hclient, h⟩ := except_bind_eq_ok.mp h
  obtain ⟨project, hproject, h⟩ := except_bind_eq_ok.mp h
  obtain ⟨seen, hseen, h⟩ := except_bind_eq_ok.mp h
  cases h
  have hinside : seen.any Prod.snd = false := by
    rw [List.any_eq_false]
    rintro ⟨violation, outside⟩ hy
    obtain ⟨event, hevent, zs, hzs, hyz⟩ := ((collect_eq_ok hseen).2 _).mp hy
    obtain ⟨e, he, rfl⟩ := List.mem_map.mp hevent
    obtain ⟨v, -, hzs⟩ := except_bind_eq_ok.mp hzs
    rw [← dictGet_of_item hclient, ← dictGet_of_item hproject, eventInScope_of (hscope e he),
      ok_bind] at hzs
    cases hzs
    cases List.mem_singleton.mp hyz
    simp
  rw [hinside] at hclean ⊢
  simp only [Bool.false_eq_true, if_false, List.append_nil] at hclean ⊢
  have hpath : ∀ f ∈ (if seen.any Prod.fst then [pathFinding] else []), f = pathFinding := by
    intro f hf
    split_ifs at hf
    · exact List.mem_singleton.mp hf
    · cases hf
  refine ⟨hpath, ?_⟩
  calc _ ↔ Silent _ := pathFindings_eq_nil_iff hpath
    _ ↔ ∀ e ∈ log, EventClean scope e := hclean
    _ ↔ _ := forall₂_congr fun e he => eventClean_of (hscope e he)

/-- No two leases of a well-kept ledger overlap. -/
lemma WellKept.leaseFindings {L : Ledger} (hL : WellKept L) :
    leaseFindings (L.agentLeases.map Lease.toVal) = .ok [] := by
  rw [leaseFindings_eq, map_toVal_leases, overlapsBy_eq_nil_iff, LeasesApart, List.pairwise_map]
  refine hL.leased.imp fun {a b} hab hopen _ hsame => ?_
  have hid : (Val.str a.taskId).pyStr = (Val.str b.taskId).pyStr := hsame
  rw [Val.pyStr_str, Val.pyStr_str] at hid
  exact absurd hopen (hab hid)

omit [PyRuntime] in
/-- The only finding about a landing is of the default gate. -/
lemma landing_eq_nil {document control : Val} {fs : List Finding}
    (h : landingFindings document control = .ok fs) (hsilent : Silent fs) : fs = [] := by
  rw [landingFindings] at h
  obtain ⟨required, -, h⟩ := except_bind_eq_ok.mp h
  split at h
  · cases h
    rfl
  · obtain ⟨vcs, -, h⟩ := except_bind_eq_ok.mp h
    obtain ⟨commits, -, h⟩ := except_bind_eq_ok.mp h
    split at h
    · cases h
      rfl
    · cases h
      exact absurd (hsilent _ (List.mem_singleton_self _)) (by simp [defaultGate_references])

/-- **In a well-kept ledger** only the sections about completed tasks and about touched paths find
anything. -/
theorem Judgement.of_wellKept {L : Ledger} (hL : WellKept L) (j : Judgement L.toDoc) :
    j.findings = j.tasks ++ j.isolation
      ∧ (∀ f, f ∈ j.tasks ↔ ∃ t ∈ L.taskLedger, f ∈ completionFindings L.executionEvidence t)
      ∧ (∀ f ∈ j.isolation, f = pathFinding)
      ∧ (j.isolation = [] ↔ ∀ e ∈ L.executionLog, ∀ p ∈ e.paths, InRoots L.isolationScope p) := by
  obtain ⟨control, scope, ok, evidence, taskList, blockerList, leaseList, recDict, log, source,
    tasks, blockers, leases, rec, isolation, chain, landing, hcontrol, hsource, hscope, hok,
    hevidence, htaskList, htasks, hblockerList, hblockers, hleaseList, hleases, hrecDict, hrec,
    hlog, hisolation, hchain, hlanding⟩ := j
  cases (toDoc_control L).symm.trans hcontrol
  cases (toDoc_scope L).symm.trans hscope
  cases (toDoc_evidence L).symm.trans hevidence
  cases (toDoc_tasks L).symm.trans htaskList
  cases (toDoc_blockers L).symm.trans hblockerList
  cases (toDoc_leases L).symm.trans hleaseList
  cases (toDoc_reconciliation L).symm.trans hrecDict
  cases (toDoc_log L).symm.trans hlog
  cases hL.scope.symm.trans hok
  cases (sourceFindings_of hL.source.1 hL.source.2.1 hL.source.2.2).symm.trans hsource
  cases hL.leaseFindings.symm.trans hleases
  have hblocker : blockers = [] := by
    refine List.eq_nil_iff_forall_not_mem.mpr fun f hf => ?_
    obtain ⟨x, hx, gs, hgs, hfg⟩ := ((collect_eq_ok hblockers).2 f).mp hf
    obtain ⟨b, hb, rfl⟩ := List.mem_map.mp hx
    have hget : b.toVal.get "decision_owner" = .ok (.str b.decisionOwner) := rfl
    have htruthy : (Val.str b.decisionOwner).truthy = true := by
      simpa [Val.truthy] using hL.owners b hb
    rw [blockerFindings, hget, ok_bind, htruthy, if_pos rfl] at hgs
    cases hgs
    cases hfg
  have hreconciled : rec = [] := by
    have hallowed : L.reconciliation.toVal.get "allowed"
        = .ok (.bool L.reconciliation.allowed) := rfl
    rw [reconciliationFindings, hallowed, ok_bind] at hrec
    cases hyes : L.reconciliation.allowed with
    | false =>
        rw [hyes] at hrec
        cases hrec
        rfl
    | true =>
        obtain ⟨hpending, hopen⟩ := hL.counted hyes
        rw [Reconciliation.toVal, hpending, hopen, hyes] at hrec
        cases hrec
        rfl
  have hchained : chain = [] := by
    rw [chainFindings] at hchain
    obtain ⟨b, hb, hchain⟩ := except_bind_eq_ok.mp hchain
    have hverified : verifyChain (L.executionLog.map Event.toVal) = .ok true :=
      (verifyChain_toVal _).mpr hL.chained
    cases hverified.symm.trans hb
    cases hchain
    rfl
  have hlanded : landing = [] := by
    exact landing_eq_nil hlanding ((silent_landing hlanding).mpr hL.landed)
  rw [isolationFindings, if_pos rfl] at hisolation
  have hlogged := logFindings_of (fun e he => hL.events _ (List.mem_map_of_mem he)) hisolation
  refine ⟨?_, fun f => ?_, hlogged⟩
  · simp [Judgement.findings, Judgement.missing, hblocker, hreconciled, hchained, hlanded]
  · obtain ⟨hall, hmem⟩ := collect_eq_ok htasks
    rw [hmem]
    constructor
    · rintro ⟨x, hx, zs, hzs, hf⟩
      obtain ⟨t, ht, rfl⟩ := List.mem_map.mp hx
      exact ⟨t, ht, taskFindings_of (hL.owned t ht) hzs ▸ hf⟩
    · rintro ⟨t, ht, hf⟩
      obtain ⟨zs, hzs⟩ := hall t.toVal (List.mem_map_of_mem ht)
      exact ⟨t.toVal, List.mem_map_of_mem ht, zs, hzs, taskFindings_of (hL.owned t ht) hzs ▸ hf⟩

/-! ### The verdict over a lifetime -/

/-- Some completed task has not passed its acceptance. -/
def Ledger.Unproven (L : Ledger) : Prop :=
  ∃ t ∈ L.taskLedger, t.status = .completed ∧ t.acceptance.result ≠ .pass

/-- Some touched path is outside the roots. -/
def Ledger.Strayed (L : Ledger) : Prop :=
  ∃ e ∈ L.executionLog, ∃ p ∈ e.paths, ¬ InRoots L.isolationScope p

/-- Where acceptance goes with evidence, evidence is required of what is not accepted only. -/
lemma WellKept.hasEvidence {L : Ledger} (hL : WellKept L) {t : TaskEntry} (ht : t ∈ L.taskLedger)
    (hpass : t.acceptance.result = .pass) :
    hasEvidence (.list (L.executionEvidence.map .dict)) t.toVal = .ok true := by
  have hrefs : t.toVal.get "evidence_refs" = .ok (strList t.evidenceRefs) := rfl
  have htruthy : (strList t.evidenceRefs).truthy = true := by
    have hsome := hL.evidenced t ht hpass
    cases hrefs : t.evidenceRefs with
    | nil => exact absurd hrefs hsome
    | cons r rs => rfl
  rw [IplanRunner.hasEvidence, hrefs, ok_bind, htruthy]
  rfl

/-- The rules about a completed task that is accepted are silent, and one speaks about one that is
not. -/
lemma WellKept.completionFindings {L : Ledger} (hL : WellKept L) {t : TaskEntry}
    (ht : t ∈ L.taskLedger) {f : Finding} (hf : f ∈ completionFindings L.executionEvidence t) :
    (t.status = .completed ∧ t.acceptance.result ≠ .pass)
      ∧ ∃ rule message, f = finding rule message
        ∧ (rule = .ledgerEvidenceRequired ∨ rule = .ledgerAcceptanceWeak) := by
  rw [IplanRunner.completionFindings] at hf
  split_ifs at hf with hdone hevidence hpass hpass
  · cases hf
  · exact ⟨⟨hdone, hpass⟩, _, _, List.mem_singleton.mp hf, Or.inr rfl⟩
  · exact absurd (hL.hasEvidence ht hpass) hevidence
  · rcases List.mem_append.mp hf with hin | hin
    · exact ⟨⟨hdone, hpass⟩, _, _, List.mem_singleton.mp hin, Or.inl rfl⟩
    · exact ⟨⟨hdone, hpass⟩, _, _, List.mem_singleton.mp hin, Or.inr rfl⟩
  · cases hf

/-- **What the validator finds in a well-kept ledger**: the rules about a completed task speak when
one has not passed its acceptance, and the one about paths when one is outside the roots. -/
structure Finds (L : Ledger) (fs : List Finding) : Prop where
  found : ∀ f ∈ fs, (L.Unproven ∧ ∃ rule message, f = finding rule message
    ∧ (rule = .ledgerEvidenceRequired ∨ rule = .ledgerAcceptanceWeak))
    ∨ L.Strayed ∧ f = pathFinding
  weak : L.Unproven → ∃ f ∈ fs, f.ruleId = .ledgerAcceptanceWeak
  strayed : L.Strayed → ∃ f ∈ fs, f.ruleId = .isolationPathOutsideRoots

lemma WellKept.finds {L : Ledger} (hL : WellKept L) (j : Judgement L.toDoc) :
    Finds L j.findings := by
  obtain ⟨hsections, htasks, hpaths, hclean⟩ := Judgement.of_wellKept hL j
  have hstray : L.Strayed ↔ j.isolation ≠ [] := by
    rw [Ne, hclean, Ledger.Strayed]
    push Not
    rfl
  refine ⟨fun f hf => ?_, ?_, fun hstrayed => ?_⟩
  · rw [hsections] at hf
    rcases List.mem_append.mp hf with hin | hin
    · obtain ⟨t, ht, hin⟩ := (htasks f).mp hin
      obtain ⟨hunproven, hrule⟩ := hL.completionFindings ht hin
      exact Or.inl ⟨⟨t, ht, hunproven⟩, hrule⟩
    · exact Or.inr ⟨hstray.mpr (List.ne_nil_of_mem hin), hpaths f hin⟩
  · rintro ⟨t, ht, hdone, hpass⟩
    refine ⟨finding .ledgerAcceptanceWeak
      s!"completed task {t.taskId.pyStr} acceptance is not pass", ?_, rfl⟩
    rw [hsections]
    refine List.mem_append_left _ ((htasks _).mpr ⟨t, ht, ?_⟩)
    rw [IplanRunner.completionFindings, if_pos hdone, if_neg hpass]
    exact List.mem_append_right _ (List.mem_singleton_self _)
  · obtain ⟨f, hf⟩ := List.exists_mem_of_ne_nil _ (hstray.mp hstrayed)
    refine ⟨f, ?_, by rw [hpaths f hf]; rfl⟩
    rw [hsections]
    exact List.mem_append_right _ hf

lemma Finds.rules {L : Ledger} {fs : List Finding} (h : Finds L fs) :
    ∀ f ∈ fs, f.severity = .error ∧ defaultGate.references f.ruleId := by
  intro f hf
  rcases h.found f hf with ⟨-, rule, message, rfl, hrule⟩ | ⟨-, rfl⟩
  · rcases hrule with rfl | rfl <;> exact ⟨rfl, (defaultGate_references _).mpr (by simp)⟩
  · exact ⟨rfl, (defaultGate_references _).mpr (by simp [pathFinding])⟩

lemma Finds.bad_iff {L : Ledger} {fs : List Finding} (h : Finds L fs) :
    L.Unproven ∨ L.Strayed ↔ fs ≠ [] := by
  constructor
  · rintro (hunproven | hstrayed)
    · obtain ⟨f, hf, -⟩ := h.weak hunproven
      exact List.ne_nil_of_mem hf
    · obtain ⟨f, hf, -⟩ := h.strayed hstrayed
      exact List.ne_nil_of_mem hf
  · intro hsome
    obtain ⟨f, hf⟩ := List.exists_mem_of_ne_nil _ hsome
    exact (h.found f hf).imp And.left And.left

/-- **The default gate passes** exactly when every completed task has passed its acceptance and no
touched path is outside the roots. -/
lemma WellKept.gate_passed_iff {L : Ledger} (hL : WellKept L) {g : GateResult}
    (hg : runGate L.toDoc defaultGate = .ok g) :
    g.status = .passed ↔ ¬ L.Unproven ∧ ¬ L.Strayed := by
  rw [runGate] at hg
  obtain ⟨fs, hfs, hg⟩ := except_bind_eq_ok.mp hg
  obtain ⟨j, rfl⟩ := validateLedger_eq_ok_iff.mp hfs
  have hfinds := hL.finds j
  cases hg
  rw [← not_or, hfinds.bad_iff, not_not, gateVerdict_passed_iff]
  constructor
  · intro hsilent
    refine List.eq_nil_iff_forall_not_mem.mpr fun f hf => ?_
    exact hsilent _ (List.mem_map_of_mem hf) (hfinds.rules f hf).2
  · intro hnil
    rw [hnil]
    simp

/-- **What can be wrong with a ledger during its lifetime.**  From its run, through resumes on any
manifests, decisions, landings and signatures in any order, `validate_ledger` finds nothing but
`EVIDENCE_REQUIRED`, `ACCEPTANCE_WEAK` and `PATH_OUTSIDE_ROOTS`: the second exactly when a completed
task has not passed its acceptance, the first only then, and the third exactly when a touched path
is outside the roots.  The document fails, and the default gate with it, exactly in these two
cases. -/
theorem lifetime_findings {L : Ledger} (hL : Lived L) {fs : List Finding}
    (h : validateLedger L.toDoc = .ok fs) :
    (∀ f ∈ fs, f.ruleId = .ledgerEvidenceRequired ∨ f.ruleId = .ledgerAcceptanceWeak
        ∨ f.ruleId = .isolationPathOutsideRoots)
      ∧ ((∃ f ∈ fs, f.ruleId = .ledgerAcceptanceWeak) ↔ L.Unproven)
      ∧ ((∃ f ∈ fs, f.ruleId = .ledgerEvidenceRequired) → L.Unproven)
      ∧ ((∃ f ∈ fs, f.ruleId = .isolationPathOutsideRoots) ↔ L.Strayed)
      ∧ (statusOf fs = .fail ↔ L.Unproven ∨ L.Strayed)
      ∧ ∀ g, runGate L.toDoc defaultGate = .ok g →
        (g.status = .passed ↔ ¬ L.Unproven ∧ ¬ L.Strayed) := by
  obtain ⟨j, rfl⟩ := validateLedger_eq_ok_iff.mp h
  have hfinds := hL.wellKept.finds j
  refine ⟨fun f hf => ?_, ⟨?_, hfinds.weak⟩, ?_, ⟨?_, hfinds.strayed⟩, ?_,
    fun g hg => hL.wellKept.gate_passed_iff hg⟩
  · rcases hfinds.found f hf with ⟨-, rule, message, rfl, hrule⟩ | ⟨-, rfl⟩
    · exact hrule.imp id Or.inl
    · exact Or.inr (Or.inr rfl)
  · rintro ⟨f, hf, hrule⟩
    rcases hfinds.found f hf with ⟨hunproven, -⟩ | ⟨-, rfl⟩
    · exact hunproven
    · cases hrule
  · rintro ⟨f, hf, hrule⟩
    rcases hfinds.found f hf with ⟨hunproven, -⟩ | ⟨-, rfl⟩
    · exact hunproven
    · cases hrule
  · rintro ⟨f, hf, hrule⟩
    rcases hfinds.found f hf with ⟨-, rule, message, rfl, rfl | rfl⟩ | ⟨hstrayed, -⟩
    · cases hrule
    · cases hrule
    · exact hstrayed
  · rw [hfinds.bad_iff, ← not_iff_not, not_not, ← ne_eq, statusOf_ne_fail_iff]
    refine ⟨fun hpass => List.eq_nil_iff_forall_not_mem.mpr fun f hf => ?_, fun hnil => ?_⟩
    · exact hpass f hf (hfinds.rules f hf).1
    · rw [hnil]
      simp

end Runtime

section Example

attribute [local instance] cpython

/-- The ledger of a run of two tasks, as the validator judges it. -/
theorem lifetime_findings_of_pair :
    ∃ (L : Ledger) (fs : List Finding), Lived L ∧ validateLedger L.toDoc = .ok fs
      ∧ (statusOf fs = .fail ↔ L.Unproven ∨ L.Strayed) := by
  have hends : runEnds (steadyHost []) scriptConfig (scriptManifest [("T1", []), ("T2", ["T1"])])
      (.fresh []) = true := by
    decide +kernel
  obtain ⟨res, w, fx, hrun⟩ := run_of_runEnds (scriptManifest_roots _) hends
  obtain ⟨fs, hfs, -⟩ := except_bind_eq_ok.mp (run_gated hrun)
  obtain ⟨-, -, -, -, hfail, -⟩ := lifetime_findings (.run hrun) hfs
  exact ⟨res.ledger, fs, .run hrun, hfs, hfail⟩

end Example

end IplanRunner
