import IplanRunner.Orchestrator.Loop

/-!
What a turn of the run loop can do to a ledger.

* `Delta`, `Ledger.apply`: the records a turn appends and the change it makes to the entry of its
  task.
* `TaskRun`, `Turn`: every way `runTask` and `turn` can go, with their delta; `runTask_spec` and
  `turn_spec` are the only places that look inside them.
* `LoopRun`: the loop over the order as a derivation over ledgers, and `driveLoop_spec`.
-/

namespace IplanRunner

open Foundation

/-! ### Deltas -/

/-- What a turn adds to the sections of a ledger, and what becomes of the entry of its task. -/
structure Delta where
  entry : TaskEntry → TaskEntry := id
  blockers : List Blocker := []
  leases : List Lease := []
  txns : List Txn := []
  evidence : List Dict := []
  history : List HistoryEntry := []
  events : List EventBody := []

variable [PyRuntime]

/-- A ledger after a turn. -/
@[simps] def Ledger.apply (L : Ledger) (taskId : String) (δ : Delta) : Ledger :=
  { L with
    taskLedger := updateFirst (·.named taskId) δ.entry L.taskLedger
    blockers := L.blockers ++ δ.blockers
    agentLeases := L.agentLeases ++ δ.leases
    sagaJournal := L.sagaJournal ++ δ.txns
    executionEvidence := L.executionEvidence ++ δ.evidence
    executionHistory := L.executionHistory ++ δ.history
    executionLog := δ.events.foldl appendEvent L.executionLog }

@[simp] lemma Ledger.apply_empty (L : Ledger) (taskId : String) : L.apply taskId {} = L := by
  simp [Ledger.apply]

/-- The events of a log, before they were chained. -/
def Ledger.bodies (L : Ledger) : List EventBody := L.executionLog.map (·.toEventBody)

lemma foldl_appendEvent_bodies (events : List EventBody) (log : List Event) :
    (events.foldl appendEvent log).map (·.toEventBody) = log.map (·.toEventBody) ++ events := by
  induction events generalizing log with
  | nil => simp
  | cons e rest ih => rw [List.foldl_cons, ih, appendEvent_map_body]; simp

@[simp] lemma bodies_apply (L : Ledger) (taskId : String) (δ : Delta) :
    (L.apply taskId δ).bodies = L.bodies ++ δ.events := by
  rw [Ledger.bodies, Ledger.apply_executionLog, foldl_appendEvent_bodies, Ledger.bodies]

/-- What the host answered while a task was begun. -/
structure Begun where
  leaseId : String
  txnId : String
  acquiredAt : String
  startedAt : String

/-- The lease of a begun task. -/
def Begun.lease (b : Begun) (taskId : String) (releasedAt : Val) : Lease :=
  ⟨b.leaseId, taskId, agentId, .str b.acquiredAt, .none, releasedAt⟩

/-- The transaction of a begun task. -/
def Begun.txn (b : Begun) (taskId : String) (status : TxnStatus) (attempts : Option ℕ) : Txn :=
  ⟨b.txnId, taskId, "execute", "revert", executeKey taskId, status, 600, attempts⟩

/-- The entry of a blocked task. -/
def blockEntry (reason : String) (e : TaskEntry) : TaskEntry :=
  { e with blockedReason := some reason, decisionOwner := some "operator", status := .blocked }

/-- The change of the entry that goes with recorded evidence. -/
def evidenceChange (evidenceId : Option String) (e : TaskEntry) : TaskEntry :=
  match evidenceId with
  | some i => { e with
      evidenceRefs := e.evidenceRefs ++ [i]
      acceptance := { e.acceptance with result := .pass } }
  | none => e

/-- The entry of a task that succeeded. -/
def completeEntry (evidenceId : Option String) (e : TaskEntry) : TaskEntry :=
  { evidenceChange evidenceId e with status := .completed }

/-- The `file_edited` events, `edits` pairing each path with the time it was logged at. -/
def editEvents (scope : Dict) (taskId : String) (edits : List (String × String)) :
    List EventBody :=
  edits.map fun e => loopEvent scope .fileEdited taskId e.2 [e.1]

/-- The evidence of a success, with the id it was recorded under. -/
def evidenceEntries (taskId : String) (ev : Option (String × Dict)) : List Dict :=
  (ev.map fun ev => evidenceEntry ev.1 taskId ev.2).toList

/-- A task is blocked without having been executed. -/
def blockDelta (scope : Dict) (taskId reason blockerId atTime : String)
    (fromStatus : TaskStatus) : Delta where
  entry := blockEntry reason
  blockers := [⟨blockerId, taskId, reason, "operator"⟩]
  history := [⟨atTime, taskId, fromStatus, .blocked⟩]
  events := [loopEvent scope .taskBlocked taskId atTime []]

/-- A task is begun, and the executor or its compensation raised. -/
def crashDelta (scope : Dict) (taskId : String) (b : Begun) (attempts : Option ℕ) : Delta where
  entry := fun e => { e with status := .inProgress }
  leases := [b.lease taskId .none]
  txns := [b.txn taskId .pending attempts]
  history := [⟨b.startedAt, taskId, .pending, .inProgress⟩]
  events := [loopEvent scope .taskStarted taskId b.startedAt []]

/-- A task succeeded. -/
def successDelta (scope : Dict) (taskId : String) (b : Begun) (attempts : ℕ)
    (edits : List (String × String)) (evidence : Option (String × Dict))
    (completedAt releasedAt : String) : Delta where
  entry := completeEntry (evidence.map Prod.fst)
  leases := [b.lease taskId (.str releasedAt)]
  txns := [b.txn taskId .committed (some attempts)]
  evidence := evidenceEntries taskId evidence
  history := [⟨b.startedAt, taskId, .pending, .inProgress⟩,
    ⟨completedAt, taskId, .inProgress, .completed⟩]
  events := loopEvent scope .taskStarted taskId b.startedAt [] :: editEvents scope taskId edits
    ++ [loopEvent scope .taskCompleted taskId completedAt []]

/-- The event of a compensation, when there was anything to compensate. -/
def compensationEvents (scope : Dict) (taskId atTime : String) (paths : List String) :
    List EventBody :=
  if paths = [] then [] else [loopEvent scope .compensation taskId atTime paths]

/-- The transaction of a failed task. -/
def compensateTxn (paths : List String) (txn : Txn) : Txn :=
  if paths = [] then txn else { txn with status := .compensated }

/-- A task failed, and what it touched has been compensated. -/
def failureDelta (scope : Dict) (taskId : String) (b : Begun) (attempts : ℕ)
    (result : ExecutorResult) (compensatedAt blockerId blockedAt releasedAt : String) : Delta where
  entry := blockEntry (failureReason result)
  blockers := [⟨blockerId, taskId, failureReason result, "operator"⟩]
  leases := [b.lease taskId (.str releasedAt)]
  txns := [compensateTxn result.touchedPaths (b.txn taskId .pending (some attempts))]
  history := [⟨b.startedAt, taskId, .pending, .inProgress⟩,
    ⟨blockedAt, taskId, .inProgress, .blocked⟩]
  events := loopEvent scope .taskStarted taskId b.startedAt []
    :: compensationEvents scope taskId compensatedAt result.touchedPaths
    ++ [loopEvent scope .taskBlocked taskId blockedAt []]

/-! ### One task -/

section Calls

variable {W : Type} (h : Host W) (cfg : RunConfig)

/-- The calls of one task: its executor at least once, and no other task's. -/
structure Attempts (taskId : String) (fx : List Effect) : Prop where
  executed : Effect.execute taskId ∈ fx
  only : ∀ t, Effect.execute t ∈ fx → t = taskId

omit [PyRuntime] in
/-- Calls that execute nothing may follow. -/
lemma Attempts.append {taskId : String} {fx gx : List Effect} (hfx : Attempts taskId fx)
    (hgx : ∀ t, Effect.execute t ∉ gx) : Attempts taskId (fx ++ gx) := by
  refine ⟨by simp [hfx.executed], fun t ht => ?_⟩
  rcases List.mem_append.mp ht with h1 | h1
  · exact hfx.only t h1
  · exact absurd h1 (hgx t)

/-- The result is one `execute_with_retry` can end with on the node. -/
def Final (node : TaskNode) (scope : Dict) (result : ExecutorResult) : Prop :=
  ∃ s n s', executeWithRetry h cfg node scope cfg.maxRetries 1 s = (.ok (result, n), s')

/-- The executor may raise on the node, or fail, after which its compensation may raise. -/
def MayRaise (node : TaskNode) (scope : Dict) : Prop :=
  (∃ e s s', executeWithRetry h cfg node scope cfg.maxRetries 1 s = (.error e, s'))
    ∨ ∃ result e w w', Final h cfg node scope result ∧ result.outcome ≠ .success
      ∧ h.compensate result.touchedPaths w = (.error e, w')

/-- An attempt after which no other is made: a success, a failure that is not retriable, or an
exception. -/
def Conclusive (out : Except PyErr ExecutorResult) : Prop :=
  ∀ result, out = .ok result → result.outcome = .success ∨ result.retriable = false

omit [PyRuntime] in
lemma not_conclusive_iff {out : Except PyErr ExecutorResult} : ¬ Conclusive out ↔
    ∃ result, out = .ok result ∧ result.outcome ≠ .success ∧ result.retriable = true := by
  simp [Conclusive]

/-- **An attempt ends the retries** when it is conclusive, or when none is left. -/
lemma executeWithRetry_ends (node : TaskNode) (scope : Dict) {left : ℕ} (attempt : ℕ)
    (s : Session W) (hend : left = 0 ∨ Conclusive (h.execute node scope s.world).1) :
    executeWithRetry h cfg node scope left attempt s
      = ((h.execute node scope s.world).1.map fun result => (result, attempt),
          ⟨s.ledger, (h.execute node scope s.world).2,
            s.effects ++ [.execute node.taskId.pyStr]⟩) := by
  rw [executeWithRetry]
  rcases hr : h.execute node scope s.world with ⟨e | result, w⟩
  · simp [Call.bind_apply, Loop.execute, hr, Except.map]
  · by_cases hsuccess : result.outcome = .success
    · simp [Call.bind_apply, Loop.execute, hr, hsuccess, Except.map]
    · cases left with
      | zero => simp [Call.bind_apply, Loop.execute, hr, Except.map]
      | succ left =>
          have hfinal : result.retriable = false := by
            rcases hend with hend | hend
            · cases hend
            · exact (hend result (by rw [hr])).resolve_left hsuccess
          simp [Call.bind_apply, Loop.execute, hr, hsuccess, hfinal, Except.map]

/-- **Another attempt**: one that is not conclusive is followed by a pause and the next one. -/
lemma executeWithRetry_again (node : TaskNode) (scope : Dict) (left attempt : ℕ) (s : Session W)
    (hagain : ¬ Conclusive (h.execute node scope s.world).1) :
    executeWithRetry h cfg node scope (left + 1) attempt s
      = executeWithRetry h cfg node scope left (attempt + 1)
        ⟨s.ledger, h.sleep (backoff attempt cfg.backoffBase) (h.execute node scope s.world).2,
          s.effects ++ [.execute node.taskId.pyStr, .sleep (backoff attempt cfg.backoffBase)]⟩ := by
  obtain ⟨result, hresult, hfails, hretriable⟩ := not_conclusive_iff.mp hagain
  rw [executeWithRetry]
  rcases hr : h.execute node scope s.world with ⟨r, w⟩
  obtain rfl : r = .ok result := by rw [← hresult, hr]
  simp [Call.bind_apply, Loop.execute, Loop.sleep, hr, hfails, hretriable]

/-- The retries leave the ledger alone. -/
lemma executeWithRetry_spec (node : TaskNode) (scope : Dict) (left attempt : ℕ) (s : Session W) :
    ∃ r w fx, Attempts node.taskId.pyStr fx
      ∧ executeWithRetry h cfg node scope left attempt s = (r, ⟨s.ledger, w, s.effects ++ fx⟩) := by
  have hone : Attempts node.taskId.pyStr [.execute node.taskId.pyStr] := ⟨by simp, by simp⟩
  induction left generalizing attempt s with
  | zero => exact ⟨_, _, _, hone, executeWithRetry_ends h cfg node scope attempt s (Or.inl rfl)⟩
  | succ left ih =>
      by_cases hend : Conclusive (h.execute node scope s.world).1
      · exact ⟨_, _, _, hone, executeWithRetry_ends h cfg node scope attempt s (Or.inr hend)⟩
      · rw [executeWithRetry_again h cfg node scope left attempt s hend]
        obtain ⟨r, w, fx, hfx, hrec⟩ := ih (attempt + 1) ⟨s.ledger, _, _⟩
        refine ⟨r, w, _, ⟨?_, ?_⟩, by rw [hrec, List.append_assoc]⟩
        · simp
        · intro t ht
          rcases List.mem_append.mp ht with h1 | h1
          · simpa using h1
          · exact hfx.only t h1

/-- The result of the retries is one of the executor. -/
lemma executeWithRetry_result {node : TaskNode} {scope : Dict} {left attempt n : ℕ}
    {s s' : Session W} {result : ExecutorResult}
    (hrun : executeWithRetry h cfg node scope left attempt s = (.ok (result, n), s')) :
    ∃ w, (h.execute node scope w).1 = .ok result := by
  -- the attempt a run of the retries ends with
  have hlast : ∀ (attempt : ℕ) (s : Session W),
      ((h.execute node scope s.world).1.map fun r => (r, attempt)) = .ok (result, n) →
        ∃ w, (h.execute node scope w).1 = .ok result := fun attempt s hs => by
    rcases hr : (h.execute node scope s.world).1 with e | r
    · rw [hr] at hs
      cases hs
    · rw [hr] at hs
      cases hs
      exact ⟨s.world, hr⟩
  induction left generalizing attempt s with
  | zero =>
      rw [executeWithRetry_ends h cfg node scope attempt s (Or.inl rfl)] at hrun
      exact hlast attempt s (congrArg Prod.fst hrun)
  | succ left ih =>
      by_cases hend : Conclusive (h.execute node scope s.world).1
      · rw [executeWithRetry_ends h cfg node scope attempt s (Or.inr hend)] at hrun
        exact hlast attempt s (congrArg Prod.fst hrun)
      · rw [executeWithRetry_again h cfg node scope left attempt s hend] at hrun
        exact ih hrun

/-- So is the result a task is settled with. -/
lemma Final.executed {node : TaskNode} {scope : Dict} {result : ExecutorResult}
    (hfinal : Final h cfg node scope result) : ∃ w, (h.execute node scope w).1 = .ok result := by
  obtain ⟨s, n, s', hrun⟩ := hfinal
  exact executeWithRetry_result h cfg hrun

/-- The retries of an executor that returns return. -/
lemma executeWithRetry_returns {node : TaskNode} {scope : Dict}
    (hok : ∀ w, ∃ result, (h.execute node scope w).1 = .ok result) (left attempt : ℕ)
    (s : Session W) : ∃ a s', executeWithRetry h cfg node scope left attempt s = (.ok a, s') := by
  have hlast : ∀ (attempt : ℕ) (s : Session W), ∃ a,
      ((h.execute node scope s.world).1.map fun result => (result, attempt)) = .ok a := by
    intro attempt s
    obtain ⟨result, hr⟩ := hok s.world
    exact ⟨(result, attempt), by rw [hr]; rfl⟩
  induction left generalizing attempt s with
  | zero =>
      obtain ⟨a, ha⟩ := hlast attempt s
      rw [executeWithRetry_ends h cfg node scope attempt s (Or.inl rfl), ha]
      exact ⟨a, _, rfl⟩
  | succ left ih =>
      by_cases hend : Conclusive (h.execute node scope s.world).1
      · obtain ⟨a, ha⟩ := hlast attempt s
        rw [executeWithRetry_ends h cfg node scope attempt s (Or.inr hend), ha]
        exact ⟨a, _, rfl⟩
      · rw [executeWithRetry_again h cfg node scope left attempt s hend]
        exact ih _ _

/-- The `file_edited` events are logged one by one. -/
lemma logEdits_spec (taskId : String) (paths : List String) (s : Session W) :
    ∃ (edits : List (String × String)) (w : W), edits.map Prod.fst = paths
      ∧ logEdits h taskId paths s = (.ok (),
          ⟨s.ledger.apply taskId { events := editEvents s.ledger.isolationScope taskId edits },
            w, s.effects⟩) := by
  induction paths generalizing s with
  | nil => exact ⟨[], s.world, rfl, by simp [logEdits, editEvents, Ledger.apply]⟩
  | cons path rest ih =>
      obtain ⟨edits, w, hpaths, hrec⟩ := ih ⟨s.ledger.logEvent .fileEdited taskId
        (h.clock s.world).1 [path], (h.clock s.world).2, s.effects⟩
      refine ⟨(path, (h.clock s.world).1) :: edits, w, by simp [hpaths], ?_⟩
      simpa [logEdits, editEvents, Ledger.logEvent, Ledger.apply] using hrec

omit [PyRuntime] in
lemma evidenceChange_taskId (evidenceId : Option String) (e : TaskEntry) :
    (evidenceChange evidenceId e).taskId = e.taskId := by
  cases evidenceId <;> rfl

lemma recordEvidence_spec (taskId : String) (evidence : Option Dict) (s : Session W) :
    ∃ (ev : Option (String × Dict)) (w : W), ev.map Prod.snd = evidence
      ∧ recordEvidence h taskId evidence s = (.ok (), ⟨s.ledger.apply taskId {
          entry := evidenceChange (ev.map Prod.fst), evidence := evidenceEntries taskId ev },
            w, s.effects⟩) := by
  cases evidence with
  | none =>
      have hid : evidenceChange none = id := rfl
      exact ⟨none, s.world, rfl, by
        simp [recordEvidence, evidenceEntries, hid, Ledger.apply]⟩
  | some evidence =>
      refine ⟨some ((h.ids "EV" s.world).1, evidence), (h.ids "EV" s.world).2, rfl, ?_⟩
      simp [recordEvidence, evidenceEntries, Ledger.addEvidence, Ledger.setTask, Ledger.apply]
      rfl

lemma beginTask_spec (taskId acquiredAt : String) (s : Session W) :
    ∃ (b : Begun) (w : W), b.acquiredAt = acquiredAt
      ∧ beginTask h taskId acquiredAt s = (.ok (), ⟨s.ledger.apply taskId
          (crashDelta s.ledger.isolationScope taskId b none), w, s.effects⟩) := by
  let l := h.ids "L" s.world
  let t := h.ids "TX" l.2
  let c := h.clock t.2
  exact ⟨⟨l.1, t.1, acquiredAt, c.1⟩, c.2, rfl, by
    simp [beginTask, Ledger.apply, crashDelta, Begun.lease, Begun.txn, Ledger.addLease,
      Ledger.addTxn, Ledger.setStatus, Ledger.setTask, Ledger.addHistory, Ledger.logEvent, l, t, c]⟩

/-- What the success branch adds to a begun task, the transaction apart. -/
def completeDelta (scope : Dict) (taskId : String) (edits : List (String × String))
    (ev : Option (String × Dict)) (completedAt : String) : Delta where
  entry := completeEntry (ev.map Prod.fst)
  evidence := evidenceEntries taskId ev
  history := [⟨completedAt, taskId, .inProgress, .completed⟩]
  events := editEvents scope taskId edits ++ [loopEvent scope .taskCompleted taskId completedAt []]

lemma settleSuccess_spec (taskId : String) (result : ExecutorResult) (s : Session W) :
    ∃ (edits : List (String × String)) (ev : Option (String × Dict)) (completedAt : String) (w : W),
      edits.map Prod.fst = result.touchedPaths ∧ ev.map Prod.snd = result.evidence
      ∧ settleSuccess h taskId result s = (.ok (),
          ⟨(s.ledger.apply taskId (completeDelta s.ledger.isolationScope taskId edits ev
            completedAt)).setTxn ({ · with status := .committed }), w, s.effects⟩) := by
  obtain ⟨edits, w1, hedits, h1⟩ := logEdits_spec h taskId result.touchedPaths s
  obtain ⟨ev, w2, hev, h2⟩ := recordEvidence_spec h taskId result.evidence
    ⟨s.ledger.apply taskId { events := editEvents s.ledger.isolationScope taskId edits },
      w1, s.effects⟩
  have hentry : (fun e : TaskEntry => { e with status := TaskStatus.completed })
      ∘ evidenceChange (ev.map Prod.fst) = completeEntry (ev.map Prod.fst) := by
    funext e
    cases ev <;> rfl
  refine ⟨edits, ev, (h.clock w2).1, (h.clock w2).2, hedits, hev, ?_⟩
  rw [settleSuccess, Call.bind_ok h1, Call.bind_ok h2]
  simp [Ledger.setStatus, Ledger.setTask, Ledger.addHistory, Ledger.logEvent, Ledger.setTxn,
    Ledger.apply, completeDelta, updateFirst_named (evidenceChange_taskId (ev.map Prod.fst)),
    hentry]

/-- What blocking a task adds to a ledger. -/
lemma Ledger.block_eq (L : Ledger) (taskId reason blockerId atTime : String) (st : TaskStatus) :
    L.block taskId reason blockerId atTime st
      = L.apply taskId (blockDelta L.isolationScope taskId reason blockerId atTime st) := by
  have hkeep : ∀ e : TaskEntry, ({ e with
      blockedReason := some reason, decisionOwner := some "operator" } : TaskEntry).taskId
        = e.taskId := fun _ => rfl
  simp only [Ledger.block, Ledger.addBlocker, Ledger.setTask, Ledger.setStatus,
    Ledger.addHistory, Ledger.logEvent, updateFirst_named hkeep, Ledger.apply, blockDelta,
    List.append_nil]
  rfl

lemma escalate_apply (taskId reason blockedAt : String) (s : Session W) :
    escalate h taskId reason blockedAt s = (.ok (), ⟨s.ledger.apply taskId
      (blockDelta s.ledger.isolationScope taskId reason (h.ids "B" s.world).1 blockedAt
        .inProgress), (h.ids "B" s.world).2, s.effects⟩) := by
  simp [escalate, Ledger.block_eq]

/-- What a compensation adds to a begun task, the transaction apart. -/
def compensationDelta (scope : Dict) (taskId atTime : String) (paths : List String) : Delta where
  events := compensationEvents scope taskId atTime paths

/-- The failure branch: the compensation raises, or the task ends up blocked. -/
lemma settleFailure_spec (taskId : String) (result : ExecutorResult) (s : Session W) :
    ∃ fx : List Effect, (∀ t, Effect.execute t ∉ fx) ∧
      ((∃ (e : PyErr) (w : W), h.compensate result.touchedPaths s.world = (.error e, w)
        ∧ settleFailure h taskId result s = (.error e, ⟨s.ledger, w, s.effects ++ fx⟩))
      ∨ ∃ (compensatedAt blockerId blockedAt : String) (w : W),
        settleFailure h taskId result s = (.ok (),
          ⟨((s.ledger.apply taskId (compensationDelta s.ledger.isolationScope taskId compensatedAt
              result.touchedPaths)).setTxn (compensateTxn result.touchedPaths)).apply taskId
            (blockDelta s.ledger.isolationScope taskId (failureReason result) blockerId blockedAt
              .inProgress), w, s.effects ++ fx⟩)) := by
  by_cases hp : result.touchedPaths = []
  · refine ⟨[], by simp, Or.inr ⟨"", (h.ids "B" (h.clock s.world).2).1, (h.clock s.world).1,
      (h.ids "B" (h.clock s.world).2).2, ?_⟩⟩
    have hid : compensateTxn [] = id := by
      funext t
      rfl
    simp [settleFailure, hp, escalate_apply, compensationDelta, compensationEvents, hid,
      Ledger.setTxn, Ledger.apply]
  · refine ⟨[.compensate result.touchedPaths], by simp, ?_⟩
    rcases hr : h.compensate result.touchedPaths s.world with ⟨e | u, w⟩
    · refine Or.inl ⟨e, w, rfl, ?_⟩
      simp [settleFailure, hp, Call.bind_apply, Loop.compensate, hr]
    · refine Or.inr ⟨(h.clock w).1, (h.ids "B" (h.clock (h.clock w).2).2).1,
        (h.clock (h.clock w).2).1, (h.ids "B" (h.clock (h.clock w).2).2).2, ?_⟩
      have hc : Loop.compensate h result.touchedPaths s
          = (.ok u, ⟨s.ledger, w, s.effects ++ [.compensate result.touchedPaths]⟩) := by
        simp [Loop.compensate, hr]
      have hset : compensateTxn result.touchedPaths = ({ · with status := .compensated }) := by
        funext t
        rw [compensateTxn, if_neg hp]
      simp [settleFailure, hp, Call.bind_ok hc, escalate_apply, compensationDelta,
        compensationEvents, hset, Ledger.setTxn, Ledger.logEvent, Ledger.apply]

/-- **Every way `_run_task` can go**, for the task `taskId` of the node: what it returns or raises,
what it adds to the ledger `L` and the calls it makes. -/
inductive TaskRun (node : TaskNode) (taskId : String) (L : Ledger) :
    Except PyErr Unit → Delta → List Effect → Prop
  /-- The key is committed: nothing happens. -/
  | committed : alreadyCommitted L (executeKey taskId) = true →
      TaskRun node taskId L (.ok ()) {} []
  /-- Another lease of the task is active. -/
  | conflict {now blockerId : String} : alreadyCommitted L (executeKey taskId) = false →
      canAcquire L.agentLeases taskId now = false →
      TaskRun node taskId L (.ok ())
        (blockDelta L.isolationScope taskId "lease conflict" blockerId now .inProgress) []
  /-- The executor or its compensation raised. -/
  | crashed {b : Begun} {attempts : Option ℕ} {fx : List Effect} {e : PyErr} :
      alreadyCommitted L (executeKey taskId) = false →
      canAcquire L.agentLeases taskId b.acquiredAt = true → Attempts taskId fx →
      MayRaise h cfg node L.isolationScope →
      TaskRun node taskId L (.error e) (crashDelta L.isolationScope taskId b attempts) fx
  /-- The executor succeeded. -/
  | succeeded {b : Begun} {attempts : ℕ} {result : ExecutorResult}
      {edits : List (String × String)} {ev : Option (String × Dict)}
      {completedAt releasedAt : String} {fx : List Effect} :
      alreadyCommitted L (executeKey taskId) = false →
      canAcquire L.agentLeases taskId b.acquiredAt = true → Attempts taskId fx →
      Final h cfg node L.isolationScope result → result.outcome = .success →
      edits.map Prod.fst = result.touchedPaths → ev.map Prod.snd = result.evidence →
      TaskRun node taskId L (.ok ()) (successDelta L.isolationScope taskId b attempts edits ev
        completedAt releasedAt) fx
  /-- The executor failed. -/
  | failed {b : Begun} {attempts : ℕ} {result : ExecutorResult}
      {compensatedAt blockerId blockedAt releasedAt : String} {fx : List Effect} :
      alreadyCommitted L (executeKey taskId) = false →
      canAcquire L.agentLeases taskId b.acquiredAt = true → Attempts taskId fx →
      Final h cfg node L.isolationScope result → result.outcome ≠ .success →
      TaskRun node taskId L (.ok ()) (failureDelta L.isolationScope taskId b attempts result
        compensatedAt blockerId blockedAt releasedAt) fx

/-- A begun task after its transaction got the number of attempts. -/
lemma apply_crashDelta_setTxn (L : Ledger) (taskId : String) (b : Begun) (n : ℕ) :
    (L.apply taskId (crashDelta L.isolationScope taskId b none)).setTxn
        ({ · with attempts := some n })
      = L.apply taskId (crashDelta L.isolationScope taskId b (some n)) := by
  simp [Ledger.apply, Ledger.setTxn, crashDelta, Begun.txn]

/-- A success, put together from the statements it consists of. -/
lemma apply_successDelta (L : Ledger) (taskId : String) (b : Begun) (n : ℕ)
    (edits : List (String × String)) (ev : Option (String × Dict))
      (completedAt releasedAt : String) :
    ((((L.apply taskId (crashDelta L.isolationScope taskId b (some n))).apply taskId
      (completeDelta L.isolationScope taskId edits ev completedAt)).setTxn
      ({ · with status := .committed })).setLease ({ · with releasedAt := .str releasedAt }))
      = L.apply taskId (successDelta L.isolationScope taskId b n edits ev completedAt
          releasedAt) := by
  have hentry : completeEntry (ev.map Prod.fst)
      ∘ (fun e : TaskEntry => { e with status := TaskStatus.inProgress })
        = completeEntry (ev.map Prod.fst) := by
    funext e
    cases ev <;> rfl
  have hkeep : ∀ e : TaskEntry,
      ({ e with status := TaskStatus.inProgress } : TaskEntry).taskId = e.taskId := fun _ => rfl
  simp [Ledger.apply, Ledger.setTxn, Ledger.setLease, crashDelta, completeDelta, successDelta,
    Begun.txn, Begun.lease, updateFirst_named hkeep, hentry]

/-- A failure, put together from the statements it consists of. -/
lemma apply_failureDelta (L : Ledger) (taskId : String) (b : Begun) (n : ℕ)
    (result : ExecutorResult) (compensatedAt blockerId blockedAt releasedAt : String) :
    (((((L.apply taskId (crashDelta L.isolationScope taskId b (some n))).apply taskId
      (compensationDelta L.isolationScope taskId compensatedAt result.touchedPaths)).setTxn
      (compensateTxn result.touchedPaths)).apply taskId
      (blockDelta L.isolationScope taskId (failureReason result) blockerId blockedAt
        .inProgress)).setLease ({ · with releasedAt := .str releasedAt }))
      = L.apply taskId (failureDelta L.isolationScope taskId b n result compensatedAt blockerId
          blockedAt releasedAt) := by
  have hentry : blockEntry (failureReason result)
      ∘ (fun e : TaskEntry => { e with status := TaskStatus.inProgress })
        = blockEntry (failureReason result) := rfl
  have hkeep : ∀ e : TaskEntry,
      ({ e with status := TaskStatus.inProgress } : TaskEntry).taskId = e.taskId := fun _ => rfl
  simp [Ledger.apply, Ledger.setTxn, Ledger.setLease, crashDelta, compensationDelta, blockDelta,
    failureDelta, Begun.txn, Begun.lease, updateFirst_named hkeep, hentry]

/-- From the call of the executor on, a begun task goes one of the last three ways. -/
lemma executeTask_spec (node : TaskNode) (L : Ledger) (b : Begun) (s : Session W)
    (hs : s.ledger = L.apply node.taskId.pyStr
      (crashDelta L.isolationScope node.taskId.pyStr b none))
    (hc : alreadyCommitted L (executeKey node.taskId.pyStr) = false)
    (hl : canAcquire L.agentLeases node.taskId.pyStr b.acquiredAt = true) :
    ∃ (r : Except PyErr Unit) (δ : Delta) (fx : List Effect) (w : W),
      TaskRun h cfg node node.taskId.pyStr L r δ fx
      ∧ executeTask h cfg node node.taskId.pyStr s
          = (r, ⟨L.apply node.taskId.pyStr δ, w, s.effects ++ fx⟩) := by
  obtain ⟨r, w, fx, hfx, hexec⟩ := executeWithRetry_spec h cfg node L.isolationScope
    cfg.maxRetries 1 s
  have hscope : s.ledger.isolationScope = L.isolationScope := by rw [hs]; rfl
  rcases r with e | ⟨result, n⟩
  · refine ⟨.error e, crashDelta L.isolationScope node.taskId.pyStr b none, fx, w,
      .crashed hc hl hfx (Or.inl ⟨e, s, _, hexec⟩), ?_⟩
    rw [executeTask, Loop.bind_ledger, hscope, Call.bind_error hexec, hs]
  have hfinal : Final h cfg node L.isolationScope result := ⟨s, n, _, hexec⟩
  have hset : s.ledger.setTxn ({ · with attempts := some n })
      = L.apply node.taskId.pyStr
          (crashDelta L.isolationScope node.taskId.pyStr b (some n)) := by
    rw [hs, apply_crashDelta_setTxn]
  by_cases ho : result.outcome = .success
  · obtain ⟨edits, ev, completedAt, w2, hedits, hev, hok⟩ := settleSuccess_spec h
      node.taskId.pyStr result ⟨s.ledger.setTxn ({ · with attempts := some n }), w,
        s.effects ++ fx⟩
    refine ⟨.ok (), successDelta L.isolationScope node.taskId.pyStr b n edits ev completedAt
        (h.clock w2).1, fx, (h.clock w2).2,
      .succeeded hc hl hfx hfinal ho hedits hev, ?_⟩
    rw [executeTask, Loop.bind_ledger, hscope, Call.bind_ok hexec]
    simp only [Loop.bind_update, if_pos ho, Call.bind_ok hok, Loop.bind_clock, Loop.update_apply]
    rw [hset, Ledger.apply_isolationScope, apply_successDelta]
  · obtain ⟨gx, hgx, ⟨e, w2, hraise, herr⟩ | ⟨compensatedAt, blockerId, blockedAt, w2, hok⟩⟩ :=
      settleFailure_spec h node.taskId.pyStr result
        ⟨s.ledger.setTxn ({ · with attempts := some n }), w, s.effects ++ fx⟩
    · refine ⟨.error e, crashDelta L.isolationScope node.taskId.pyStr b (some n), fx ++ gx, w2,
        .crashed hc hl (hfx.append hgx) (Or.inr ⟨result, e, w, w2, hfinal, ho, hraise⟩), ?_⟩
      rw [executeTask, Loop.bind_ledger, hscope, Call.bind_ok hexec]
      simp only [Loop.bind_update, if_neg ho, Call.bind_error herr]
      rw [hset, List.append_assoc]
    · refine ⟨.ok (), failureDelta L.isolationScope node.taskId.pyStr b n result compensatedAt
          blockerId blockedAt (h.clock w2).1, fx ++ gx, (h.clock w2).2,
        .failed hc hl (hfx.append hgx) hfinal ho, ?_⟩
      rw [executeTask, Loop.bind_ledger, hscope, Call.bind_ok hexec]
      simp only [Loop.bind_update, if_neg ho, Call.bind_ok hok, Loop.bind_clock,
        Loop.update_apply]
      rw [hset, Ledger.apply_isolationScope, apply_failureDelta, List.append_assoc]

/-- **`_run_task` goes one of the ways of `TaskRun`.** -/
theorem runTask_spec (node : TaskNode) (s : Session W) :
    ∃ (r : Except PyErr Unit) (δ : Delta) (fx : List Effect) (w : W),
      TaskRun h cfg node node.taskId.pyStr s.ledger r δ fx
      ∧ runTask h cfg node s
          = (r, ⟨s.ledger.apply node.taskId.pyStr δ, w, s.effects ++ fx⟩) := by
  by_cases hc : alreadyCommitted s.ledger (executeKey node.taskId.pyStr) = true
  · exact ⟨.ok (), {}, [], s.world, .committed hc, by simp [runTask, hc]⟩
  have hc' : alreadyCommitted s.ledger (executeKey node.taskId.pyStr) = false := by simpa using hc
  by_cases hl : canAcquire s.ledger.agentLeases node.taskId.pyStr (h.clock s.world).1 = true
  · obtain ⟨b, w, hb, hbegin⟩ := beginTask_spec h node.taskId.pyStr (h.clock s.world).1
      { s with world := (h.clock s.world).2 }
    obtain ⟨r, δ, fx, w', hrun, hexec⟩ := executeTask_spec h cfg node s.ledger b
      ⟨s.ledger.apply node.taskId.pyStr
        (crashDelta s.ledger.isolationScope node.taskId.pyStr b none), w, s.effects⟩ rfl hc'
      (hb ▸ hl)
    refine ⟨r, δ, fx, w', hrun, ?_⟩
    rw [← hexec]
    simp [runTask, hc', hl, Call.bind_ok hbegin]
  · have hl' : canAcquire s.ledger.agentLeases node.taskId.pyStr (h.clock s.world).1 = false := by
      simpa using hl
    refine ⟨.ok (), blockDelta s.ledger.isolationScope node.taskId.pyStr "lease conflict"
        (h.ids "B" (h.clock s.world).2).1 (h.clock s.world).1 .inProgress, [],
      (h.ids "B" (h.clock s.world).2).2, .conflict hc' hl', ?_⟩
    simp [runTask, hc', hl', Call.bind_ok (escalate_apply h node.taskId.pyStr "lease conflict"
      (h.clock s.world).1 { s with world := (h.clock s.world).2 })]

/-! ### A turn -/

/-- The dependencies of a node are all among the completed ids. -/
def DepsMet (node : TaskNode) (completed : List String) : Prop :=
  ∀ d ∈ node.dependsOn, d.pyStr ∈ completed

/-- **Every way a turn of the loop can go.** -/
inductive Turn (node : TaskNode) (taskId : String) (completed : List String) (L : Ledger) :
    Except PyErr Unit → Delta → List Effect → Prop
  /-- The task is run. -/
  | ran {r : Except PyErr Unit} {δ : Delta} {fx : List Effect} : DepsMet node completed →
      TaskRun h cfg node taskId L r δ fx → Turn node taskId completed L r δ fx
  /-- The task waits for a dependency that did not complete. -/
  | unmet {blockerId atTime : String} : ¬ DepsMet node completed →
      Turn node taskId completed L (.ok ())
        (blockDelta L.isolationScope taskId "dependency not satisfied" blockerId atTime
          .pending) []

/-- The task is completed in the ledger. -/
def Ledger.Done (L : Ledger) (taskId : String) : Prop :=
  ∃ e, L.task? taskId = some e ∧ e.status = .completed

instance (L : Ledger) (taskId : String) : Decidable (L.Done taskId) :=
  decidable_of_iff ((L.task? taskId).any (·.status = .completed))
    (by simp [Ledger.Done, Option.any_eq_true])

/-- `task(ledger, task_id)["status"]`, when there is such a task. -/
def Ledger.status? (L : Ledger) (taskId : String) : Option TaskStatus :=
  (L.task? taskId).map (·.status)

omit [PyRuntime] in
lemma Ledger.done_iff (L : Ledger) (taskId : String) :
    L.Done taskId ↔ L.status? taskId = some .completed := by
  simp [Ledger.Done, Ledger.status?]

/-- The set of completed ids after a turn that left `L`. -/
def addDone (L : Ledger) (taskId : String) (completed : List String) : List String :=
  if L.Done taskId then taskId :: completed else completed

/-- An entry keeps its name in a turn. -/
lemma Turn.entry_taskId {node : TaskNode} {taskId : String} {completed : List String} {L : Ledger}
    {r : Except PyErr Unit} {δ : Delta} {fx : List Effect}
    (ht : Turn h cfg node taskId completed L r δ fx) (e : TaskEntry) :
    (δ.entry e).taskId = e.taskId := by
  cases ht with
  | unmet _ => rfl
  | ran _ hr =>
      cases hr with
      | committed _ => rfl
      | conflict _ _ => rfl
      | crashed _ _ _ _ => rfl
      | succeeded => exact evidenceChange_taskId _ e
      | failed _ _ _ _ _ => rfl

/-- A turn adds leases and transactions of its own task only, and leases that do not expire. -/
lemma Turn.own {node : TaskNode} {taskId : String} {completed : List String} {L : Ledger}
    {r : Except PyErr Unit} {δ : Delta} {fx : List Effect}
    (ht : Turn h cfg node taskId completed L r δ fx) :
    (∀ l ∈ δ.leases, l.taskId = taskId ∧ l.expiresAt = .none)
      ∧ ∀ t ∈ δ.txns, t.idempotencyKey = executeKey taskId := by
  cases ht with
  | unmet _ => simp [blockDelta]
  | ran _ hr =>
      cases hr with
      | committed _ => simp
      | conflict _ _ => simp [blockDelta]
      | crashed _ _ _ _ => simp [crashDelta, Begun.lease, Begun.txn]
      | succeeded => simp [successDelta, Begun.lease, Begun.txn]
      | failed _ _ _ _ _ =>
          have hkey : ∀ (paths : List String) (t : Txn),
              (compensateTxn paths t).idempotencyKey = t.idempotencyKey := by
            intro paths t
            rw [compensateTxn]
            split <;> rfl
          simp [failureDelta, hkey, Begun.lease, Begun.txn]

/-- A turn logs events of its own task only. -/
lemma Turn.subject {node : TaskNode} {taskId : String} {completed : List String} {L : Ledger}
    {r : Except PyErr Unit} {δ : Delta} {fx : List Effect}
    (ht : Turn h cfg node taskId completed L r δ fx) :
    ∀ e ∈ δ.events, e.subjectId = .str taskId := by
  cases ht with
  | unmet _ => simp [blockDelta, loopEvent]
  | ran _ hr =>
      cases hr with
      | committed _ => simp
      | conflict _ _ => simp [blockDelta, loopEvent]
      | crashed _ _ _ _ => simp [crashDelta, loopEvent]
      | succeeded =>
          intro e he
          simp only [successDelta, editEvents, List.mem_cons, List.mem_append, List.mem_map,
            List.not_mem_nil, or_false] at he
          rcases he with (rfl | ⟨x, -, rfl⟩) | rfl <;> rfl
      | failed _ _ _ _ _ =>
          intro e he
          simp only [failureDelta, compensationEvents, List.mem_cons, List.mem_append,
            List.not_mem_nil, or_false] at he
          rcases he with (rfl | he) | rfl
          · rfl
          · split at he
            · simp at he
            · rw [List.mem_singleton.mp he]
              rfl
          · rfl

/-- The entry of a task after a delta about it. -/
lemma Ledger.task?_apply_self (L : Ledger) (taskId : String) (δ : Delta)
    (hδ : ∀ e, (δ.entry e).taskId = e.taskId) :
    (L.apply taskId δ).task? taskId = (L.task? taskId).map δ.entry := by
  rw [Ledger.task?, Ledger.apply_taskLedger, Ledger.task?]
  exact find?_updateFirst_self (fun e he => by rwa [TaskEntry.named, hδ]) _

/-- The entry of another task. -/
lemma Ledger.task?_apply_of_ne (L : Ledger) {taskId other : String} (δ : Delta)
    (hδ : ∀ e, (δ.entry e).taskId = e.taskId) (hne : other ≠ taskId) :
    (L.apply taskId δ).task? other = L.task? other := by
  rw [Ledger.task?, Ledger.apply_taskLedger, Ledger.task?]
  refine find?_updateFirst_of_disjoint (fun e he => ?_) _
  have hid : e.taskId = .str taskId := by simpa [TaskEntry.named] using he
  constructor <;> simp [TaskEntry.named, hδ, hid, Ne.symm hne]

/-- A delta that renames nothing keeps the tasks known. -/
lemma known_apply {L : Ledger} {taskId t : String} {δ : Delta}
    (hids : ∀ e, (δ.entry e).taskId = e.taskId) (ht : (L.task? t).isSome) :
    ((L.apply taskId δ).task? t).isSome := by
  by_cases hne : t = taskId
  · rw [hne, L.task?_apply_self _ _ hids, Option.isSome_map, ← hne]
    exact ht
  · rw [L.task?_apply_of_ne _ hids hne]
    exact ht

/-- The statuses after a turn: that of its task has changed as the turn says. -/
lemma Turn.status?_apply {node : TaskNode} {taskId : String} {completed : List String}
    {L : Ledger} {r : Except PyErr Unit} {δ : Delta} {fx : List Effect}
    (ht : Turn h cfg node taskId completed L r δ fx) (other : String) :
    (L.apply taskId δ).status? other = if other = taskId
      then (L.task? taskId).map fun e => (δ.entry e).status else L.status? other := by
  rw [Ledger.status?]
  by_cases ho : other = taskId
  · rw [if_pos ho, ho, L.task?_apply_self _ _ ht.entry_taskId, Option.map_map]
    rfl
  · rw [if_neg ho, L.task?_apply_of_ne _ ht.entry_taskId ho]
    rfl

omit [PyRuntime] in
lemma taskStatus_apply {taskId : String} {s : Session W} {e : TaskEntry}
    (he : s.ledger.task? taskId = some e) : taskStatus taskId s = (.ok e.status, s) := by
  simp [taskStatus, he]

/-- A turn whose dependencies are completed is what `_run_task` makes of it. -/
lemma turn_of_runTask {node : TaskNode} {completed : List String} {s : Session W}
    (hmet : DepsMet node completed) (hknown : (s.ledger.task? node.taskId.pyStr).isSome)
    {r : Except PyErr Unit} {δ : Delta} {w : W} {fx : List Effect}
    (hentry : ∀ e, (δ.entry e).taskId = e.taskId)
    (hexec : runTask h cfg node s = (r, ⟨s.ledger.apply node.taskId.pyStr δ, w, fx⟩)) :
    turn h cfg node node.taskId.pyStr completed s
      = (r.map fun _ => addDone (s.ledger.apply node.taskId.pyStr δ) node.taskId.pyStr completed,
          ⟨s.ledger.apply node.taskId.pyStr δ, w, fx⟩) := by
  have hif : (node.dependsOn.all fun d => decide (d.pyStr ∈ completed)) = true := by
    simpa [DepsMet] using hmet
  rw [turn, if_pos hif]
  rcases r with e | u
  · rw [Call.bind_error hexec]
    rfl
  · obtain ⟨entry, hsome⟩ := Option.isSome_iff_exists.mp hknown
    have hafter : (s.ledger.apply node.taskId.pyStr δ).task? node.taskId.pyStr
        = some (δ.entry entry) := by
      rw [Ledger.task?_apply_self _ _ _ hentry, hsome]
      rfl
    rw [Call.bind_ok hexec, Call.bind_ok (taskStatus_apply hafter)]
    by_cases hs : (δ.entry entry).status = .completed
    · simp [hs, addDone, Ledger.Done, hafter, Except.map]
    · simp [hs, addDone, Ledger.Done, hafter, Except.map]

/-- A turn that waits for a dependency blocks its task. -/
lemma turn_of_unmet {node : TaskNode} {completed : List String} {s : Session W}
    (hmet : ¬ DepsMet node completed) (hknown : (s.ledger.task? node.taskId.pyStr).isSome) :
    ∃ (blockerId atTime : String) (w : W),
      turn h cfg node node.taskId.pyStr completed s
        = (.ok (addDone (s.ledger.apply node.taskId.pyStr (blockDelta s.ledger.isolationScope
            node.taskId.pyStr "dependency not satisfied" blockerId atTime .pending))
            node.taskId.pyStr completed),
          ⟨s.ledger.apply node.taskId.pyStr (blockDelta s.ledger.isolationScope node.taskId.pyStr
            "dependency not satisfied" blockerId atTime .pending), w, s.effects⟩) := by
  have hif : ¬ (node.dependsOn.all fun d => decide (d.pyStr ∈ completed)) = true := by
    simpa [DepsMet] using hmet
  refine ⟨(h.ids "B" s.world).1, (h.clock (h.ids "B" s.world).2).1,
    (h.clock (h.ids "B" s.world).2).2, ?_⟩
  obtain ⟨entry, hentry⟩ := Option.isSome_iff_exists.mp hknown
  have hnot : ∀ δ : Delta, δ.entry = blockEntry "dependency not satisfied" →
      addDone (s.ledger.apply node.taskId.pyStr δ) node.taskId.pyStr completed = completed := by
    intro δ hδ
    have hafter := s.ledger.task?_apply_self node.taskId.pyStr δ (by rw [hδ]; exact fun _ => rfl)
    simp [addDone, Ledger.Done, hafter, hentry, hδ, blockEntry]
  rw [turn, if_neg hif, hnot _ rfl]
  simp [blockUnmetDeps, Call.bind_apply, Loop.ids, Loop.clock, Ledger.block_eq]

/-- **A turn of the loop goes one of the ways of `Turn`**, on a task the ledger knows. -/
theorem turn_spec (node : TaskNode) (taskId : String) (completed : List String) (s : Session W)
    (hid : node.taskId.pyStr = taskId) (hknown : (s.ledger.task? taskId).isSome) :
    ∃ (r : Except PyErr Unit) (δ : Delta) (fx : List Effect) (w : W),
      Turn h cfg node taskId completed s.ledger r δ fx
      ∧ turn h cfg node taskId completed s
          = (r.map fun _ => addDone (s.ledger.apply taskId δ) taskId completed,
              ⟨s.ledger.apply taskId δ, w, s.effects ++ fx⟩) := by
  subst hid
  by_cases hd : DepsMet node completed
  · obtain ⟨r, δ, fx, w, hrun, hexec⟩ := runTask_spec h cfg node s
    have hturn := Turn.ran hd hrun
    exact ⟨r, δ, fx, w, hturn,
      turn_of_runTask h cfg hd hknown (hturn.entry_taskId h cfg) hexec⟩
  · obtain ⟨blockerId, atTime, w, hexec⟩ := turn_of_unmet h cfg hd hknown
    exact ⟨.ok (), _, [], w, .unmet hd, by rw [hexec, List.append_nil]; rfl⟩

/-! ### One step of the loop -/

section Steps

variable {h cfg} {graph : List TaskNode} {taskId : String} {rest completed : List String}
  {s : Session W}

lemma driveLoop_unknown (hnone : s.ledger.task? taskId = none) :
    driveLoop h cfg graph (taskId :: rest) completed s = (.error (.keyError taskId), s) := by
  have hmiss : taskStatus taskId s = (.error (.keyError taskId), s) := by
    simp [taskStatus, hnone]
  rw [driveLoop, Call.bind_error hmiss]

lemma driveLoop_done (hdone : s.ledger.Done taskId) :
    driveLoop h cfg graph (taskId :: rest) completed s
      = driveLoop h cfg graph rest (taskId :: completed) s := by
  obtain ⟨e, he, hst⟩ := hdone
  rw [driveLoop, Call.bind_ok (taskStatus_apply he), if_pos hst]

lemma driveLoop_paused (hsome : (s.ledger.task? taskId).isSome) (hdone : ¬ s.ledger.Done taskId)
    (hpaused : (h.control s.world).1 = .paused) :
    driveLoop h cfg graph (taskId :: rest) completed s
      = (.ok .paused, { s with world := (h.control s.world).2 }) := by
  obtain ⟨e, he⟩ := Option.isSome_iff_exists.mp hsome
  rw [driveLoop, Call.bind_ok (taskStatus_apply he), if_neg fun hst => hdone ⟨e, he, hst⟩,
    Loop.bind_control, hpaused]
  rfl

lemma driveLoop_aborted (hsome : (s.ledger.task? taskId).isSome) (hdone : ¬ s.ledger.Done taskId)
    (haborted : (h.control s.world).1 = .aborted) :
    driveLoop h cfg graph (taskId :: rest) completed s
      = (.ok .aborted, { s with world := (h.control s.world).2 }) := by
  obtain ⟨e, he⟩ := Option.isSome_iff_exists.mp hsome
  rw [driveLoop, Call.bind_ok (taskStatus_apply he), if_neg fun hst => hdone ⟨e, he, hst⟩,
    Loop.bind_control, haborted]
  rfl

lemma driveLoop_noNode (hsome : (s.ledger.task? taskId).isSome) (hdone : ¬ s.ledger.Done taskId)
    (hrunning : (h.control s.world).1 = .running) (hnode : lastNode graph taskId = none) :
    driveLoop h cfg graph (taskId :: rest) completed s
      = (.error (.keyError taskId), { s with world := (h.control s.world).2 }) := by
  obtain ⟨e, he⟩ := Option.isSome_iff_exists.mp hsome
  rw [driveLoop, Call.bind_ok (taskStatus_apply he), if_neg fun hst => hdone ⟨e, he, hst⟩,
    Loop.bind_control, hrunning]
  simp only [hnode, Call.raise]

lemma driveLoop_turn {node : TaskNode} (hsome : (s.ledger.task? taskId).isSome)
    (hdone : ¬ s.ledger.Done taskId) (hrunning : (h.control s.world).1 = .running)
    (hnode : lastNode graph taskId = some node) :
    driveLoop h cfg graph (taskId :: rest) completed s
      = (turn h cfg node taskId completed >>= driveLoop h cfg graph rest)
        { s with world := (h.control s.world).2 } := by
  obtain ⟨e, he⟩ := Option.isSome_iff_exists.mp hsome
  rw [driveLoop, Call.bind_ok (taskStatus_apply he), if_neg fun hst => hdone ⟨e, he, hst⟩,
    Loop.bind_control, hrunning]
  simp only [hnode]

end Steps

/-! ### The loop -/

/-- Control can answer so in some world. -/
def Answers (answer : ControlAnswer) : Prop := ∃ w, (h.control w).1 = answer

/-- **The loop of `_drive` as a derivation**: from the rest of the order, the completed ids and the
ledger to what the loop returns or raises, the ledger it leaves and the calls it makes. -/
inductive LoopRun (graph : List TaskNode) :
    List String → List String → Ledger → Except PyErr RunState → Ledger → List Effect → Prop
  | finished {completed : List String} {L : Ledger} :
      LoopRun graph [] completed L (.ok .completed) L []
  | unknown {taskId : String} {rest completed : List String} {L : Ledger} :
      L.task? taskId = none →
      LoopRun graph (taskId :: rest) completed L (.error (.keyError taskId)) L []
  | skip {taskId : String} {rest completed : List String} {L L' : Ledger}
      {r : Except PyErr RunState} {fx : List Effect} : L.Done taskId →
      LoopRun graph rest (taskId :: completed) L r L' fx →
      LoopRun graph (taskId :: rest) completed L r L' fx
  | paused {taskId : String} {rest completed : List String} {L : Ledger} :
      (L.task? taskId).isSome → ¬ L.Done taskId → Answers h .paused →
      LoopRun graph (taskId :: rest) completed L (.ok .paused) L []
  | aborted {taskId : String} {rest completed : List String} {L : Ledger} :
      (L.task? taskId).isSome → ¬ L.Done taskId → Answers h .aborted →
      LoopRun graph (taskId :: rest) completed L (.ok .aborted) L []
  | noNode {taskId : String} {rest completed : List String} {L : Ledger} :
      (L.task? taskId).isSome → ¬ L.Done taskId → lastNode graph taskId = none →
      LoopRun graph (taskId :: rest) completed L (.error (.keyError taskId)) L []
  | raised {taskId : String} {rest completed : List String} {L : Ledger} {node : TaskNode}
      {e : PyErr} {δ : Delta} {fx : List Effect} :
      (L.task? taskId).isSome → ¬ L.Done taskId → lastNode graph taskId = some node →
      Turn h cfg node taskId completed L (.error e) δ fx →
      LoopRun graph (taskId :: rest) completed L (.error e) (L.apply taskId δ) fx
  | turned {taskId : String} {rest completed : List String} {L L' : Ledger} {node : TaskNode}
      {δ : Delta} {r : Except PyErr RunState} {fx gx : List Effect} :
      (L.task? taskId).isSome → ¬ L.Done taskId → lastNode graph taskId = some node →
      Turn h cfg node taskId completed L (.ok ()) δ fx →
      LoopRun graph rest (addDone (L.apply taskId δ) taskId completed) (L.apply taskId δ) r L' gx →
      LoopRun graph (taskId :: rest) completed L r L' (fx ++ gx)

/-- **The loop of `_drive` goes one of the ways of `LoopRun`.** -/
theorem driveLoop_spec (graph : List TaskNode) (order completed : List String) (s : Session W) :
    ∃ (r : Except PyErr RunState) (L' : Ledger) (fx : List Effect) (w : W),
      LoopRun h cfg graph order completed s.ledger r L' fx
      ∧ driveLoop h cfg graph order completed s = (r, ⟨L', w, s.effects ++ fx⟩) := by
  induction order generalizing completed s with
  | nil => exact ⟨.ok .completed, s.ledger, [], s.world, .finished, by simp [driveLoop]⟩
  | cons taskId rest ih =>
      by_cases hdone : s.ledger.Done taskId
      · obtain ⟨r, L', fx, w, hrun, hexec⟩ := ih (taskId :: completed) s
        exact ⟨r, L', fx, w, .skip hdone hrun, by rw [driveLoop_done hdone, hexec]⟩
      cases hentry : s.ledger.task? taskId with
      | none =>
          refine ⟨_, s.ledger, [], s.world, .unknown hentry, ?_⟩
          rw [driveLoop_unknown hentry, List.append_nil]
      | some entry =>
          have hsome : (s.ledger.task? taskId).isSome := by rw [hentry]; rfl
          cases hans : (h.control s.world).1 with
          | aborted =>
              refine ⟨_, s.ledger, [], (h.control s.world).2, .aborted hsome hdone ⟨_, hans⟩, ?_⟩
              rw [driveLoop_aborted hsome hdone hans, List.append_nil]
          | paused =>
              refine ⟨_, s.ledger, [], (h.control s.world).2, .paused hsome hdone ⟨_, hans⟩, ?_⟩
              rw [driveLoop_paused hsome hdone hans, List.append_nil]
          | running =>
              cases hnode : lastNode graph taskId with
              | none =>
                  refine ⟨_, s.ledger, [], (h.control s.world).2, .noNode hsome hdone hnode, ?_⟩
                  rw [driveLoop_noNode hsome hdone hans hnode, List.append_nil]
              | some node =>
                  rw [driveLoop_turn hsome hdone hans hnode]
                  obtain ⟨r, δ, fx, w, hturn, hexec⟩ := turn_spec h cfg node taskId completed
                    ⟨s.ledger, (h.control s.world).2, s.effects⟩ (lastNode_pyStr hnode) hsome
                  rcases r with e | u
                  · refine ⟨_, _, fx, w, .raised hsome hdone hnode hturn, ?_⟩
                    exact Call.bind_error hexec _
                  · obtain ⟨r, L', gx, w', hrun, hrest⟩ :=
                      ih (addDone (s.ledger.apply taskId δ) taskId completed)
                        ⟨s.ledger.apply taskId δ, w, s.effects ++ fx⟩
                    refine ⟨r, L', fx ++ gx, w', .turned hsome hdone hnode hturn hrun, ?_⟩
                    rw [← List.append_assoc, ← hrest]
                    exact Call.bind_ok hexec _

/-! ### The entry points -/

/-- `_drive` as a derivation: the state the loop ended in, `none` when it raised, and the ledger
and the calls of the whole. -/
inductive DriveRun (manifest : Manifest) (completed : List String) (L : Ledger) :
    Option RunState → Ledger → List Effect → Prop
  | noOrder {e : PyErr} : topoOrder manifest.taskGraph = .error e →
      DriveRun manifest completed L none L []
  | raised {order : List String} {e : PyErr} {L' : Ledger} {fx : List Effect} :
      topoOrder manifest.taskGraph = .ok order →
      LoopRun h cfg manifest.taskGraph order completed L (.error e) L' fx →
      DriveRun manifest completed L none L' fx
  | ended {order : List String} {state : RunState} {L' : Ledger} {fx : List Effect} :
      topoOrder manifest.taskGraph = .ok order →
      LoopRun h cfg manifest.taskGraph order completed L (.ok state) L' fx →
      DriveRun manifest completed L (some state) (reconcile (L'.setRunState state)) fx

/-- **`_drive` goes one of the ways of `DriveRun`**; when it returns, its loop ended. -/
theorem drive_spec (manifest : Manifest) (completed : List String) (s : Session W) :
    ∃ (r : Except PyErr RunResult) (state : Option RunState) (L' : Ledger) (fx : List Effect)
      (w : W), DriveRun h cfg manifest completed s.ledger state L' fx
      ∧ drive h cfg manifest completed s = (r, ⟨L', w, s.effects ++ fx⟩)
      ∧ ∀ res, r = .ok res → res.ledger = L' ∧ state.isSome := by
  rw [drive]
  cases horder : topoOrder manifest.taskGraph with
  | error e =>
      exact ⟨.error e, none, s.ledger, [], s.world, .noOrder horder, by simp [Call.bind_apply],
        by simp⟩
  | ok order =>
      obtain ⟨r, L', fx, w, hrun, hexec⟩ := driveLoop_spec h cfg manifest.taskGraph order
        completed s
      have hofe : (Call.ofExcept (.ok order) : Loop W (List String)) s = (.ok order, s) := rfl
      rw [Call.bind_ok hofe]
      rcases r with e | state
      · exact ⟨.error e, none, L', fx, w, .raised horder hrun, Call.bind_error hexec _, by simp⟩
      · rw [Call.bind_ok hexec]
        refine ⟨(runGate (reconcile (L'.setRunState state)).toDoc cfg.gate).map fun g =>
          ⟨reconcile (L'.setRunState state), g⟩, some state, _, fx, w, .ended horder hrun, ?_, ?_⟩
        · cases hg : runGate (reconcile (L'.setRunState state)).toDoc cfg.gate <;>
            simp [Call.bind_apply, Loop.update, Loop.ledger, hg, Except.map]
        · intro res hres
          cases hg : runGate (reconcile (L'.setRunState state)).toDoc cfg.gate with
          | error e => rw [hg] at hres; cases hres
          | ok g => rw [hg] at hres; cases hres; exact ⟨rfl, rfl⟩

/-- The ledger `resume` hands to `_drive`. -/
theorem resume_spec (manifest : Manifest) (s : Session W) :
    ∃ (r : Except PyErr RunResult) (state : Option RunState) (L' : Ledger) (fx : List Effect)
      (w : W), DriveRun h cfg manifest (completedIds s.ledger) (s.ledger.setRunState .running)
        state L' fx
      ∧ resume h cfg manifest s = (r, ⟨L', w, s.effects ++ fx⟩)
      ∧ ∀ res, r = .ok res → res.ledger = L' ∧ state.isSome := by
  obtain ⟨r, state, L', fx, w, hrun, hexec, hres⟩ := drive_spec h cfg manifest
    (completedIds s.ledger) { s with ledger := s.ledger.setRunState .running }
  exact ⟨r, state, L', fx, w, hrun, hexec, hres⟩

/-- A run that returns started from the ledger of its manifest and drove it to the end of a loop. -/
theorem run_spec {manifest : Manifest} {w w' : W} {res : RunResult} {fx : List Effect}
    (hrun : run h cfg manifest w = (.ok res, w', fx)) :
    ∃ (L : Ledger) (state : RunState), startLedger manifest = .ok L
      ∧ DriveRun h cfg manifest [] L (some state) res.ledger fx := by
  rw [run] at hrun
  cases hL : startLedger manifest with
  | error e => rw [hL] at hrun; simp at hrun
  | ok L =>
      obtain ⟨r, state, L', gx, w2, hdrive, hexec, hres⟩ := drive_spec h cfg manifest []
        ⟨L, w, []⟩
      rw [hL] at hrun
      simp only [hexec, List.nil_append, Prod.mk.injEq] at hrun
      obtain ⟨rfl, -, rfl⟩ := hrun
      obtain ⟨rfl, hst⟩ := hres res rfl
      obtain ⟨st, rfl⟩ := Option.isSome_iff_exists.mp hst
      exact ⟨L, st, rfl, hdrive⟩

variable {h cfg}

/-- A turn keeps the tasks known. -/
lemma Turn.known {node : TaskNode} {taskId : String} {completed : List String} {L : Ledger}
    {r : Except PyErr Unit} {δ : Delta} {fx : List Effect}
    (hturn : Turn h cfg node taskId completed L r δ fx) {t : String} (ht : (L.task? t).isSome) :
    ((L.apply taskId δ).task? t).isSome :=
  known_apply (hturn.entry_taskId h cfg) ht

/-- A turn returns where nothing may raise. -/
lemma Turn.returns {node : TaskNode} (hraise : ∀ scope, ¬ MayRaise h cfg node scope)
    {taskId : String} {completed : List String} {L : Ledger} {r : Except PyErr Unit} {δ : Delta}
    {fx : List Effect} (hturn : Turn h cfg node taskId completed L r δ fx) : r = .ok () := by
  cases hturn with
  | unmet _ => rfl
  | ran _ hrun =>
      cases hrun with
      | crashed _ _ _ hmay => exact absurd hmay (hraise _)
      | _ => rfl

/-- **A loop over known tasks returns** where nothing may raise. -/
lemma LoopRun.returns {graph : List TaskNode} (hraise : ∀ node scope, ¬ MayRaise h cfg node scope)
    {rest completed : List String} {L L' : Ledger} {r : Except PyErr RunState} {fx : List Effect}
    (hrun : LoopRun h cfg graph rest completed L r L' fx)
    (hknown : ∀ t ∈ rest, (L.task? t).isSome ∧ (lastNode graph t).isSome) : Returns r := by
  induction hrun with
  | finished => exact returns_ok _
  | unknown hnone =>
      have hsome := (hknown _ List.mem_cons_self).1
      rw [hnone] at hsome
      cases hsome
  | skip _ _ ih => exact ih fun t ht => hknown t (List.mem_cons_of_mem _ ht)
  | paused _ _ _ => exact returns_ok _
  | aborted _ _ _ => exact returns_ok _
  | noNode _ _ hnone =>
      have hsome := (hknown _ List.mem_cons_self).2
      rw [hnone] at hsome
      cases hsome
  | raised _ _ _ hturn => cases hturn.returns (hraise _)
  | turned _ _ _ hturn _ ih =>
      refine ih fun t ht => ?_
      obtain ⟨h1, h2⟩ := hknown t (List.mem_cons_of_mem _ ht)
      exact ⟨hturn.known h1, h2⟩

end Calls

end IplanRunner
