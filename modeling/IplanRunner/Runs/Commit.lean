import IplanRunner.Runs.Script

/-!
A task is committed at most once, whatever is resumed and decided.

* `Ledger.committedCount`, `Ledger.completedEvents`: the committed transactions and the
  `task_completed` events of a task.
* `CommittedOnce`: the invariant; `committedOnce_history` is its proof, turn by turn.
* `committed_at_most_once`: the three statements together.
-/

namespace IplanRunner

open Foundation

/-- The committed transactions of a task. -/
def committedTxns (taskId : String) (journal : List Txn) : ℕ :=
  journal.countP fun t => t.idempotencyKey == executeKey taskId && t.status == .committed

/-- The `task_completed` events of a task. -/
def completedEvents (taskId : String) (events : List EventBody) : ℕ :=
  events.countP fun e => e.kind == .taskCompleted && e.subjectId == .str taskId

lemma alreadyCommitted_iff (L : Ledger) (taskId : String) :
    alreadyCommitted L (executeKey taskId) = true ↔ 0 < committedTxns taskId L.sagaJournal := by
  rw [alreadyCommitted, committedTxns, List.countP_pos_iff, List.any_eq_true]

lemma not_alreadyCommitted_iff (L : Ledger) (taskId : String) :
    alreadyCommitted L (executeKey taskId) = false ↔ committedTxns taskId L.sagaJournal = 0 := by
  rw [← Bool.not_eq_true, alreadyCommitted_iff]
  omega

section Runtime

variable [PyRuntime]

/-! ### What a turn adds -/

omit [PyRuntime] in
lemma completedEvents_editEvents (t : String) (scope : Dict) (taskId : String)
    (edits : List (String × String)) : completedEvents t (editEvents scope taskId edits) = 0 := by
  rw [completedEvents, List.countP_eq_zero]
  intro e he
  obtain ⟨x, -, rfl⟩ := List.mem_map.mp he
  simp [loopEvent]

omit [PyRuntime] in
lemma completedEvents_compensation (t : String) (scope : Dict) (taskId atTime : String)
    (paths : List String) :
    completedEvents t (compensationEvents scope taskId atTime paths) = 0 := by
  rw [compensationEvents]
  split <;> simp [completedEvents, loopEvent]

/-- What a turn adds to the journal and to the log: nothing that counts, or one committed
transaction and one `task_completed` event of its own task, whose key was not committed. -/
lemma Turn.commits {W : Type} {h : Host W} {cfg : RunConfig} {node : TaskNode} {taskId : String}
    {completed : List String} {L : Ledger} {r : Except PyErr Unit} {δ : Delta} {fx : List Effect}
    (hturn : Turn h cfg node taskId completed L r δ fx) :
    (∀ t, committedTxns t δ.txns = 0 ∧ completedEvents t δ.events = 0)
    ∨ (alreadyCommitted L (executeKey taskId) = false
      ∧ ∀ t, committedTxns t δ.txns = (if t = taskId then 1 else 0)
        ∧ completedEvents t δ.events = if t = taskId then 1 else 0) := by
  cases hturn with
  | unmet _ => exact Or.inl fun t => by simp [committedTxns, completedEvents, blockDelta, loopEvent]
  | ran _ hrun =>
      cases hrun with
      | committed _ => exact Or.inl fun t => by simp [committedTxns, completedEvents]
      | conflict _ _ =>
          exact Or.inl fun t => by simp [committedTxns, completedEvents, blockDelta, loopEvent]
      | crashed _ _ _ _ =>
          exact Or.inl fun t => by
            simp [committedTxns, completedEvents, crashDelta, loopEvent, Begun.txn]
      | succeeded hc _ _ _ _ _ _ =>
          refine Or.inr ⟨hc, fun t => ⟨?_, ?_⟩⟩
          · by_cases ht : t = taskId
            · simp [committedTxns, successDelta, Begun.txn, ht]
            · have hne : executeKey taskId ≠ executeKey t := fun h => ht (executeKey_inj.mp h).symm
              simp [committedTxns, successDelta, Begun.txn, ht, hne]
          · have hedits := completedEvents_editEvents t L.isolationScope taskId
            simp only [completedEvents] at hedits ⊢
            simp only [successDelta, List.countP_append, List.countP_cons, hedits, loopEvent]
            by_cases ht : t = taskId
            · simp [ht]
            · simp [ht, Ne.symm ht]
      | @failed b attempts result compensatedAt _ _ _ _ _ _ _ _ _ =>
          refine Or.inl fun t => ⟨?_, ?_⟩
          · have hst : (compensateTxn result.touchedPaths
                (b.txn taskId .pending (some attempts))).status ≠ .committed := by
              rw [compensateTxn]
              split <;> simp [Begun.txn]
            simp [committedTxns, failureDelta, hst]
          · have hcomp := completedEvents_compensation t L.isolationScope taskId compensatedAt
              result.touchedPaths
            simp only [completedEvents] at hcomp ⊢
            simp only [failureDelta, List.countP_append, List.countP_cons, hcomp, loopEvent]
            simp

/-! ### The invariant -/

/-- Every task is committed at most once, and completed in the log as often as committed. -/
def CommittedOnce (L : Ledger) : Prop :=
  ∀ t, committedTxns t L.sagaJournal ≤ 1
    ∧ completedEvents t L.bodies = committedTxns t L.sagaJournal

/-- A turn keeps the invariant. -/
lemma CommittedOnce.turn {W : Type} {h : Host W} {cfg : RunConfig} {node : TaskNode}
    {taskId : String} {completed : List String} {L : Ledger} {r : Except PyErr Unit} {δ : Delta}
    {fx : List Effect} (hL : CommittedOnce L) (hturn : Turn h cfg node taskId completed L r δ fx) :
    CommittedOnce (L.apply taskId δ) := by
  intro t
  obtain ⟨h1, h2⟩ := hL t
  have htxns : committedTxns t (L.apply taskId δ).sagaJournal
      = committedTxns t L.sagaJournal + committedTxns t δ.txns := by
    rw [Ledger.apply_sagaJournal, committedTxns, List.countP_append]
    rfl
  have hevents : completedEvents t (L.apply taskId δ).bodies
      = completedEvents t L.bodies + completedEvents t δ.events := by
    rw [bodies_apply, completedEvents, List.countP_append]
    rfl
  rw [htxns, hevents]
  rcases hturn.commits with hnone | ⟨hfree, hone⟩
  · obtain ⟨h3, h4⟩ := hnone t
    omega
  · obtain ⟨h3, h4⟩ := hone t
    by_cases ht : t = taskId
    · -- the key was free, so this is the first commit of the task
      subst ht
      have h5 := (not_alreadyCommitted_iff L t).mp hfree
      rw [if_pos rfl] at h3 h4
      omega
    · rw [if_neg ht] at h3 h4
      omega

omit [PyRuntime] in
/-- An event of another kind keeps the invariant. -/
lemma CommittedOnce.log {L L' : Ledger} (hL : CommittedOnce L) {e : EventBody}
    (hkind : e.kind ≠ .taskCompleted) (hjournal : L'.sagaJournal = L.sagaJournal)
    (hbodies : L'.bodies = L.bodies ++ [e]) : CommittedOnce L' := by
  intro t
  obtain ⟨h1, h2⟩ := hL t
  have hnone : completedEvents t [e] = 0 := by
    simp [completedEvents, hkind]
  have hsum : completedEvents t L'.bodies = completedEvents t L.bodies + completedEvents t [e] := by
    rw [hbodies, completedEvents, List.countP_append]
    rfl
  rw [hsum, hjournal]
  omega

lemma committedOnce_history :
    HistoryInvariant (fun _ => True) (fun _ _ => True) CommittedOnce where
  start := by
    intro m L _ hstart t
    obtain ⟨hj, hl, -⟩ := startLedger_empty hstart
    simp [hj, Ledger.bodies, hl, committedTxns, completedEvents]
  turn := fun _ _ _ _ _ hturn hI => hI.turn hturn
  state := fun _ hI => hI
  reconcile := fun hI => hI
  override := fun _ _ hI => hI
  record := fun resolution subject hI =>
    hI.log (by simp [resolutionEvent]) rfl (bodies_recordResolution _ resolution subject)

/-! ### Executions -/

/-- A turn executes at most its own task, and only while its key is not committed. -/
lemma Turn.executes {W : Type} {h : Host W} {cfg : RunConfig} {node : TaskNode} {taskId : String}
    {completed : List String} {L : Ledger} {r : Except PyErr Unit} {δ : Delta} {fx : List Effect}
    (hturn : Turn h cfg node taskId completed L r δ fx) {t : String}
    (ht : Effect.execute t ∈ fx) : t = taskId ∧ alreadyCommitted L (executeKey taskId) = false := by
  cases hturn with
  | unmet _ => simp at ht
  | ran _ hrun =>
      cases hrun with
      | committed _ => simp at ht
      | conflict _ _ => simp at ht
      | crashed hc _ hfx _ => exact ⟨hfx.only t ht, hc⟩
      | succeeded hc _ hfx _ _ _ _ => exact ⟨hfx.only t ht, hc⟩
      | failed hc _ hfx _ _ => exact ⟨hfx.only t ht, hc⟩

/-- The loop never executes a task whose key is committed. -/
lemma LoopRun.not_execute {W : Type} {h : Host W} {cfg : RunConfig} {graph : List TaskNode}
    {order completed : List String} {L L' : Ledger} {r : Except PyErr RunState} {fx : List Effect}
    (hrun : LoopRun h cfg graph order completed L r L' fx) {t : String}
    (ht : alreadyCommitted L (executeKey t) = true) : Effect.execute t ∉ fx := by
  induction hrun with
  | finished => simp
  | unknown _ => simp
  | skip _ _ ih => exact ih ht
  | paused _ _ _ => simp
  | aborted _ _ _ => simp
  | noNode _ _ _ => simp
  | raised _ _ _ hturn =>
      intro hmem
      obtain ⟨rfl, hfree⟩ := hturn.executes hmem
      rw [ht] at hfree
      exact absurd hfree (by simp)
  | @turned taskId _ _ L _ _ δ _ _ _ _ _ _ hturn _ ih =>
      have hkeep : alreadyCommitted (L.apply taskId δ) (executeKey t) = true := by
        rw [alreadyCommitted, Ledger.apply_sagaJournal, List.any_append]
        rw [alreadyCommitted] at ht
        rw [ht, Bool.true_or]
      intro hmem
      rcases List.mem_append.mp hmem with h1 | h1
      · obtain ⟨rfl, hfree⟩ := hturn.executes h1
        rw [ht] at hfree
        exact absurd hfree (by simp)
      · exact ih hkeep h1

/-- **At-most-once commit.**  In every ledger a history reaches, each task has at most one committed
transaction and at most one `task_completed` event, and no resume executes a committed task. -/
theorem committed_at_most_once {L : Ledger}
    (hL : Reached (fun _ => True) (fun _ _ => True) L) (taskId : String) :
    committedTxns taskId L.sagaJournal ≤ 1 ∧ completedEvents taskId L.bodies ≤ 1
      ∧ ∀ (W : Type) (h : Host W) (cfg : RunConfig) (manifest : Manifest) (w : W),
        alreadyCommitted L (executeKey taskId) = true →
          Effect.execute taskId ∉ (resume h cfg manifest ⟨L, w, []⟩).2.effects := by
  obtain ⟨h1, h2⟩ := hL.invariant committedOnce_history taskId
  refine ⟨h1, by omega, fun W h cfg manifest w hc => ?_⟩
  obtain ⟨r, state, L', fx, w', hdrive, hexec, -⟩ := resume_spec h cfg manifest ⟨L, w, []⟩
  rw [hexec, List.nil_append]
  cases hdrive with
  | noOrder _ => simp
  | raised _ hloop => exact hloop.not_execute hc
  | ended _ hloop => exact hloop.not_execute hc

end Runtime

section Example

attribute [local instance] cpython

/-- A task that failed, was overridden and succeeded in a resume is committed, once. -/
theorem committed_at_most_once_after_override :
    ∃ L, playRun (fun _ _ => true) (scriptManifest [("T1", [])])
        [("T1", .always mockFailure)] [] [.decide "B1" "override", .resume [] []] = some L
      ∧ alreadyCommitted L (executeKey "T1") = true
      ∧ committedTxns "T1" L.sagaJournal ≤ 1 ∧ completedEvents "T1" L.bodies ≤ 1
      ∧ Effect.execute "T1" ∉ (resume (mockHost [] scriptNow) scriptConfig
          (scriptManifest [("T1", [])]) ⟨L, .fresh [], []⟩).2.effects := by
  obtain ⟨L, hL, hc⟩ : ∃ L, playRun (fun _ _ => true) (scriptManifest [("T1", [])])
      [("T1", .always mockFailure)] [] [.decide "B1" "override", .resume [] []] = some L
      ∧ alreadyCommitted L (executeKey "T1") = true := by
    refine (Option.any_eq_true _ _).mp ?_
    decide +kernel
  have hreached : Reached (fun _ => True) (fun _ _ => true = true) L :=
    playRun_reached trivial (scriptManifest_roots _) hL
  obtain ⟨h1, h2, h3⟩ := committed_at_most_once
    (hreached.mono (fun _ _ => trivial) fun _ _ _ => trivial) "T1"
  exact ⟨L, hL, hc, h1, h2, h3 _ _ _ _ _ hc⟩

end Example

end IplanRunner
