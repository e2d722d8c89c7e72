import IplanRunner.Runs.Commit
import IplanRunner.Runs.Leases

/-!
The sections of a ledger tell the same story of every task.

* `TaskRecords`: the four sections that only grow, of a turn or of a ledger; `TaskRecords.logged`,
  `leased`, `crashed`, `journalled`, `moved` count what they say about a task.
* `Agrees`: what the counts have to do with each other; `Agrees.append` adds it up and
  `Turn.agrees` is the proof, delta by delta.
* `Concluded`: every start of a task but the last has ended, and a commit ends the last.
* `records_agree`: both hold of every ledger reached, and no blocker is open that the log does not
  show.
-/

namespace IplanRunner

open Foundation

/-! ### Counts -/

/-- The sections a turn appends to, apart from the blockers, which an override removes. -/
structure TaskRecords where
  events : List EventBody
  leases : List Lease
  txns : List Txn
  history : List HistoryEntry

/-- Records added to records. -/
def TaskRecords.append (R S : TaskRecords) : TaskRecords :=
  ⟨R.events ++ S.events, R.leases ++ S.leases, R.txns ++ S.txns, R.history ++ S.history⟩

/-- What a turn adds. -/
def Delta.records (δ : Delta) : TaskRecords := ⟨δ.events, δ.leases, δ.txns, δ.history⟩

/-- The sections of a ledger. -/
def Ledger.records (L : Ledger) : TaskRecords :=
  ⟨L.bodies, L.agentLeases, L.sagaJournal, L.executionHistory⟩

/-- The events of a kind about a task. -/
def TaskRecords.logged (R : TaskRecords) (kind : EventKind) (taskId : String) : ℕ :=
  R.events.countP fun e => e.kind == kind && e.subjectId == .str taskId

/-- The leases of a task. -/
def TaskRecords.leased (R : TaskRecords) (taskId : String) : ℕ :=
  R.leases.countP (·.taskId == taskId)

/-- The leases of a task that were never released: what a run that raised left behind. -/
def TaskRecords.crashed (R : TaskRecords) (taskId : String) : ℕ :=
  R.leases.countP fun l => l.taskId == taskId && l.releasedAt == .none

/-- The transactions of a task. -/
def TaskRecords.journalled (R : TaskRecords) (taskId : String) : ℕ :=
  R.txns.countP (·.idempotencyKey == executeKey taskId)

/-- The transactions of a task with a status. -/
def TaskRecords.journalledAs (R : TaskRecords) (status : TxnStatus) (taskId : String) : ℕ :=
  R.txns.countP fun t => t.idempotencyKey == executeKey taskId && t.status == status

/-- The changes of a task from one status to another in the history. -/
def TaskRecords.moved (R : TaskRecords) (fromStatus toStatus : TaskStatus) (taskId : String) : ℕ :=
  R.history.countP fun x =>
    x.taskId == taskId && x.fromStatus == fromStatus && x.toStatus == toStatus

section Append

variable (R S : TaskRecords) (taskId : String)

lemma logged_append (kind : EventKind) :
    (R.append S).logged kind taskId = R.logged kind taskId + S.logged kind taskId :=
  List.countP_append

lemma leased_append : (R.append S).leased taskId = R.leased taskId + S.leased taskId :=
  List.countP_append

lemma crashed_append : (R.append S).crashed taskId = R.crashed taskId + S.crashed taskId :=
  List.countP_append

lemma journalled_append :
    (R.append S).journalled taskId = R.journalled taskId + S.journalled taskId :=
  List.countP_append

lemma journalledAs_append (status : TxnStatus) : (R.append S).journalledAs status taskId
    = R.journalledAs status taskId + S.journalledAs status taskId :=
  List.countP_append

lemma moved_append (fromStatus toStatus : TaskStatus) :
    (R.append S).moved fromStatus toStatus taskId
      = R.moved fromStatus toStatus taskId + S.moved fromStatus toStatus taskId :=
  List.countP_append

end Append

/-! ### Agreement -/

/-- The log, the leases, the journal and the history agree on a task: on how often it was started,
completed, blocked and compensated. -/
structure Agrees (taskId : String) (R : TaskRecords) : Prop where
  leased : R.leased taskId = R.logged .taskStarted taskId
  journalled : R.journalled taskId = R.logged .taskStarted taskId
  began : R.moved .pending .inProgress taskId = R.logged .taskStarted taskId
  committed : R.journalledAs .committed taskId = R.logged .taskCompleted taskId
  completed : R.moved .inProgress .completed taskId = R.logged .taskCompleted taskId
  compensated : R.journalledAs .compensated taskId = R.logged .compensation taskId
  blocked : R.moved .pending .blocked taskId + R.moved .inProgress .blocked taskId
    = R.logged .taskBlocked taskId

/-- TaskRecords that agree, added up, agree. -/
lemma Agrees.append {taskId : String} {R S : TaskRecords} (hR : Agrees taskId R)
    (hS : Agrees taskId S) : Agrees taskId (R.append S) := by
  constructor
  · rw [leased_append, logged_append, hR.leased, hS.leased]
  · rw [journalled_append, logged_append, hR.journalled, hS.journalled]
  · rw [moved_append, logged_append, hR.began, hS.began]
  · rw [journalledAs_append, logged_append, hR.committed, hS.committed]
  · rw [moved_append, logged_append, hR.completed, hS.completed]
  · rw [journalledAs_append, logged_append, hR.compensated, hS.compensated]
  · have h1 := hR.blocked
    have h2 := hS.blocked
    rw [moved_append, moved_append, logged_append]
    omega

/-- No records agree. -/
lemma agrees_nil (taskId : String) : Agrees taskId ⟨[], [], [], []⟩ := by
  constructor <;> rfl

section Runtime

variable [PyRuntime]

section Turn

variable {W : Type} {h : Host W} {cfg : RunConfig} {node : TaskNode} {taskId : String}
  {completed : List String} {L : Ledger} {r : Except PyErr Unit} {δ : Delta} {fx : List Effect}

omit [PyRuntime] in
/-- The edits of a success are not among the events that count. -/
lemma countP_editEvents (kind : EventKind) (hkind : kind ≠ .fileEdited) (t : String) (scope : Dict)
    (edits : List (String × String)) : (editEvents scope taskId edits).countP
      (fun e => e.kind == kind && e.subjectId == .str t) = 0 := by
  rw [List.countP_eq_zero]
  intro e he
  obtain ⟨x, -, rfl⟩ := List.mem_map.mp he
  simp [loopEvent, hkind.symm]

attribute [local simp] Delta.records TaskRecords.logged TaskRecords.leased TaskRecords.crashed
  TaskRecords.journalled TaskRecords.journalledAs TaskRecords.moved blockDelta crashDelta
  successDelta failureDelta loopEvent Begun.lease Begun.txn executeKey_inj countP_editEvents List.countP_cons

/-- **What a turn adds agrees**, whatever the task it is asked of. -/
lemma Turn.agrees (hturn : Turn h cfg node taskId completed L r δ fx) (t : String) :
    Agrees t δ.records := by
  cases hturn with
  | unmet _ => constructor <;> simp
  | ran _ hrun =>
      cases hrun with
      | committed _ => exact agrees_nil t
      | conflict _ _ => constructor <;> simp
      | crashed _ _ _ _ => constructor <;> simp
      | succeeded _ _ _ _ _ _ _ => constructor <;> simp
      | @failed b attempts result _ _ _ _ _ _ _ _ _ _ =>
          by_cases hpaths : result.touchedPaths = []
          · constructor <;> simp [compensationEvents, compensateTxn, hpaths]
          · constructor <;> simp [compensationEvents, compensateTxn, hpaths]

/-- A ledger after a turn has the records of both. -/
lemma records_apply (L : Ledger) (taskId : String) (δ : Delta) :
    (L.apply taskId δ).records = L.records.append δ.records := by
  rw [Ledger.records, bodies_apply]
  rfl

/-! ### Conclusions -/

/-- Every start of a task has been concluded, apart from at most one whose run raised, and there is
none such after a commit. -/
structure Concluded (L : Ledger) (taskId : String) : Prop where
  once : L.records.journalledAs .committed taskId + L.records.crashed taskId ≤ 1
  ended : L.LeaseFree taskId → L.records.logged .taskStarted taskId
    = L.records.logged .taskCompleted taskId + L.records.moved .inProgress .blocked taskId
  bounded : L.records.logged .taskStarted taskId ≤ L.records.logged .taskCompleted taskId
    + L.records.moved .inProgress .blocked taskId + L.records.crashed taskId

omit [PyRuntime] in
lemma crashed_eq_zero {L : Ledger} {t : String} (hfree : L.LeaseFree t) :
    L.records.crashed t = 0 := by
  rw [TaskRecords.crashed, List.countP_eq_zero]
  intro l hl hcount
  obtain ⟨hname, hnone⟩ : l.taskId = t ∧ l.releasedAt = .none := by simpa using hcount
  have htruthy := hfree l hl hname
  rw [hnone] at htruthy
  exact absurd htruthy (by decide)

/-- What a turn adds to the counts of a task: it does not start it, and blocks it in progress only
where a lease is in the way, or it starts it, free and uncommitted, and ends in one way. -/
lemma Turn.counts (hturn : Turn h cfg node taskId completed L r δ fx) (hL : NoExpiry L)
    (t : String) :
    (δ.records.logged .taskStarted t = 0 ∧ δ.records.logged .taskCompleted t = 0
      ∧ δ.records.journalledAs .committed t = 0 ∧ δ.records.crashed t = 0
      ∧ (L.LeaseFree t → δ.records.moved .inProgress .blocked t = 0))
    ∨ (L.LeaseFree t ∧ L.records.journalledAs .committed t = 0
      ∧ δ.records.logged .taskStarted t = 1
      ∧ δ.records.logged .taskCompleted t + δ.records.moved .inProgress .blocked t
        + δ.records.crashed t = 1
      ∧ δ.records.journalledAs .committed t = δ.records.logged .taskCompleted t) := by
  by_cases ht : taskId = t
  swap
  · left
    cases hturn with
    | unmet _ => simp [ht]
    | ran _ hrun =>
        cases hrun with
        | committed _ => simp
        | conflict _ _ => simp [ht]
        | crashed _ _ _ _ => simp [ht]
        | succeeded _ _ _ _ _ _ _ => simp [ht]
        | @failed b attempts result _ _ _ _ _ _ _ _ _ _ =>
            by_cases hpaths : result.touchedPaths = []
            · simp [ht, compensationEvents, compensateTxn, hpaths]
            · simp [ht, compensationEvents, compensateTxn, hpaths]
  subst ht
  cases hturn with
  | unmet _ => left; simp
  | ran _ hrun =>
      cases hrun with
      | committed _ => left; simp
      | conflict _ hheld =>
          left
          have hleased : ¬ L.LeaseFree taskId := by
            rw [← canAcquire_iff hL taskId, hheld]
            simp
          simp [hleased]
      | crashed hc hl _ _ =>
          right
          refine ⟨(canAcquire_iff hL _ _).mp hl, (not_alreadyCommitted_iff L _).mp hc, ?_⟩
          simp
      | succeeded hc hl _ _ _ _ _ =>
          right
          refine ⟨(canAcquire_iff hL _ _).mp hl, (not_alreadyCommitted_iff L _).mp hc, ?_⟩
          simp
      | @failed b attempts result _ _ _ _ _ hc hl _ _ _ =>
          right
          refine ⟨(canAcquire_iff hL _ _).mp hl, (not_alreadyCommitted_iff L _).mp hc, ?_⟩
          by_cases hpaths : result.touchedPaths = []
          · simp [compensationEvents, compensateTxn, hpaths]
          · simp [compensationEvents, compensateTxn, hpaths]

/-- A turn keeps the starts concluded. -/
lemma Concluded.turn {t : String} (hI : Concluded L t) (hL : NoExpiry L)
    (hturn : Turn h cfg node taskId completed L r δ fx) : Concluded (L.apply taskId δ) t := by
  have hfree : (L.apply taskId δ).LeaseFree t → L.LeaseFree t :=
    fun hall l hl => hall l (List.mem_append_left _ hl)
  have hcrashed : (L.apply taskId δ).LeaseFree t → δ.records.crashed t = 0 := by
    intro hall
    have hzero := crashed_eq_zero hall
    rw [records_apply, crashed_append] at hzero
    omega
  obtain ⟨honce, hended, hbounded⟩ := hI
  constructor
  · rw [records_apply, journalledAs_append, crashed_append]
    rcases hturn.counts hL t with ⟨-, -, h1, h2, -⟩ | ⟨h1, h2, -, h3, h4⟩
    · omega
    · -- the task was free: nothing of it was left behind
      have h5 := crashed_eq_zero h1
      omega
  · intro hall
    have h0 := hcrashed hall
    have h1 := hended (hfree hall)
    rw [records_apply, logged_append, logged_append, moved_append]
    rcases hturn.counts hL t with ⟨h2, h3, -, -, h4⟩ | ⟨-, -, h2, h3, -⟩
    · have h5 := h4 (hfree hall)
      omega
    · omega
  · rw [records_apply, logged_append, logged_append, moved_append, crashed_append]
    rcases hturn.counts hL t with ⟨h1, h2, -, h3, -⟩ | ⟨-, -, h1, h2, -⟩
    · omega
    · omega

/-- A turn logs the blockers it opens. -/
lemma Turn.shows (hturn : Turn h cfg node taskId completed L r δ fx) (t : String) :
    δ.blockers.countP (·.taskId == t) = δ.records.logged .taskBlocked t := by
  cases hturn with
  | unmet _ => simp
  | ran _ hrun =>
      cases hrun with
      | committed _ => simp
      | conflict _ _ => simp
      | crashed _ _ _ _ => simp
      | succeeded _ _ _ _ _ _ _ => simp
      | @failed b attempts result _ _ _ _ _ _ _ _ _ _ =>
          by_cases hpaths : result.touchedPaths = []
          · simp [compensationEvents, hpaths]
          · simp [compensationEvents, hpaths]

end Turn

/-! ### Histories -/

section Histories

variable {manifests : Manifest → Prop} {overrides : Ledger → String → Prop}

/-- What a decision adds to the records: its event. -/
lemma records_recordResolution (L : Ledger) (resolution : Resolution) (subject : Val) :
    (L.recordResolution resolution subject).records = L.records.append
      ⟨[resolutionEvent L.isolationScope subject resolution.atTime], [], [], []⟩ := by
  rw [Ledger.records, bodies_recordResolution, Ledger.records, TaskRecords.append]
  simp [Ledger.recordResolution]

omit [PyRuntime] in
/-- It is an event that does not count. -/
lemma logged_resolutionEvent (scope : Dict) (subject : Val) (atTime : String) {kind : EventKind}
    (hkind : kind ≠ .resolution) (t : String) :
    TaskRecords.logged ⟨[resolutionEvent scope subject atTime], [], [], []⟩ kind t = 0 := by
  simp [TaskRecords.logged, resolutionEvent, hkind.symm]

omit [PyRuntime] in
lemma agrees_resolutionEvent (scope : Dict) (subject : Val) (atTime t : String) :
    Agrees t ⟨[resolutionEvent scope subject atTime], [], [], []⟩ := by
  constructor <;>
    simp [logged_resolutionEvent, TaskRecords.leased, TaskRecords.journalled,
      TaskRecords.journalledAs, TaskRecords.moved]

/-- The records of a new ledger are empty. -/
lemma startLedger_records {m : Manifest} {L : Ledger} (hstart : startLedger m = .ok L) :
    L.records = ⟨[], [], [], []⟩ := by
  have hnew := startLedger_new hstart
  rw [Ledger.records, Ledger.bodies, hnew.log, hnew.leases, hnew.journal, hnew.history]
  rfl

lemma agrees_history (t : String) :
    HistoryInvariant manifests overrides (fun L => Agrees t L.records) where
  start := by
    intro m L _ hstart
    rw [startLedger_records hstart]
    exact agrees_nil t
  turn := fun _ _ _ _ _ hturn hI => by
    rw [records_apply]
    exact hI.append (hturn.agrees t)
  state := fun _ hI => hI
  reconcile := fun hI => hI
  override := fun _ _ hI => hI
  record := fun resolution subject hI => by
    rw [records_recordResolution]
    exact hI.append (agrees_resolutionEvent _ _ _ t)

/-- The starts of a task are concluded, and no lease expires, which the leases need. -/
lemma concluded_history (t : String) :
    HistoryInvariant manifests overrides (fun L => NoExpiry L ∧ Concluded L t) where
  start := by
    intro m L hm hstart
    have hexp : HistoryInvariant manifests overrides NoExpiry := noExpiry_history
    refine ⟨hexp.start hm hstart, ?_⟩
    constructor
    all_goals rw [startLedger_records hstart]
    · simp [TaskRecords.journalledAs, TaskRecords.crashed]
    · simp [TaskRecords.logged, TaskRecords.moved]
    · simp [TaskRecords.logged]
  turn := fun _ _ _ _ _ hturn hI => ⟨hturn.noExpiry hI.1, hI.2.turn hI.1 hturn⟩
  state := fun _ hI => ⟨hI.1, hI.2.once, hI.2.ended, hI.2.bounded⟩
  reconcile := fun hI => ⟨hI.1, hI.2.once, hI.2.ended, hI.2.bounded⟩
  override := fun _ _ hI => ⟨hI.1, hI.2.once, hI.2.ended, hI.2.bounded⟩
  record := fun resolution subject hI => by
    obtain ⟨hleases, honce, hended, hbounded⟩ := hI
    refine ⟨hleases, ?_, fun hfree => ?_, ?_⟩
    · rw [records_recordResolution, journalledAs_append, crashed_append]
      exact honce
    · rw [records_recordResolution, logged_append, logged_append, moved_append,
        logged_resolutionEvent _ _ _ (by decide), logged_resolutionEvent _ _ _ (by decide)]
      exact hended hfree
    · rw [records_recordResolution, logged_append, logged_append, moved_append, crashed_append,
        logged_resolutionEvent _ _ _ (by decide), logged_resolutionEvent _ _ _ (by decide)]
      exact hbounded

/-- The blockers of a task. -/
def Ledger.blockersOf (L : Ledger) (taskId : String) : ℕ :=
  L.blockers.countP (·.taskId == taskId)

lemma Turn.blockersOf {W : Type} {h : Host W} {cfg : RunConfig} {node : TaskNode} {taskId : String}
    {completed : List String} {L : Ledger} {r : Except PyErr Unit} {δ : Delta} {fx : List Effect}
    (hturn : Turn h cfg node taskId completed L r δ fx) (t : String) :
    (L.apply taskId δ).blockersOf t = L.blockersOf t + δ.records.logged .taskBlocked t := by
  rw [← hturn.shows t, Ledger.blockersOf, Ledger.apply_blockers, List.countP_append]
  rfl

lemma logged_blocked_recordResolution (L : Ledger) (resolution : Resolution) (subject : Val)
    (t : String) : (L.recordResolution resolution subject).records.logged .taskBlocked t
      = L.records.logged .taskBlocked t := by
  rw [records_recordResolution, logged_append, logged_resolutionEvent _ _ _ (by decide),
    Nat.add_zero]

/-- The log shows every blocker that is open. -/
lemma shown_history (t : String) : HistoryInvariant manifests overrides
    (fun L => L.blockersOf t ≤ L.records.logged .taskBlocked t) where
  start := by
    intro m L _ hstart
    simp [Ledger.blockersOf, (startLedger_new hstart).blockers]
  turn := fun _ _ _ _ _ hturn hI => by
    rw [hturn.blockersOf, records_apply, logged_append]
    omega
  state := fun _ hI => hI
  reconcile := fun hI => hI
  override := fun {L blockerId b} _ _ hI =>
    (List.filter_sublist.countP_le (p := fun x : Blocker => x.taskId == t)).trans hI
  record := fun resolution subject hI => by
    rw [logged_blocked_recordResolution]
    exact hI

/-- Where nothing is overridden, every blocker the log shows is open. -/
lemma allShown_history (hnone : ∀ L blockerId, ¬ overrides L blockerId) (t : String) :
    HistoryInvariant manifests overrides
      (fun L => L.blockersOf t = L.records.logged .taskBlocked t) where
  start := by
    intro m L _ hstart
    rw [Ledger.blockersOf, (startLedger_new hstart).blockers, startLedger_records hstart]
    rfl
  turn := fun _ _ _ _ _ hturn hI => by
    rw [hturn.blockersOf, records_apply, logged_append, hI]
  state := fun _ hI => hI
  reconcile := fun hI => hI
  override := fun _ hoverride _ => absurd hoverride (hnone _ _)
  record := fun resolution subject hI => by
    rw [logged_blocked_recordResolution]
    exact hI

/-- **The sections of a ledger agree**, whatever was run, resumed and decided: on how often each
task was started, completed, blocked and compensated; all starts but at most one, which raised, have
ended, and none follows a commit; and the open blockers of a task are among the blocks its log
shows, and are all of them while nothing was overridden. -/
theorem records_agree {L : Ledger} (hL : Reached manifests overrides L) (taskId : String) :
    Agrees taskId L.records ∧ Concluded L taskId
      ∧ L.blockersOf taskId ≤ L.records.logged .taskBlocked taskId
      ∧ ((∀ L₀ blockerId, ¬ overrides L₀ blockerId) →
        L.blockersOf taskId = L.records.logged .taskBlocked taskId) :=
  ⟨hL.invariant (agrees_history taskId), (hL.invariant (concluded_history taskId)).2,
    hL.invariant (shown_history taskId), fun hnone =>
      hL.invariant (allShown_history hnone taskId)⟩

end Histories

end Runtime

section Example

attribute [local instance] cpython

/-- A task that fails, is overridden and succeeds in a resume was started twice, completed once and
blocked once, and nothing of it is open. -/
theorem records_agree_after_override :
    ∃ L, playRun (fun _ _ => true) (scriptManifest [("T1", [])])
        [("T1", .always mockFailure)] [] [.decide "B1" "override", .resume [] []] = some L
      ∧ L.records.logged .taskStarted "T1" = 2 ∧ L.LeaseFree "T1"
      ∧ Agrees "T1" L.records ∧ Concluded L "T1"
      ∧ L.blockersOf "T1" ≤ L.records.logged .taskBlocked "T1" := by
  obtain ⟨L, hL, hc⟩ : ∃ L, playRun (fun _ _ => true) (scriptManifest [("T1", [])])
      [("T1", .always mockFailure)] [] [.decide "B1" "override", .resume [] []] = some L
      ∧ decide (L.records.logged .taskStarted "T1" = 2 ∧ L.LeaseFree "T1") = true := by
    refine (Option.any_eq_true _ _).mp ?_
    decide +kernel
  obtain ⟨hstarted, hfree⟩ := of_decide_eq_true hc
  have hreached : Reached (fun _ => True) (fun _ _ => true = true) L :=
    playRun_reached trivial (scriptManifest_roots _) hL
  obtain ⟨h1, h2, h3, -⟩ := records_agree hreached "T1"
  exact ⟨L, hL, hstarted, hfree, h1, h2, h3⟩

end Example

end IplanRunner
