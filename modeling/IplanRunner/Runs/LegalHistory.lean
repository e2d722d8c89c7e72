import IplanRunner.Foundation.Walk
import IplanRunner.Runs.Ended
import IplanRunner.Runs.Fixpoint
import IplanRunner.Runs.HeldBack
import IplanRunner.Runs.Script

/-!
Execution histories as paths of the task state machine (`STATE_MODEL.md`).

* `LegalHistory`: the history of every task leads from `pending` to the status it has.
* `TurnFits`, `OverrideFits`: what a turn, or an override, must find for its literals to be true;
  `legal_apply_iff` and `legal_override_iff` say that this is exactly when the history stays legal.
* `StatusLogged`: the history and the log record the same changes, in the same order.
* `Lawful`, `history_legal`: over every history whose turns and overrides fit, both hold.
-/

namespace IplanRunner

open Foundation

/-- The history of a task. -/
def Ledger.historyOf (L : Ledger) (taskId : String) : List HistoryEntry :=
  L.executionHistory.filter (·.taskId == taskId)

/-- The history of every task, as `task` finds it under its id, leads from `pending` to the status
it has. -/
def LegalHistory (L : Ledger) : Prop :=
  ∀ t st, L.status? t = some st →
    Walk HistoryEntry.fromStatus HistoryEntry.toStatus .pending (L.historyOf t) st

/-- The change of status an event records, with its task and its time. -/
def EventBody.change (e : EventBody) : Option (Val × Val × TaskStatus) :=
  match e.kind with
  | .taskStarted => some (e.subjectId, e.atTime, .inProgress)
  | .taskCompleted => some (e.subjectId, e.atTime, .completed)
  | .taskBlocked => some (e.subjectId, e.atTime, .blocked)
  | _ => none

/-- The change of status an entry of the history records. -/
def HistoryEntry.change (x : HistoryEntry) : Val × Val × TaskStatus :=
  (.str x.taskId, .str x.atTime, x.toStatus)

/-- The history and the log record the same changes of status, in the same order. -/
def StatusLogged [PyRuntime] (L : Ledger) : Prop :=
  L.executionHistory.map HistoryEntry.change = L.bodies.filterMap EventBody.change

/-- An override resets a task that is pending already. -/
def OverrideFits (L : Ledger) (blockerId : String) : Prop :=
  ∀ b, L.blocker? blockerId = some b → ∀ st, L.status? b.taskId = some st → st = .pending

/-- An override keeps a legal history legal exactly when it fits. -/
theorem legal_override_iff {L : Ledger} (hL : LegalHistory L) {blockerId : String} {b : Blocker}
    (hb : L.blocker? blockerId = some b) :
    LegalHistory (L.override b) ↔ OverrideFits L blockerId := by
  have hkeep : ∀ t, (L.override b).historyOf t = L.historyOf t := fun _ => rfl
  constructor
  · intro hlegal b' hb' st hst
    obtain rfl : b = b' := Option.some.inj (hb.symm.trans hb')
    have hafter : (L.override b).status? b.taskId = some .pending := by
      rw [Ledger.status?_override, hst, Option.map_some, if_pos rfl]
    have h1 := hlegal b.taskId .pending hafter
    rw [hkeep] at h1
    exact (hL b.taskId st hst).unique h1
  · intro hfits t st hst
    rw [Ledger.status?_override] at hst
    obtain ⟨old, hold, hif⟩ := Option.map_eq_some_iff.mp hst
    rw [hkeep]
    by_cases ht : t = b.taskId
    · rw [if_pos ht] at hif
      have hpending : old = .pending := hfits b hb old (ht ▸ hold)
      have hold' := hL t old hold
      rw [hpending] at hold'
      rwa [← hif]
    · rw [if_neg ht] at hif
      rw [← hif]
      exact hL t old hold

section Runtime

variable [PyRuntime]

/-! ### Turns -/

/-- What a turn finds is what its history entries say it has found: a task that waits or is started
is pending, one in the way of an unreleased lease is in progress. -/
structure TurnFits (node : TaskNode) (completed : List String) (L : Ledger) : Prop where
  waits : ¬ DepsMet node completed → L.status? node.taskId.pyStr = some .pending
  starts : Startable node completed L → L.status? node.taskId.pyStr = some .pending
  leased : DepsMet node completed → ¬ L.Committed node.taskId.pyStr →
    ¬ L.LeaseFree node.taskId.pyStr → L.status? node.taskId.pyStr = some .inProgress

section Turn

variable {W : Type} {h : Host W} {cfg : RunConfig} {node : TaskNode} {completed : List String}
  {L : Ledger} {r : Except PyErr Unit} {δ : Delta} {fx : List Effect}

lemma turnFits_of_startable (hst : Startable node completed L) :
    TurnFits node completed L ↔ L.status? node.taskId.pyStr = some .pending :=
  ⟨fun hf => hf.starts hst, fun hp => ⟨fun _ => hp, fun _ => hp,
    fun _ _ hleased => absurd hst.free hleased⟩⟩

/-- The entries a turn appends lead from the status it finds to the one it leaves exactly when it
fits. -/
lemma Turn.walk_iff (hturn : Turn h cfg node node.taskId.pyStr completed L r δ fx)
    (hL : NoExpiry L) {e : TaskEntry} (he : L.task? node.taskId.pyStr = some e) :
    Walk HistoryEntry.fromStatus HistoryEntry.toStatus e.status δ.history (δ.entry e).status
      ↔ TurnFits node completed L := by
  have hstatus : L.status? node.taskId.pyStr = some e.status := by rw [Ledger.status?, he]; rfl
  have hstart : Startable node completed L → (TaskStatus.pending = e.status
      ↔ TurnFits node completed L) := by
    intro hst
    rw [turnFits_of_startable hst, hstatus, Option.some_inj]
    exact eq_comm
  cases hturn with
  | unmet hunmet =>
      have hfits : TurnFits node completed L ↔ e.status = .pending := by
        rw [← Option.some_inj, ← hstatus]
        exact ⟨fun hf => hf.waits hunmet, fun hp => ⟨fun _ => hp,
          fun hst => absurd hst.met hunmet, fun hmet => absurd hmet hunmet⟩⟩
      rw [hfits]
      simp [blockDelta, blockEntry, Walk, eq_comm]
  | ran hmet hrun =>
      cases hrun with
      | committed hc =>
          refine ⟨fun _ => ⟨fun hunmet => absurd hmet hunmet, fun hst => ?_,
            fun _ hn => absurd hc hn⟩, fun _ => rfl⟩
          exact absurd hst.uncommitted (by simp [hc])
      | conflict hc hl =>
          have hleased : ¬ L.LeaseFree node.taskId.pyStr := by
            rw [← canAcquire_iff hL _ _, hl]
            simp
          have hn : ¬ L.Committed node.taskId.pyStr := (not_committed_iff _ _).mpr hc
          have hfits : TurnFits node completed L ↔ e.status = .inProgress := by
            rw [← Option.some_inj, ← hstatus]
            exact ⟨fun hf => hf.leased hmet hn hleased, fun hp => ⟨fun hunmet => absurd hmet hunmet,
              fun hst => absurd hst.free hleased, fun _ _ _ => hp⟩⟩
          rw [hfits]
          simp [blockDelta, blockEntry, Walk, eq_comm]
      | crashed hc hl _ _ =>
          rw [← hstart ⟨hmet, hc, (canAcquire_iff hL _ _).mp hl⟩]
          simp [crashDelta, Walk]
      | succeeded hc hl _ _ _ _ _ =>
          rw [← hstart ⟨hmet, hc, (canAcquire_iff hL _ _).mp hl⟩]
          simp [successDelta, completeEntry, Walk]
      | failed hc hl _ _ _ =>
          rw [← hstart ⟨hmet, hc, (canAcquire_iff hL _ _).mp hl⟩]
          simp [failureDelta, blockEntry, Walk]

/-- A turn writes history of its own task only. -/
lemma Turn.history_own {taskId : String} (hturn : Turn h cfg node taskId completed L r δ fx) :
    ∀ x ∈ δ.history, x.taskId = taskId := by
  cases hturn with
  | unmet _ => simp [blockDelta]
  | ran _ hrun =>
      cases hrun with
      | committed _ => simp
      | conflict _ _ => simp [blockDelta]
      | crashed _ _ _ _ => simp [crashDelta]
      | succeeded => simp [successDelta]
      | failed _ _ _ _ _ => simp [failureDelta]

lemma Turn.historyOf_apply {taskId : String}
    (hturn : Turn h cfg node taskId completed L r δ fx) (t : String) :
    (L.apply taskId δ).historyOf t = L.historyOf t ++ if t = taskId then δ.history else [] := by
  rw [Ledger.historyOf, Ledger.apply_executionHistory, List.filter_append, Ledger.historyOf]
  congr 1
  by_cases ht : t = taskId
  · rw [if_pos ht, List.filter_eq_self]
    intro x hx
    rw [hturn.history_own x hx, ht]
    exact beq_self_eq_true taskId
  · rw [if_neg ht, List.filter_eq_nil_iff]
    intro x hx
    rw [hturn.history_own x hx]
    simpa using Ne.symm ht

/-- **A turn keeps a legal history legal exactly when it fits.** -/
theorem legal_apply_iff (hturn : Turn h cfg node node.taskId.pyStr completed L r δ fx)
    (hexp : NoExpiry L) (hsome : (L.task? node.taskId.pyStr).isSome) (hL : LegalHistory L) :
    LegalHistory (L.apply node.taskId.pyStr δ) ↔ TurnFits node completed L := by
  obtain ⟨e, he⟩ := Option.isSome_iff_exists.mp hsome
  have hbefore : L.status? node.taskId.pyStr = some e.status := by rw [Ledger.status?, he]; rfl
  have hafter : (L.apply node.taskId.pyStr δ).status? node.taskId.pyStr
      = some (δ.entry e).status := by
    rw [hturn.status?_apply, if_pos rfl, he, Option.map_some]
  have hown := hturn.historyOf_apply node.taskId.pyStr
  rw [if_pos rfl] at hown
  rw [← hturn.walk_iff hexp he]
  constructor
  · intro hlegal
    have hwalk := hlegal node.taskId.pyStr _ hafter
    rwa [hown, walk_iff_of_walk (hL node.taskId.pyStr _ hbefore)] at hwalk
  · intro hwalk t st hst
    by_cases ht : t = node.taskId.pyStr
    · rw [ht, hafter] at hst
      rw [ht, hown, ← Option.some.inj hst, walk_iff_of_walk (hL _ _ hbefore)]
      exact hwalk
    · rw [hturn.status?_apply, if_neg ht] at hst
      rw [hturn.historyOf_apply, if_neg ht, List.append_nil]
      exact hL t st hst

/-- A fresh task fits its turn. -/
lemma TurnFits.of_fresh (hfresh : Fresh L node.taskId.pyStr) : TurnFits node completed L where
  waits := fun _ => hfresh.pending
  starts := fun _ => hfresh.pending
  leased := fun _ _ hleased =>
    absurd (fun l hl hown => absurd hown (hfresh.unleased l hl)) hleased

/-- Every change of status a turn writes down it logs. -/
lemma Turn.logged {taskId : String} (hturn : Turn h cfg node taskId completed L r δ fx) :
    δ.history.map HistoryEntry.change = δ.events.filterMap EventBody.change := by
  have hedits : ∀ (scope : Dict) (edits : List (String × String)),
      (editEvents scope taskId edits).filterMap EventBody.change = [] := by
    intro scope edits
    rw [editEvents, List.filterMap_map, List.filterMap_eq_nil_iff]
    exact fun _ _ => rfl
  have hcomp : ∀ (scope : Dict) (atTime : String) (paths : List String),
      (compensationEvents scope taskId atTime paths).filterMap EventBody.change = [] := by
    intro scope atTime paths
    rw [compensationEvents]
    split <;> rfl
  cases hturn with
  | unmet _ => rfl
  | ran _ hrun =>
      cases hrun with
      | committed _ => rfl
      | conflict _ _ => rfl
      | crashed _ _ _ _ => rfl
      | succeeded =>
          simp [successDelta, hedits, List.filterMap_append, EventBody.change, loopEvent,
            HistoryEntry.change]
      | failed _ _ _ _ _ =>
          simp [failureDelta, hcomp, List.filterMap_append, EventBody.change, loopEvent,
            HistoryEntry.change]

end Turn

/-- The log of every ledger reached records the changes its history records. -/
lemma statusLogged_history {manifests : Manifest → Prop} {overrides : Ledger → String → Prop} :
    HistoryInvariant manifests overrides StatusLogged where
  start := by
    intro m L _ hstart
    have hnew := startLedger_new hstart
    rw [StatusLogged, Ledger.bodies, hnew.history, hnew.log]
    rfl
  turn := by
    intro W h cfg m node taskId completed L r δ fx _ _ _ _ _ hturn hL
    rw [StatusLogged, bodies_apply, Ledger.apply_executionHistory, List.map_append,
      List.filterMap_append, hturn.logged, hL]
  state := fun _ hL => hL
  reconcile := fun hL => hL
  override := fun _ _ hL => hL
  record := by
    intro L resolution subject hL
    rw [StatusLogged, bodies_recordResolution, List.filterMap_append, ← hL]
    exact (List.append_nil _).symm

/-! ### The loop -/

section Loop

variable {W : Type} {h : Host W} {cfg : RunConfig} {graph : List TaskNode}

/-- A loop that takes up only fresh tasks keeps a legal history legal. -/
lemma LoopRun.legal {order completed : List String} {L L' : Ledger} {r : Except PyErr RunState}
    {fx : List Effect} (hloop : LoopRun h cfg graph order completed L r L' fx) (hexp : NoExpiry L)
    (hnodup : order.Nodup) (hfresh : ∀ t ∈ order, (L.task? t).isSome → Fresh L t)
    (hL : LegalHistory L) : LegalHistory L' := by
  induction hloop with
  | finished => exact hL
  | unknown _ => exact hL
  | skip _ _ ih =>
      exact ih hexp hnodup.of_cons (fun t ht => hfresh t (List.mem_cons_of_mem _ ht)) hL
  | paused _ _ _ => exact hL
  | aborted _ _ _ => exact hL
  | noNode _ _ _ => exact hL
  | raised hsome _ hnode hturn =>
      obtain rfl := lastNode_pyStr hnode
      exact (legal_apply_iff hturn hexp hsome hL).mpr
        (.of_fresh (hfresh _ List.mem_cons_self hsome))
  | turned hsome _ hnode hturn _ ih =>
      obtain rfl := lastNode_pyStr hnode
      have hlegal := (legal_apply_iff hturn hexp hsome hL).mpr
        (.of_fresh (hfresh _ List.mem_cons_self hsome))
      refine ih (hturn.noExpiry hexp) hnodup.of_cons (fun t ht hknown => ?_) hlegal
      have hne := ne_of_mem_of_not_mem ht (List.nodup_cons.mp hnodup).1
      rw [Ledger.task?_apply_of_ne _ _ hturn.entry_taskId hne] at hknown
      exact hturn.fresh_of_ne hne (hfresh t (List.mem_cons_of_mem _ ht) hknown)

/-- A loop all of whose turns fit keeps a legal history legal. -/
lemma driveLoop_legal (order completed : List String) (s : Session W) (hexp : NoExpiry s.ledger)
    (hfits : ∀ node completed' s', TakesUp h cfg graph order completed s node completed' s' →
      TurnFits node completed' s'.ledger) (hL : LegalHistory s.ledger) :
    LegalHistory (driveLoop h cfg graph order completed s).2.ledger := by
  induction order generalizing completed s with
  | nil => exact hL
  | cons taskId rest ih =>
      by_cases hdone : s.ledger.Done taskId
      · rw [driveLoop_done hdone]
        exact ih _ s hexp (fun node completed' s' ht => hfits node completed' s' (.skip hdone ht))
          hL
      by_cases hactive : (s.ledger.task? taskId).isSome ∧ (h.control s.world).1 = .running
        ∧ (lastNode graph taskId).isSome
      swap
      · have hidle : (driveLoop h cfg graph (taskId :: rest) completed s).2.ledger = s.ledger :=
          (driveLoop_idle hdone hactive).2
        rwa [hidle]
      obtain ⟨hsome, hrunning, hn⟩ := hactive
      obtain ⟨node, hnode⟩ := Option.isSome_iff_exists.mp hn
      obtain rfl := lastNode_pyStr hnode
      obtain ⟨r, δ, fx, w, hturn, hexec⟩ := turn_spec h cfg node node.taskId.pyStr completed
        { s with world := (h.control s.world).2 } rfl hsome
      have hlegal : LegalHistory (s.ledger.apply node.taskId.pyStr δ) :=
        (legal_apply_iff hturn hexp hsome hL).mpr
          (hfits _ _ _ (.here hsome hdone hrunning hnode))
      rw [driveLoop_turn hsome hdone hrunning hnode]
      rcases r with e | u
      · rw [Call.bind_error hexec]
        exact hlegal
      · rw [Call.bind_ok hexec]
        exact ih _ _ (hturn.noExpiry hexp)
          (fun node' completed' s' ht => hfits node' completed' s'
            (.later hsome hdone hrunning hnode hexec ht)) hlegal

end Loop

/-! ### Histories -/

/-- Every turn of a resume fits. -/
def ResumeFits {W : Type} (h : Host W) (cfg : RunConfig) (manifest : Manifest) (s : Session W) :
    Prop :=
  ∀ order, topoOrder manifest.taskGraph = .ok order →
    ∀ (node : TaskNode) (completed : List String) (s' : Session W),
      TakesUp h cfg manifest.taskGraph order (completedIds s.ledger)
        { s with ledger := s.ledger.setRunState .running } node completed s' →
      TurnFits node completed s'.ledger

/-- The ledgers reached by a `run`, then `resume`s and `resolve_blocker`s whose turns and overrides
all fit. -/
inductive Lawful : Ledger → Prop
  | run {W : Type} {h : Host W} {cfg : RunConfig} {manifest : Manifest} {w w' : W}
      {res : RunResult} {fx : List Effect} :
      run h cfg manifest w = (.ok res, w', fx) → Lawful res.ledger
  | resume {W : Type} {h : Host W} {cfg : RunConfig} {manifest : Manifest} {s : Session W} :
      Lawful s.ledger → ResumeFits h cfg manifest s →
      Lawful (resume h cfg manifest s).2.ledger
  | resolve {L L' : Ledger} {blockerId decision atTime : String} {actor : Actor} :
      Lawful L → (decision = "override" → OverrideFits L blockerId) →
      resolveBlocker L blockerId decision actor atTime = .ok L' → Lawful L'

lemma Lawful.reached {L : Ledger} (hL : Lawful L) :
    Reached (fun _ => True) (fun _ _ => True) L := by
  induction hL with
  | run hrun => exact .run trivial hrun
  | resume _ _ ih => exact .resume trivial ih
  | resolve _ _ hres ih => exact .resolve ih (fun _ => trivial) hres

/-- The tasks a new ledger knows are fresh. -/
lemma startLedger_known {m : Manifest} {L : Ledger} (hstart : startLedger m = .ok L) {t : String}
    (hknown : (L.task? t).isSome) : Fresh L t := by
  have hnew := startLedger_new hstart
  obtain ⟨e, he⟩ := Option.isSome_iff_exists.mp hknown
  have hpending := (startLedger_entries hstart).1 e (List.mem_of_find?_eq_some he)
  refine ⟨?_, ?_, ?_⟩
  · rw [Ledger.status?, he, Option.map_some, hpending]
  · rw [alreadyCommitted, hnew.journal]
    rfl
  · rw [hnew.leases]
    exact fun _ hl => absurd hl List.not_mem_nil

/-- The history of a new ledger is empty, and its tasks are pending. -/
lemma startLedger_legal {m : Manifest} {L : Ledger} (hstart : startLedger m = .ok L) :
    LegalHistory L := by
  intro t st hst
  have hknown : (L.task? t).isSome := by
    rw [Ledger.status?] at hst
    obtain ⟨e, he, -⟩ := Option.map_eq_some_iff.mp hst
    rw [he]
    rfl
  have hpending := (startLedger_known hstart hknown).pending
  rw [hst] at hpending
  rw [Ledger.historyOf, (startLedger_new hstart).history, Option.some.inj hpending]
  rfl

/-- A run leaves a legal history: it takes up every task at most once, and pending. -/
lemma legal_run {W : Type} {h : Host W} {cfg : RunConfig} {m : Manifest} {w w' : W}
    {res : RunResult} {fx : List Effect} (hrun : run h cfg m w = (.ok res, w', fx)) :
    LegalHistory res.ledger := by
  obtain ⟨L, state, hstart, hdrive⟩ := run_spec h cfg hrun
  generalize res.ledger = L₁ at hdrive
  cases hdrive with
  | ended horder hloop =>
      have hnone : L.agentLeases = [] := (startLedger_new hstart).leases
      have hexp : NoExpiry L := fun l hl => absurd (hnone ▸ hl) List.not_mem_nil
      exact hloop.legal hexp ((topoOrder_perm horder).nodup_iff.mpr (nodup_nodeIds _))
        (fun t _ hknown => startLedger_known hstart hknown) (startLedger_legal hstart)

/-- A resume whose turns fit leaves a legal history. -/
lemma legal_resume {W : Type} {h : Host W} {cfg : RunConfig} {m : Manifest} {s : Session W}
    (hexp : NoExpiry s.ledger) (hfits : ResumeFits h cfg m s) (hL : LegalHistory s.ledger) :
    LegalHistory (resume h cfg m s).2.ledger := by
  rw [resume_snd, driveSession]
  cases horder : topoOrder m.taskGraph with
  | error e => exact hL
  | ok order =>
      have hend := driveLoop_legal order (completedIds s.ledger)
        { s with ledger := s.ledger.setRunState .running } hexp (hfits order horder) hL
      dsimp only
      rcases hloop : driveLoop h cfg m.taskGraph order (completedIds s.ledger)
        { s with ledger := s.ledger.setRunState .running } with ⟨e | state, s'⟩
      · rwa [hloop] at hend
      · rw [hloop] at hend
        exact hend

/-- **The history is a legal path** in every ledger reached by steps that fit, and every change of
status has its entry and its event. -/
theorem history_legal {L : Ledger} (hL : Lawful L) : LegalHistory L ∧ StatusLogged L := by
  refine ⟨?_, hL.reached.invariant statusLogged_history⟩
  induction hL with
  | run hrun => exact legal_run hrun
  | resume hL hfits ih => exact legal_resume (hL.reached.invariant noExpiry_history) hfits ih
  | @resolve L L' blockerId decision atTime actor hL hover hres ih =>
      obtain ⟨resolution, subject, ⟨rfl, -⟩ | ⟨hd, b, hb, rfl⟩⟩ := resolveBlocker_cases hres
      · exact ih
      · exact (legal_override_iff ih hb).mpr (hover hd)

end Runtime

section Example

attribute [local instance] cpython

/-- A run that is paused before `T2`, and the resume that completes it. -/
theorem history_legal_resumed :
    ∃ L, LegalHistory (resume (steadyHost []) scriptConfig
        (scriptManifest [("T1", []), ("T2", ["T1"])]) ⟨L, .fresh [], []⟩).2.ledger
      ∧ (resume (steadyHost []) scriptConfig (scriptManifest [("T1", []), ("T2", ["T1"])])
        ⟨L, .fresh [], []⟩).2.ledger.Done "T2" := by
  obtain ⟨L, hL, hview⟩ : ∃ L, playRun (fun _ _ => true)
      (scriptManifest [("T1", []), ("T2", ["T1"])]) [] [.running, .paused] [] = some L
      ∧ decide (L.Done "T1" ∧ L.status? "T2" = some .pending ∧ L.LeaseFree "T2"
        ∧ (driveSession (steadyHost []) scriptConfig (scriptManifest [("T1", []), ("T2", ["T1"])])
          (completedIds L) ⟨L.setRunState .running, .fresh [], []⟩).2.ledger.Done "T2") = true := by
    refine (Option.any_eq_true _ _).mp ?_
    decide +kernel
  obtain ⟨hdone, hpending, hfree, hafter⟩ := of_decide_eq_true hview
  obtain ⟨res, w', fx, hrun, hmoves⟩ := playRun_run (scriptManifest_roots _) hL
  obtain rfl : res.ledger = L := Option.some.inj hmoves
  have horder : topoOrder (scriptManifest [("T1", []), ("T2", ["T1"])]).taskGraph
      = .ok ["T1", "T2"] := by decide +kernel
  have hnode : lastNode (scriptManifest [("T1", []), ("T2", ["T1"])]).taskGraph "T2"
      = some (scriptNode ("T2", ["T1"])) := by decide +kernel
  have hfits : ResumeFits (steadyHost []) scriptConfig
      (scriptManifest [("T1", []), ("T2", ["T1"])]) ⟨res.ledger, .fresh [], []⟩ := by
    intro order horder' node completed s htakes
    rw [horder] at horder'
    cases horder'
    cases htakes with
    | here _ hn _ _ => exact absurd hdone hn
    | later _ hn _ _ _ _ => exact absurd hdone hn
    | skip _ htakes =>
        cases htakes with
        | here _ _ _ h2 =>
            rw [hnode] at h2
            cases h2
            exact ⟨fun _ => hpending, fun _ => hpending, fun _ _ hn => absurd hfree hn⟩
        | skip _ htakes => cases htakes
        | later _ _ _ _ _ htakes => cases htakes
  refine ⟨res.ledger, (history_legal (.resume (.run hrun) hfits)).1, ?_⟩
  rw [resume_snd]
  exact hafter

/-- **Histories that are no path**: an override of the blocker of a failed task leaves it pending
without an entry, and a resume that starts a failed task again writes that it was pending. -/
theorem history_not_legal :
    (∃ L, Reached (fun _ => True) (fun _ _ => True) L ∧ L.status? "T1" = some .pending
      ∧ (L.historyOf "T1").map (·.toStatus) = [.inProgress, .blocked] ∧ ¬ LegalHistory L)
    ∧ ∃ L, Reached (fun _ => True) (fun _ _ => False) L ∧ L.status? "T1" = some .completed
      ∧ (L.historyOf "T1").map (fun x => (x.fromStatus, x.toStatus))
        = [(.pending, .inProgress), (.inProgress, .blocked), (.pending, .inProgress),
          (.inProgress, .completed)] ∧ ¬ LegalHistory L := by
  constructor
  · obtain ⟨L, hL, hview⟩ : ∃ L, playRun (fun _ _ => true) (scriptManifest [("T1", [])])
        [("T1", .always mockFailure)] [] [.decide "B1" "override"] = some L
        ∧ decide (L.status? "T1" = some .pending
          ∧ (L.historyOf "T1").map (·.toStatus) = [.inProgress, .blocked]
          ∧ ¬ Walk HistoryEntry.fromStatus HistoryEntry.toStatus .pending (L.historyOf "T1")
            .pending) = true := by
      refine (Option.any_eq_true _ _).mp ?_
      decide +kernel
    obtain ⟨hst, hto, hwalk⟩ := of_decide_eq_true hview
    have hreached : Reached (fun _ => True) (fun _ _ => true = true) L :=
      playRun_reached trivial (scriptManifest_roots _) hL
    exact ⟨L, hreached.mono (fun _ _ => trivial) fun _ _ _ => trivial, hst, hto,
      fun hlegal => hwalk (hlegal "T1" _ hst)⟩
  · obtain ⟨L, hL, hview⟩ : ∃ L, playRun (fun _ _ => false) (scriptManifest [("T1", [])])
        [("T1", .always mockFailure)] [] [.resume [] []] = some L
        ∧ decide (L.status? "T1" = some .completed
          ∧ (L.historyOf "T1").map (fun x => (x.fromStatus, x.toStatus))
            = [(.pending, .inProgress), (.inProgress, .blocked), (.pending, .inProgress),
              (.inProgress, .completed)]
          ∧ ¬ Walk HistoryEntry.fromStatus HistoryEntry.toStatus .pending (L.historyOf "T1")
            .completed) = true := by
      refine (Option.any_eq_true _ _).mp ?_
      decide +kernel
    obtain ⟨hst, hfrom, hwalk⟩ := of_decide_eq_true hview
    have hreached : Reached (fun _ => True) (fun _ _ => false = true) L :=
      playRun_reached trivial (scriptManifest_roots _) hL
    exact ⟨L, hreached.mono (fun _ _ => trivial) fun _ _ h => absurd h (by simp), hst, hfrom,
      fun hlegal => hwalk (hlegal "T1" _ hst)⟩

end Example

end IplanRunner
