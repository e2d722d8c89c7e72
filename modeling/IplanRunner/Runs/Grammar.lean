import IplanRunner.Foundation.Along
import IplanRunner.Runs.Fixpoint

/-!
The run model's grammar (`RUN_MODEL.md`), and a run that returns as a word of it.

* `TaskBlock`: what the loop leaves of one task: blocked without execution, a success or a failure.
  `events`, `history`, `txns`, `evidence` and `blockers` are the entries of each; there is none for
  a lease conflict.
* `BlockFits`: which block a task may leave after the blocks before it.
* `Writes`: the sections of a ledger grow by the entries of a list of blocks.
* `run_follows_grammar`: every run that returns writes the blocks of a part of the order.
-/

namespace IplanRunner

open Foundation

/-- What the loop leaves of one task. -/
inductive TaskBlock where
  | unmet (blockedAt : String)
  | succeeded (startedAt : String) (edits : List (String × String))
      (evidence : Option (String × Dict)) (completedAt : String)
  | failed (startedAt : String) (paths : List String) (compensatedAt blockedAt reason : String)

namespace TaskBlock

/-- Whether the task has been started. -/
def started : TaskBlock → Bool
  | .unmet _ => false
  | .succeeded _ _ _ _ => true
  | .failed _ _ _ _ _ => true

/-- Whether the task is completed. -/
def completes : TaskBlock → Bool
  | .unmet _ => false
  | .succeeded _ _ _ _ => true
  | .failed _ _ _ _ _ => false

/-- The events of a task. -/
def events (scope : Dict) (taskId : String) : TaskBlock → List EventBody
  | .unmet blockedAt => [loopEvent scope .taskBlocked taskId blockedAt []]
  | .succeeded startedAt edits _ completedAt =>
      loopEvent scope .taskStarted taskId startedAt []
        :: edits.map (fun e => loopEvent scope .fileEdited taskId e.2 [e.1])
        ++ [loopEvent scope .taskCompleted taskId completedAt []]
  | .failed startedAt paths compensatedAt blockedAt _ =>
      loopEvent scope .taskStarted taskId startedAt []
        :: (if paths = [] then [] else [loopEvent scope .compensation taskId compensatedAt paths])
        ++ [loopEvent scope .taskBlocked taskId blockedAt []]

/-- The transitions of a task, each at the time of its event. -/
def history (taskId : String) : TaskBlock → List HistoryEntry
  | .unmet blockedAt => [⟨blockedAt, taskId, .pending, .blocked⟩]
  | .succeeded startedAt _ _ completedAt =>
      [⟨startedAt, taskId, .pending, .inProgress⟩, ⟨completedAt, taskId, .inProgress, .completed⟩]
  | .failed startedAt _ _ blockedAt _ =>
      [⟨startedAt, taskId, .pending, .inProgress⟩, ⟨blockedAt, taskId, .inProgress, .blocked⟩]

/-- The transaction of a started task, by its key and its status. -/
def txns (taskId : String) : TaskBlock → List (String × String × TxnStatus)
  | .unmet _ => []
  | .succeeded _ _ _ _ => [(taskId, executeKey taskId, .committed)]
  | .failed _ paths _ _ _ =>
      [(taskId, executeKey taskId, if paths = [] then .pending else .compensated)]

/-- The evidence of a success. -/
def evidence (taskId : String) : TaskBlock → List Dict
  | .unmet _ => []
  | .succeeded _ _ evidence _ => evidenceEntries taskId evidence
  | .failed _ _ _ _ _ => []

/-- What becomes of the entry of a task. -/
def entry : TaskBlock → TaskEntry → TaskEntry
  | .unmet _ => blockEntry "dependency not satisfied"
  | .succeeded _ _ evidence _ => completeEntry (evidence.map Prod.fst)
  | .failed _ _ _ _ reason => blockEntry reason

/-- The blocker of a task that is not completed, by its reason. -/
def blockers (taskId : String) : TaskBlock → List (String × String)
  | .unmet _ => [(taskId, "dependency not satisfied")]
  | .succeeded _ _ _ _ => []
  | .failed _ _ _ _ reason => [(taskId, reason)]

end TaskBlock

/-- The tasks that were started. -/
def startedIds (blocks : List (String × TaskBlock)) : List String :=
  (blocks.filter (·.2.started)).map Prod.fst

/-- The tasks that were completed. -/
def succeededIds (blocks : List (String × TaskBlock)) : List String :=
  (blocks.filter (·.2.completes)).map Prod.fst

lemma startedIds_append (xs ys : List (String × TaskBlock)) :
    startedIds (xs ++ ys) = startedIds xs ++ startedIds ys := by
  simp [startedIds]

lemma mem_succeededIds_append (before : List (String × TaskBlock)) (taskId : String)
    (block : TaskBlock) (t : String) : t ∈ succeededIds (before ++ [(taskId, block)])
      ↔ t ∈ succeededIds before ∨ t = taskId ∧ block.completes = true := by
  rw [succeededIds, List.filter_append, List.map_append, List.mem_append, ← succeededIds]
  cases hb : block.completes <;> simp [hb]

/-! ### Writing blocks -/

/-- A ledger has grown by the entries of a list of blocks. -/
structure Writes (scope : Dict) (L L' : Ledger) (blocks : List (String × TaskBlock)) : Prop where
  control : L'.control = L.control
  isolation : L'.isolationScope = L.isolationScope
  vcs : L'.vcs = L.vcs
  tasks : L'.taskLedger
    = blocks.foldl (fun es b => updateFirst (·.named b.1) b.2.entry es) L.taskLedger
  evidence : L'.executionEvidence
    = L.executionEvidence ++ blocks.flatMap fun b => b.2.evidence b.1
  log : L'.bodies = L.bodies ++ blocks.flatMap fun b => b.2.events scope b.1
  history : L'.executionHistory
    = L.executionHistory ++ blocks.flatMap fun b => b.2.history b.1
  leases : L'.agentLeases.map (·.taskId) = L.agentLeases.map (·.taskId) ++ startedIds blocks
  journal : L'.sagaJournal.map (fun t => (t.taskId, t.idempotencyKey, t.status))
    = L.sagaJournal.map (fun t => (t.taskId, t.idempotencyKey, t.status))
      ++ blocks.flatMap fun b => b.2.txns b.1
  blockers : L'.blockers.map (fun b => (b.taskId, b.description))
    = L.blockers.map (fun b => (b.taskId, b.description))
      ++ blocks.flatMap fun b => b.2.blockers b.1

lemma Writes.nil (scope : Dict) (L : Ledger) : Writes scope L L [] := by
  constructor <;> simp [startedIds]

lemma Writes.append {scope : Dict} {L M N : Ledger} {xs ys : List (String × TaskBlock)}
    (h : Writes scope L M xs) (h' : Writes scope M N ys) : Writes scope L N (xs ++ ys) := by
  constructor
  · rw [h'.control, h.control]
  · rw [h'.isolation, h.isolation]
  · rw [h'.vcs, h.vcs]
  · rw [h'.tasks, h.tasks, List.foldl_append]
  · rw [h'.evidence, h.evidence, List.flatMap_append, List.append_assoc]
  · rw [h'.log, h.log, List.flatMap_append, List.append_assoc]
  · rw [h'.history, h.history, List.flatMap_append, List.append_assoc]
  · rw [h'.leases, h.leases, startedIds_append, List.append_assoc]
  · rw [h'.journal, h.journal, List.flatMap_append, List.append_assoc]
  · rw [h'.blockers, h.blockers, List.flatMap_append, List.append_assoc]

section Runtime

variable [PyRuntime] {W : Type} (h : Host W) (cfg : RunConfig) (graph : List TaskNode)
  (scope : Dict)

/-- Which block a task may leave after the blocks before it: it is blocked without execution exactly
when a dependency has not completed, and otherwise the executor's final result decides. -/
inductive BlockFits (before : List (String × TaskBlock)) : String × TaskBlock → Prop
  | unmet {taskId blockedAt : String} {node : TaskNode} : lastNode graph taskId = some node →
      ¬ DepsMet node (succeededIds before) → BlockFits before (taskId, .unmet blockedAt)
  | succeeded {taskId startedAt completedAt : String} {edits : List (String × String)}
      {evidence : Option (String × Dict)} {node : TaskNode} {result : ExecutorResult} :
      lastNode graph taskId = some node → DepsMet node (succeededIds before) →
      Final h cfg node scope result → result.outcome = .success →
      edits.map Prod.fst = result.touchedPaths → evidence.map Prod.snd = result.evidence →
      BlockFits before (taskId, .succeeded startedAt edits evidence completedAt)
  | failed {taskId startedAt compensatedAt blockedAt : String} {node : TaskNode}
      {result : ExecutorResult} : lastNode graph taskId = some node →
      DepsMet node (succeededIds before) → Final h cfg node scope result →
      result.outcome ≠ .success →
      BlockFits before (taskId,
        .failed startedAt result.touchedPaths compensatedAt blockedAt (failureReason result))

variable {h cfg graph}

/-- **A turn of a fresh task writes a block that fits.** -/
lemma Turn.block {node : TaskNode} {taskId : String} {completed : List String} {L : Ledger}
    {δ : Delta} {fx : List Effect} {before : List (String × TaskBlock)}
    (hturn : Turn h cfg node taskId completed L (.ok ()) δ fx) (hfresh : Fresh L taskId)
    (hnode : lastNode graph taskId = some node)
    (hbefore : ∀ t, t ∈ completed ↔ t ∈ succeededIds before) :
    ∃ block, BlockFits h cfg graph L.isolationScope before (taskId, block)
      ∧ Writes L.isolationScope L (L.apply taskId δ) [(taskId, block)]
      ∧ ((L.apply taskId δ).Done taskId ↔ block.completes = true) := by
  have hmet : DepsMet node completed ↔ DepsMet node (succeededIds before) :=
    forall₂_congr fun d _ => hbefore _
  obtain ⟨e, he, -⟩ := Option.map_eq_some_iff.mp hfresh.pending
  have hstatus : (L.apply taskId δ).Done taskId ↔ (δ.entry e).status = .completed := by
    rw [Ledger.done_iff, hturn.status?_apply, if_pos rfl, he, Option.map_some, Option.some_inj]
  cases hturn with
  | @unmet blockerId atTime hunmet =>
      refine ⟨.unmet atTime, .unmet hnode fun hc => hunmet (hmet.mpr hc), ?_, ?_⟩
      · constructor <;> simp [blockDelta, TaskBlock.events, TaskBlock.history, TaskBlock.txns,
          TaskBlock.blockers, TaskBlock.evidence, TaskBlock.entry, startedIds, TaskBlock.started]
      · rw [hstatus]
        simp [blockDelta, blockEntry, TaskBlock.completes]
  | ran hm hrun =>
      cases hrun with
      | committed hc => exact absurd hc (by simp [hfresh.uncommitted])
      | conflict _ hl => exact absurd hl (by simp [canAcquire_of_unleased hfresh.unleased])
      | @succeeded b attempts result edits ev completedAt releasedAt _ _ _ _ hfinal hout hedits
        hev =>
          refine ⟨.succeeded b.startedAt edits ev completedAt,
            .succeeded hnode (hmet.mp hm) hfinal hout hedits hev, ?_, ?_⟩
          · constructor <;> simp [successDelta, TaskBlock.events, TaskBlock.history,
              TaskBlock.txns, TaskBlock.blockers, TaskBlock.evidence, TaskBlock.entry, startedIds,
              TaskBlock.started, editEvents, Begun.lease, Begun.txn]
          · rw [hstatus]
            simp [successDelta, completeEntry, TaskBlock.completes]
      | @failed b attempts result compensatedAt blockerId blockedAt releasedAt _ _ _ _ hfinal
        hout =>
          refine ⟨.failed b.startedAt result.touchedPaths compensatedAt blockedAt
            (failureReason result), .failed hnode (hmet.mp hm) hfinal hout, ?_, ?_⟩
          · have htxn : (compensateTxn result.touchedPaths
                (b.txn taskId .pending (some attempts))).status
                  = if result.touchedPaths = [] then .pending else .compensated := by
              rw [compensateTxn]
              split <;> rfl
            have hkey : ∀ (paths : List String) (t : Txn), (compensateTxn paths t).taskId = t.taskId
                ∧ (compensateTxn paths t).idempotencyKey = t.idempotencyKey := by
              intro paths t
              rw [compensateTxn]
              split <;> exact ⟨rfl, rfl⟩
            constructor <;> simp [failureDelta, TaskBlock.events, TaskBlock.history,
              TaskBlock.txns, TaskBlock.blockers, TaskBlock.evidence, TaskBlock.entry, startedIds,
              TaskBlock.started, compensationEvents, Begun.lease, htxn, hkey]
            simp [Begun.txn]
          · rw [hstatus]
            simp [failureDelta, blockEntry, TaskBlock.completes]

/-- **The loop writes the blocks of a part of the order**, the whole of it when it ends. -/
theorem LoopRun.blocks {rest completed : List String} {L L' : Ledger} {r : Except PyErr RunState}
    {fx : List Effect} (hrun : LoopRun h cfg graph rest completed L r L' fx) {state : RunState}
    {before : List (String × TaskBlock)} (hr : r = .ok state) (hnodup : rest.Nodup)
    (hfresh : ∀ t ∈ rest, Fresh L t) (hbefore : ∀ t, t ∈ completed ↔ t ∈ succeededIds before) :
    ∃ blocks, blocks.map Prod.fst <+: rest
      ∧ (state = .completed ↔ blocks.map Prod.fst = rest)
      ∧ Along (BlockFits h cfg graph L.isolationScope) before blocks
      ∧ Writes L.isolationScope L L' blocks := by
  induction hrun generalizing before with
  | finished =>
      cases hr
      exact ⟨[], List.nil_prefix, by simp, trivial, Writes.nil _ _⟩
  | unknown _ => cases hr
  | @skip taskId _ _ L _ _ _ hdone _ _ =>
      have hp := (hfresh taskId (by simp)).pending
      rw [(L.done_iff taskId).mp hdone] at hp
      cases hp
  | paused _ _ _ =>
      cases hr
      exact ⟨[], List.nil_prefix, by simp, trivial, Writes.nil _ _⟩
  | aborted _ _ _ =>
      cases hr
      exact ⟨[], List.nil_prefix, by simp, trivial, Writes.nil _ _⟩
  | noNode _ _ _ => cases hr
  | raised _ _ _ _ => cases hr
  | @turned taskId rest completed L L' node δ r fx gx _ _ hnode hturn _ ih =>
      obtain ⟨hnot, hnodup'⟩ := List.nodup_cons.mp hnodup
      obtain ⟨block, hfits, hwrites, hdone⟩ :=
        hturn.block (hfresh taskId (by simp)) hnode hbefore
      have hbefore' : ∀ t, t ∈ addDone (L.apply taskId δ) taskId completed
          ↔ t ∈ succeededIds (before ++ [(taskId, block)]) := by
        intro t
        rw [mem_succeededIds_append, ← hbefore, ← hdone, addDone]
        split <;> simp_all [or_comm]
      obtain ⟨blocks, hpre, hend, halong, hmore⟩ := ih hr hnodup'
        (fun t ht => hturn.fresh_of_ne (fun hcon => hnot (hcon ▸ ht))
          (hfresh t (List.mem_cons_of_mem _ ht))) hbefore'
      refine ⟨(taskId, block) :: blocks, ?_, ?_, ⟨hfits, halong⟩, hwrites.append hmore⟩
      · exact List.cons_prefix_cons.mpr ⟨rfl, hpre⟩
      · rw [hend, List.map_cons, List.cons_inj_right]

/-- When control always lets it run, the loop only ends at the end of the order. -/
lemma LoopRun.completed_of_running {rest completed : List String} {L L' : Ledger}
    {r : Except PyErr RunState} {fx : List Effect}
    (hrun : LoopRun h cfg graph rest completed L r L' fx) (hrunning : AlwaysRunning h)
    {state : RunState} (hr : r = .ok state) : state = .completed := by
  have hstopped : ∀ {answer : ControlAnswer}, Answers h answer → answer = .running := by
    rintro _ ⟨w, rfl⟩
    exact hrunning w
  induction hrun with
  | finished => cases hr; rfl
  | unknown _ => cases hr
  | skip _ _ ih => exact ih hr
  | paused _ _ ha => exact absurd (hstopped ha) (by simp)
  | aborted _ _ ha => exact absurd (hstopped ha) (by simp)
  | noNode _ _ _ => cases hr
  | raised _ _ _ _ => cases hr
  | turned _ _ _ _ _ ih => exact ih hr

/-- What a run that returned has written: the blocks of a part of the order, before it
reconciled. -/
structure RunWrites (h : Host W) (cfg : RunConfig) (m : Manifest) (final : Ledger)
    (order : List String) (blocks : List (String × TaskBlock)) (L L' : Ledger) (state : RunState)
    (fx : List Effect) : Prop where
  ordered : topoOrder m.taskGraph = .ok order
  part : blocks.map Prod.fst <+: order
  start : startLedger m = .ok L
  loop : LoopRun h cfg m.taskGraph order [] L (.ok state) L' fx
  ended : state = .completed ↔ blocks.map Prod.fst = order
  fits : Along (BlockFits h cfg m.taskGraph m.isolationScope) [] blocks
  wrote : Writes m.isolationScope L L' blocks
  settled : final = reconcile (L'.setRunState state)

/-- A loop over a new ledger that came to an end has written blocks. -/
lemma LoopRun.writes {m : Manifest} {L L' : Ledger} {order : List String} {state : RunState}
    {fx : List Effect} (hids : StringIds m.taskGraph) (hstart : startLedger m = .ok L)
    (horder : topoOrder m.taskGraph = .ok order)
    (hloop : LoopRun h cfg m.taskGraph order [] L (.ok state) L' fx) :
    ∃ blocks, RunWrites h cfg m (reconcile (L'.setRunState state)) order blocks L L' state fx := by
  have hperm := topoOrder_perm horder
  obtain ⟨blocks, hpre, hend, halong, hwrites⟩ := hloop.blocks rfl
    (hperm.nodup_iff.mpr (nodup_nodeIds _))
    (fun t ht => startLedger_fresh hids hstart (hperm.mem_iff.mp ht))
    (show ∀ t, t ∈ [] ↔ t ∈ succeededIds [] by simp [succeededIds])
  rw [(startLedger_new hstart).scope] at halong hwrites
  exact ⟨blocks, horder, hpre, hstart, hloop, hend, halong, hwrites, rfl⟩

lemma run_blocks {m : Manifest} {w w' : W} {res : RunResult} {fx : List Effect}
    (hids : StringIds m.taskGraph) (hrun : run h cfg m w = (.ok res, w', fx)) :
    ∃ order blocks L L' state, RunWrites h cfg m res.ledger order blocks L L' state fx := by
  obtain ⟨L, state, hstart, hdrive⟩ := run_spec h cfg hrun
  generalize res.ledger = L₁ at hdrive
  cases hdrive with
  | @ended order _ L' _ horder hloop =>
      obtain ⟨blocks, hwrites⟩ := hloop.writes hids hstart horder
      exact ⟨order, blocks, L, L', state, hwrites⟩

section RunWrites

variable {m : Manifest} {final : Ledger} {order : List String}
  {blocks : List (String × TaskBlock)} {L L' : Ledger} {state : RunState} {fx : List Effect}

lemma RunWrites.bodies (hw : RunWrites h cfg m final order blocks L L' state fx) :
    final.bodies = blocks.flatMap fun b => b.2.events m.isolationScope b.1 := by
  have h1 := hw.wrote.log
  rw [Ledger.bodies, Ledger.bodies, (startLedger_new hw.start).log, List.map_nil,
    List.nil_append] at h1
  rw [hw.settled]
  exact h1

lemma RunWrites.evidence (hw : RunWrites h cfg m final order blocks L L' state fx) :
    final.executionEvidence = blocks.flatMap fun b => b.2.evidence b.1 := by
  have h1 := hw.wrote.evidence
  rw [(startLedger_new hw.start).evidence, List.nil_append] at h1
  rw [hw.settled]
  exact h1

lemma RunWrites.blockers (hw : RunWrites h cfg m final order blocks L L' state fx) :
    final.blockers.map (fun b => (b.taskId, b.description))
      = blocks.flatMap fun b => b.2.blockers b.1 := by
  have h1 := hw.wrote.blockers
  rw [(startLedger_new hw.start).blockers, List.map_nil, List.nil_append] at h1
  rw [hw.settled]
  exact h1

end RunWrites

/-- **A run follows the grammar of the run model.**  When it returns, the log is the concatenation
of the blocks of a part of the order, all of it when control never stopped the loop, each fitting
what came before it; there is one lease and one transaction for each started task, one blocker for
each task that is not completed, and the history holds the transitions of the blocks. -/
theorem run_follows_grammar {m : Manifest} {w w' : W} {res : RunResult} {fx : List Effect}
    (hids : StringIds m.taskGraph) (hrun : run h cfg m w = (.ok res, w', fx)) :
    ∃ order blocks, topoOrder m.taskGraph = .ok order ∧ blocks.map Prod.fst <+: order
      ∧ (AlwaysRunning h → blocks.map Prod.fst = order)
      ∧ (res.ledger.control.runState = .completed ↔ blocks.map Prod.fst = order)
      ∧ Along (BlockFits h cfg m.taskGraph m.isolationScope) [] blocks
      ∧ res.ledger.bodies = blocks.flatMap (fun b => b.2.events m.isolationScope b.1)
      ∧ res.ledger.executionHistory = blocks.flatMap (fun b => b.2.history b.1)
      ∧ res.ledger.agentLeases.map (·.taskId) = startedIds blocks
      ∧ res.ledger.sagaJournal.map (fun t => (t.taskId, t.idempotencyKey, t.status))
        = blocks.flatMap (fun b => b.2.txns b.1)
      ∧ res.ledger.blockers.map (fun b => (b.taskId, b.description))
        = blocks.flatMap (fun b => b.2.blockers b.1) := by
  obtain ⟨order, blocks, L, L', state, hw⟩ := run_blocks hids hrun
  have hnew := startLedger_new hw.start
  have hstate : res.ledger.control.runState = state := by
    rw [hw.settled]
    exact reconcile_runState _
  refine ⟨order, blocks, hw.ordered, hw.part, fun hrunning => hw.ended.mp ?_, ?_, hw.fits,
    hw.bodies, ?_, ?_, ?_, hw.blockers⟩
  · exact hw.loop.completed_of_running hrunning rfl
  · rw [hstate, hw.ended]
  · have h1 := hw.wrote.history
    rw [hnew.history] at h1
    rw [hw.settled]
    exact h1
  · have h1 := hw.wrote.leases
    rw [hnew.leases] at h1
    rw [hw.settled]
    exact h1
  · have h1 := hw.wrote.journal
    rw [hnew.journal] at h1
    rw [hw.settled]
    exact h1

end Runtime

section Example

attribute [local instance] cpython

/-- Of three tasks the second fails and the third waits for it. -/
theorem run_follows_grammar_of_three :
    ∃ (res : RunResult) (w : MockWorld) (fx : List Effect) (order : List String)
      (blocks : List (String × TaskBlock)),
      run (steadyHost [("T2", mockFailure)]) scriptConfig
          (scriptManifest [("T1", []), ("T2", ["T1"]), ("T3", ["T2"])]) (.fresh [])
            = (.ok res, w, fx)
      ∧ topoOrder (scriptManifest [("T1", []), ("T2", ["T1"]), ("T3", ["T2"])]).taskGraph
        = .ok order
      ∧ blocks.map Prod.fst = order
      ∧ res.ledger.bodies = blocks.flatMap (fun b => b.2.events
        (scriptManifest [("T1", []), ("T2", ["T1"]), ("T3", ["T2"])]).isolationScope b.1)
      ∧ res.ledger.executionHistory = blocks.flatMap (fun b => b.2.history b.1) := by
  have hends : runEnds (steadyHost [("T2", mockFailure)]) scriptConfig
      (scriptManifest [("T1", []), ("T2", ["T1"]), ("T3", ["T2"])]) (.fresh []) = true := by
    decide +kernel
  obtain ⟨res, w, fx, hrun⟩ := run_of_runEnds (scriptManifest_roots _) hends
  obtain ⟨order, blocks, horder, -, hall, -, -, hlog, hhistory, -⟩ :=
    run_follows_grammar (scriptManifest_stringIds _) hrun
  exact ⟨res, w, fx, order, blocks, hrun, horder, hall (steadyHost_running _), hlog, hhistory⟩

end Example

end IplanRunner
