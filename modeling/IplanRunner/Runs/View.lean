import IplanRunner.Runs.Fixpoint

/-!
What a ledger shows when ids, times and hashes are blanked out, and the run loop seen through it.

* `RunView`, `Ledger.view`: statuses, blockers, evidence and log of a ledger.
* `specTurn`, `specRun`: the loop as a function of the results of the executor, with blank ids and
  times.
* `LoopRun.follows`: on fresh tasks the loop shows what `specRun` shows, wherever it ends.
-/

namespace IplanRunner

open Foundation

/-! ### Views -/

/-- A ledger without ids, times and hashes. -/
structure RunView where
  statuses : List (Val × TaskStatus)
  blockers : List Blocker
  evidence : List Dict
  events : List EventBody
  sequences : List Val
  deriving DecidableEq

/-- A blocker without its id. -/
def Blocker.blank (b : Blocker) : Blocker := { b with blockerId := "" }

/-- Evidence without its id. -/
def blankEvidence (d : Dict) : Dict := d.erase "evidence_id"

/-- An event without its time. -/
def EventBody.blank (e : EventBody) : EventBody := { e with atTime := .none }

/-- What a ledger shows without ids, times and hashes. -/
def Ledger.view (L : Ledger) : RunView where
  statuses := L.taskLedger.map fun e => (e.taskId, e.status)
  blockers := L.blockers.map Blocker.blank
  evidence := L.executionEvidence.map blankEvidence
  events := L.bodies.map EventBody.blank
  sequences := L.executionLog.map (·.sequence)

/-- Whether a task is completed can be seen. -/
lemma Ledger.status?_view (L : Ledger) (taskId : String) :
    L.status? taskId = (L.view.statuses.find? fun p => p.1 == .str taskId).map Prod.snd := by
  rw [Ledger.status?, Ledger.task?, Ledger.view, List.find?_map, Option.map_map]
  rfl

lemma Ledger.done_of_view {L S : Ledger} (h : L.view = S.view) (taskId : String) :
    L.Done taskId ↔ S.Done taskId := by
  rw [Ledger.done_iff, Ledger.done_iff, L.status?_view, S.status?_view, h]

/-- Recorded evidence differs in its id only. -/
lemma blankEvidence_entry (i j taskId : String) (evidence : Dict) :
    blankEvidence (evidenceEntry i taskId evidence)
      = blankEvidence (evidenceEntry j taskId evidence) := by
  have hbase : ∀ i : String, Dict.erase [("evidence_id", .str i), ("task_id", .str taskId)]
      "evidence_id" = [("task_id", .str taskId)] := by
    intro i
    simp [Dict.erase]
  rw [blankEvidence, blankEvidence, evidenceEntry, evidenceEntry, Dict.erase_update,
    Dict.erase_update, hbase, hbase]

section Runtime

variable [PyRuntime]

/-! ### Deltas -/

/-- Two deltas show the same. -/
structure Delta.Like (δ δ' : Delta) : Prop where
  status : ∃ st, ∀ e, (δ.entry e).status = st ∧ (δ'.entry e).status = st
  named : ∀ e, (δ.entry e).taskId = e.taskId ∧ (δ'.entry e).taskId = e.taskId
  blockers : δ.blockers.map Blocker.blank = δ'.blockers.map Blocker.blank
  evidence : δ.evidence.map blankEvidence = δ'.evidence.map blankEvidence
  events : δ.events.map EventBody.blank = δ'.events.map EventBody.blank

lemma foldl_appendEvent_sequence (events : List EventBody) (log : List Event) :
    (events.foldl appendEvent log).map (·.sequence)
      = log.map (·.sequence)
        ++ (List.range' (log.length + 1) events.length).map fun n : ℕ => Val.int n := by
  induction events generalizing log with
  | nil => simp
  | cons e rest ih =>
      rw [List.foldl_cons, ih, length_appendEvent, List.length_cons, List.range'_succ]
      simp [appendEvent]

/-- Deltas that show the same keep views equal. -/
lemma view_apply {L S : Ledger} {δ δ' : Delta} (h : L.view = S.view) (hlike : δ.Like δ')
    (taskId : String) : (L.apply taskId δ).view = (S.apply taskId δ').view := by
  obtain ⟨st, hst⟩ := hlike.status
  have hstatus : ∀ (M : Ledger) (f : TaskEntry → TaskEntry),
      (∀ e, (f e).taskId = e.taskId ∧ (f e).status = st) →
      (updateFirst (·.named taskId) f M.taskLedger).map (fun e => (e.taskId, e.status))
        = updateFirst (fun p => p.1 == .str taskId) (fun p => (p.1, st)) M.view.statuses := by
    intro M f hf
    have hstep : ∀ e : TaskEntry, ((f e).taskId, (f e).status) = (e.taskId, st) := fun e => by
      rw [(hf e).1, (hf e).2]
    have hnamed : ∀ e : TaskEntry, ((e.taskId, e.status).1 == .str taskId) = e.named taskId :=
      fun _ => rfl
    exact map_updateFirst_comm (q := fun p : Val × TaskStatus => p.1 == .str taskId)
      (k := fun p : Val × TaskStatus => (p.1, st)) hnamed hstep M.taskLedger
  have hlen : L.executionLog.length = S.executionLog.length := by
    have h1 := congrArg (fun v => v.sequences.length) h
    simpa [Ledger.view] using h1
  have hevents : δ.events.length = δ'.events.length := by
    have h1 := congrArg List.length hlike.events
    simpa using h1
  obtain ⟨h1, h2, h3, h4, h5⟩ : L.view.statuses = S.view.statuses
      ∧ L.view.blockers = S.view.blockers ∧ L.view.evidence = S.view.evidence
      ∧ L.view.events = S.view.events ∧ L.view.sequences = S.view.sequences := by
    rw [h]
    exact ⟨rfl, rfl, rfl, rfl, rfl⟩
  rw [Ledger.view, Ledger.view]
  congr 1
  · rw [Ledger.apply_taskLedger, Ledger.apply_taskLedger,
      hstatus L δ.entry fun e => ⟨(hlike.named e).1, (hst e).1⟩,
      hstatus S δ'.entry fun e => ⟨(hlike.named e).2, (hst e).2⟩, h1]
  · rw [Ledger.apply_blockers, Ledger.apply_blockers, List.map_append, List.map_append,
      hlike.blockers]
    exact congrArg (· ++ _) h2
  · rw [Ledger.apply_executionEvidence, Ledger.apply_executionEvidence, List.map_append,
      List.map_append, hlike.evidence]
    exact congrArg (· ++ _) h3
  · rw [bodies_apply, bodies_apply, List.map_append, List.map_append, hlike.events]
    exact congrArg (· ++ _) h4
  · rw [Ledger.apply_executionLog, Ledger.apply_executionLog, foldl_appendEvent_sequence,
      foldl_appendEvent_sequence, hlen, hevents]
    exact congrArg (· ++ _) h5

/-! ### The loop without ids and times -/

/-- The final result of the executor depends only on the task. -/
def ResultByTask {W : Type} (h : Host W) (cfg : RunConfig) (scope : Dict)
    (f : TaskNode → ExecutorResult) : Prop :=
  ∀ node result, Final h cfg node scope result → result = f node

lemma ResultByTask.outcome {W : Type} {h : Host W} {cfg : RunConfig} {scope : Dict}
    {f : TaskNode → ExecutorResult} (hf : ResultByTask h cfg scope f) :
    OutcomeByTask h cfg scope (fun node => (f node).outcome = .success) := by
  intro node result hfinal
  rw [hf node result hfinal]

/-- What the host answers while a task is begun, left blank. -/
def blankBegun : Begun := ⟨"", "", "", ""⟩

/-- What a turn of a fresh task does, with blank ids and times: `f` gives the results of the
executor. -/
def specDelta (f : TaskNode → ExecutorResult) (scope : Dict) (node : TaskNode) (taskId : String)
    (S : Ledger) : Delta :=
  if ∀ d ∈ node.dependsOn, S.Done d.pyStr then
    if (f node).outcome = .success then
      successDelta scope taskId blankBegun 0 ((f node).touchedPaths.map fun p => (p, ""))
        ((f node).evidence.map fun e => ("", e)) "" ""
    else failureDelta scope taskId blankBegun 0 (f node) "" "" "" ""
  else blockDelta scope taskId "dependency not satisfied" "" "" .pending

/-- A turn of the loop without ids and times. -/
def specTurn (f : TaskNode → ExecutorResult) (graph : List TaskNode) (S : Ledger)
    (taskId : String) : Ledger :=
  match lastNode graph taskId with
  | some node => S.apply taskId (specDelta f S.isolationScope node taskId S)
  | none => S

/-- The loop without ids and times. -/
def specRun (f : TaskNode → ExecutorResult) (graph : List TaskNode) (order : List String)
    (S : Ledger) : Ledger :=
  order.foldl (specTurn f graph) S

omit [PyRuntime] in
lemma editEvents_blank (scope : Dict) (taskId : String) (edits : List (String × String)) :
    (editEvents scope taskId edits).map EventBody.blank
      = (edits.map Prod.fst).map fun p =>
          (loopEvent scope .fileEdited taskId "" [p]).blank := by
  rw [editEvents, List.map_map, List.map_map]
  rfl

omit [PyRuntime] in
lemma compensationEvents_blank (scope : Dict) (taskId atTime : String) (paths : List String) :
    (compensationEvents scope taskId atTime paths).map EventBody.blank
      = (compensationEvents scope taskId "" paths).map EventBody.blank := by
  rw [compensationEvents, compensationEvents]
  split <;> rfl

omit [PyRuntime] in
/-- Blocking shows the same, whatever the id and the time. -/
lemma blockDelta_like (scope : Dict) (taskId reason i j at₁ at₂ : String)
    (st : TaskStatus) : (blockDelta scope taskId reason i at₁ st).Like
      (blockDelta scope taskId reason j at₂ st) :=
  ⟨⟨.blocked, fun _ => ⟨rfl, rfl⟩⟩, fun _ => ⟨rfl, rfl⟩, rfl, rfl, rfl⟩

omit [PyRuntime] in
/-- A success shows its paths and its evidence. -/
lemma successDelta_like (scope : Dict) (taskId : String) (b : Begun) (attempts : ℕ)
    {edits : List (String × String)} {ev : Option (String × Dict)} (completedAt releasedAt : String)
    {result : ExecutorResult} (hedits : edits.map Prod.fst = result.touchedPaths)
    (hev : ev.map Prod.snd = result.evidence) :
    (successDelta scope taskId b attempts edits ev completedAt releasedAt).Like
      (successDelta scope taskId blankBegun 0 (result.touchedPaths.map fun p => (p, ""))
        (result.evidence.map fun e => ("", e)) "" "") := by
  have hnamed : ∀ (i : Option String) (e : TaskEntry), (completeEntry i e).taskId = e.taskId :=
    fun i e => evidenceChange_taskId i e
  have hpaths : (result.touchedPaths.map fun p => (p, "")).map Prod.fst = result.touchedPaths := by
    rw [List.map_map]
    exact List.map_id _
  refine ⟨⟨.completed, fun _ => ⟨rfl, rfl⟩⟩, fun e => ⟨hnamed _ e, hnamed _ e⟩, rfl, ?_, ?_⟩
  · rw [← hev]
    cases ev with
    | none => rfl
    | some ev => exact congrArg (fun d => [d]) (blankEvidence_entry _ _ _ _)
  · simp only [successDelta, List.map_cons, List.map_append, editEvents_blank, hedits, hpaths]
    rfl

omit [PyRuntime] in
/-- A failure shows its reason and its paths. -/
lemma failureDelta_like (scope : Dict) (taskId : String) (b : Begun) (attempts : ℕ)
    (result : ExecutorResult) (compensatedAt blockerId blockedAt releasedAt : String) :
    (failureDelta scope taskId b attempts result compensatedAt blockerId blockedAt releasedAt).Like
      (failureDelta scope taskId blankBegun 0 result "" "" "" "") := by
  refine ⟨⟨.blocked, fun _ => ⟨rfl, rfl⟩⟩, fun _ => ⟨rfl, rfl⟩, rfl, rfl, ?_⟩
  simp only [failureDelta, List.map_cons, List.map_append,
    compensationEvents_blank scope taskId compensatedAt]
  rfl

section Turn

variable {W : Type} {h : Host W} {cfg : RunConfig} {f : TaskNode → ExecutorResult}
  {graph : List TaskNode}

/-- **A turn of a fresh task shows what the loop without ids and times shows.** -/
lemma Turn.follows {node : TaskNode} {taskId : String} {completed : List String} {L S : Ledger}
    {δ : Delta} {fx : List Effect} (hturn : Turn h cfg node taskId completed L (.ok ()) δ fx)
    (hf : ResultByTask h cfg L.isolationScope f) (hnode : lastNode graph taskId = some node)
    (hfresh : Fresh L taskId) (hex : Exact completed L) (hview : L.view = S.view)
    (hscope : L.isolationScope = S.isolationScope) :
    (L.apply taskId δ).view = (specTurn f graph S taskId).view := by
  have hmet : DepsMet node completed ↔ ∀ d ∈ node.dependsOn, S.Done d.pyStr :=
    forall₂_congr fun d _ => (hex _).trans (Ledger.done_of_view hview _)
  rw [specTurn, hnode]
  refine view_apply hview ?_ taskId
  rw [specDelta, ← hscope]
  cases hturn with
  | unmet hunmet =>
      rw [if_neg fun hc => hunmet (hmet.mpr hc)]
      exact blockDelta_like _ _ _ _ _ _ _ _
  | ran hm hrun =>
      rw [if_pos (hmet.mp hm)]
      cases hrun with
      | committed hc => exact absurd hc (by simp [hfresh.uncommitted])
      | conflict _ hl => exact absurd hl (by simp [canAcquire_of_unleased hfresh.unleased])
      | succeeded _ _ _ hfinal hout hedits hev =>
          obtain rfl := hf _ _ hfinal
          rw [if_pos hout]
          exact successDelta_like _ _ _ _ _ _ hedits hev
      | failed _ _ _ hfinal hout =>
          obtain rfl := hf _ _ hfinal
          rw [if_neg hout]
          exact failureDelta_like _ _ _ _ _ _ _ _ _

lemma specTurn_scope (S : Ledger) (taskId : String) :
    (specTurn f graph S taskId).isolationScope = S.isolationScope := by
  rw [specTurn]
  split <;> rfl

lemma specRun_scope (order : List String) (S : Ledger) :
    (specRun f graph order S).isolationScope = S.isolationScope := by
  induction order generalizing S with
  | nil => rfl
  | cons t rest ih =>
      rw [specRun, List.foldl_cons]
      exact (ih _).trans (specTurn_scope S t)

/-- **The loop shows what the loop without ids and times shows**, up to where it ends: the part of
the order it passed is completed or blocked, the rest still fresh. -/
theorem LoopRun.follows {rest completed : List String} {L L' : Ledger}
    {r : Except PyErr RunState} {fx : List Effect}
    (hrun : LoopRun h cfg graph rest completed L r L' fx) {S : Ledger} {state : RunState}
    (hr : r = .ok state) (hf : ResultByTask h cfg L.isolationScope f) (hnodup : rest.Nodup)
    (hfresh : ∀ t ∈ rest, Fresh L t) (hex : Exact completed L) (hview : L.view = S.view)
    (hscope : L.isolationScope = S.isolationScope) :
    ∃ mid post, rest = mid ++ post ∧ L'.view = (specRun f graph mid S).view
      ∧ (∀ t ∈ post, Fresh L' t) ∧ (state = .completed → post = [])
      ∧ (∀ t ∈ mid, L'.status? t = some .completed ∨ L'.status? t = some .blocked)
      ∧ L'.isolationScope = L.isolationScope
      ∧ ∀ t, t ∉ mid → L'.status? t = L.status? t := by
  induction hrun generalizing S with
  | finished => exact ⟨[], [], rfl, hview, by simp, fun _ => rfl, by simp, rfl, fun _ _ => rfl⟩
  | unknown _ => cases hr
  | @skip taskId _ _ L _ _ _ hdone _ _ =>
      have hp := (hfresh taskId (by simp)).pending
      rw [(L.done_iff taskId).mp hdone] at hp
      cases hp
  | @paused taskId rest _ L _ _ _ =>
      cases hr
      exact ⟨[], taskId :: rest, rfl, hview, hfresh, by simp, by simp, rfl, fun _ _ => rfl⟩
  | @aborted taskId rest _ L _ _ _ =>
      cases hr
      exact ⟨[], taskId :: rest, rfl, hview, hfresh, by simp, by simp, rfl, fun _ _ => rfl⟩
  | noNode _ _ _ => cases hr
  | raised _ _ _ _ => cases hr
  | @turned taskId rest completed L L' node δ r fx gx hsome hdone hnode hturn _ ih =>
      obtain ⟨hnot, hnodup'⟩ := List.nodup_cons.mp hnodup
      have hstep := hturn.follows hf hnode (hfresh taskId (by simp)) hex hview hscope
      obtain ⟨mid, post, rfl, hv, hpost, hend, hmid, hsc, hsame⟩ := ih hr hf hnodup'
        (fun t ht => hturn.fresh_of_ne (fun hcon => hnot (hcon ▸ ht))
          (hfresh t (List.mem_cons_of_mem _ ht)))
        (hturn.exact hex hdone) hstep (by rw [specTurn_scope, ← hscope]; rfl)
      refine ⟨taskId :: mid, post, rfl, hv, hpost, hend, fun t ht => ?_, hsc, fun t ht => ?_⟩
      · rcases List.mem_cons.mp ht with rfl | ht
        · rw [hsame t fun hcon => hnot (List.mem_append_left _ hcon)]
          obtain ⟨hyes, hno, -⟩ := hturn.of_fresh (hfresh t (by simp)) hf.outcome
          by_cases hc : DepsMet node completed ∧ (f node).outcome = .success
          · exact Or.inl (hyes hc)
          · exact Or.inr (hno hc)
        · exact hmid t ht
      · rw [List.mem_cons, not_or] at ht
        rw [hsame t ht.2, hturn.status?_apply, if_neg ht.1]

end Turn

end Runtime

end IplanRunner
