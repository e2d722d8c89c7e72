import IplanRunner.Runs.Ended
import IplanRunner.Runs.View

/-!
Runs that are paused and resumed, against the run that is not.

* `PausedRun`: a run and its resumes, each but the last paused, with the ledgers at the pauses.
* `Resumable`: what every such ledger satisfies: the tasks that will complete are completed or
  fresh.
* `blockedEvents`: the `task_blocked` events of a task; a run logs one for a task that does not
  complete, and every resume one more.
* `pauses_transparent_iff`: the pauses show nothing exactly when no task was blocked at any of them.
-/

namespace IplanRunner

open Foundation

/-- The `task_blocked` events of a task. -/
def blockedEvents (taskId : String) (events : List EventBody) : ℕ :=
  events.countP fun e => e.kind == .taskBlocked && e.subjectId == .str taskId

lemma blockedEvents_append (taskId : String) (events new : List EventBody) :
    blockedEvents taskId (events ++ new) = blockedEvents taskId events + blockedEvents taskId new :=
  List.countP_append

/-- They show when times are blanked out. -/
lemma blockedEvents_blank (taskId : String) (events : List EventBody) :
    blockedEvents taskId (events.map EventBody.blank) = blockedEvents taskId events := by
  rw [blockedEvents, List.countP_map]
  rfl

section Runtime

variable [PyRuntime]

/-! ### What a turn logs -/

section Turn

variable {W : Type} {h : Host W} {cfg : RunConfig} {node : TaskNode} {taskId : String}
  {completed : List String} {L : Ledger} {r : Except PyErr Unit} {δ : Delta} {fx : List Effect}

/-- A turn logs nothing about other tasks. -/
lemma Turn.blockedEvents_of_ne (hturn : Turn h cfg node taskId completed L r δ fx) {t : String}
    (ht : t ≠ taskId) : blockedEvents t δ.events = 0 := by
  rw [blockedEvents, List.countP_eq_zero]
  intro e he hcon
  rw [hturn.subject h cfg e he, Bool.and_eq_true, beq_iff_eq, beq_iff_eq] at hcon
  exact ht (Val.str.inj hcon.2).symm

/-- A turn logs at most one `task_blocked` event, and one when it blocks its task. -/
lemma Turn.blockedEvents_self (hturn : Turn h cfg node taskId completed L r δ fx) :
    blockedEvents taskId δ.events ≤ 1
      ∧ ((∀ e, (δ.entry e).status = .blocked) → blockedEvents taskId δ.events = 1) := by
  have hblock : ∀ scope atTime, blockedEvents taskId
      [loopEvent scope .taskBlocked taskId atTime []] = 1 := by
    intro scope atTime
    simp [blockedEvents, loopEvent]
  have hstart : ∀ scope atTime, blockedEvents taskId
      [loopEvent scope .taskStarted taskId atTime []] = 0 := by
    intro scope atTime
    simp [blockedEvents, loopEvent]
  cases hturn with
  | unmet _ => exact ⟨(hblock _ _).le, fun _ => hblock _ _⟩
  | ran _ hrun =>
      cases hrun with
      | committed _ =>
          refine ⟨Nat.zero_le _, fun hst => ?_⟩
          exact absurd (hst ⟨.none, .none, .pending, [], ⟨.none, .none⟩, none, none⟩) (by simp)
      | conflict _ _ => exact ⟨(hblock _ _).le, fun _ => hblock _ _⟩
      | crashed _ _ _ _ =>
          refine ⟨(hstart _ _).le.trans (Nat.zero_le _), fun hst => ?_⟩
          exact absurd (hst ⟨.none, .none, .pending, [], ⟨.none, .none⟩, none, none⟩)
            (by simp [crashDelta])
      | @succeeded b attempts result edits ev completedAt releasedAt _ _ _ _ _ _ _ _ =>
          have hedits : blockedEvents taskId (editEvents L.isolationScope taskId edits) = 0 := by
            rw [blockedEvents, List.countP_eq_zero]
            intro e he
            obtain ⟨x, -, rfl⟩ := List.mem_map.mp he
            simp [loopEvent]
          have hnone : blockedEvents taskId
            (successDelta L.isolationScope taskId b attempts edits ev
              completedAt releasedAt).events = 0 := by
            have hlast : blockedEvents taskId
                [loopEvent L.isolationScope .taskCompleted taskId completedAt []] = 0 := by
              simp [blockedEvents, loopEvent]
            calc blockedEvents taskId (successDelta L.isolationScope taskId b attempts edits ev
                  completedAt releasedAt).events
                = blockedEvents taskId
                  ([loopEvent L.isolationScope .taskStarted taskId b.startedAt []]
                    ++ editEvents L.isolationScope taskId edits
                    ++ [loopEvent L.isolationScope .taskCompleted taskId completedAt []]) := rfl
              _ = 0 := by
                rw [blockedEvents_append, blockedEvents_append, hstart, hedits, hlast]
          refine ⟨hnone.le.trans (Nat.zero_le _), fun hst => ?_⟩
          exact absurd (hst ⟨.none, .none, .pending, [], ⟨.none, .none⟩, none, none⟩)
            (by simp [successDelta, completeEntry])
      | @failed b attempts result compensatedAt blockerId blockedAt releasedAt _ _ _ _ _ _ =>
          have hcomp : blockedEvents taskId
            (compensationEvents L.isolationScope taskId compensatedAt
              result.touchedPaths) = 0 := by
            rw [compensationEvents]
            split <;> simp [blockedEvents, loopEvent]
          have hone : blockedEvents taskId (failureDelta L.isolationScope taskId b attempts result
              compensatedAt blockerId blockedAt releasedAt).events = 1 := by
            calc blockedEvents taskId (failureDelta L.isolationScope taskId b attempts result
                  compensatedAt blockerId blockedAt releasedAt).events
                = blockedEvents taskId
                  ([loopEvent L.isolationScope .taskStarted taskId b.startedAt []]
                    ++ compensationEvents L.isolationScope taskId compensatedAt result.touchedPaths
                    ++ [loopEvent L.isolationScope .taskBlocked taskId blockedAt []]) := rfl
              _ = 1 := by
                rw [blockedEvents_append, blockedEvents_append, hstart, hcomp, hblock]
          exact ⟨hone.le, fun _ => hone⟩

/-- A turn that completes its task found its dependencies met and its executor successful. -/
lemma Turn.done_ok {ok : TaskNode → Prop} (hturn : Turn h cfg node taskId completed L r δ fx)
    (hok : OutcomeByTask h cfg L.isolationScope ok) (hdone : ¬ L.Done taskId)
    (hafter : (L.apply taskId δ).Done taskId) : DepsMet node completed ∧ ok node := by
  rw [Ledger.done_iff, hturn.status?_apply, if_pos rfl] at hafter
  obtain ⟨e, he, hst⟩ := Option.map_eq_some_iff.mp hafter
  cases hturn with
  | unmet _ => simp [blockDelta, blockEntry] at hst
  | ran hmet hrun =>
      cases hrun with
      | committed _ => exact absurd ⟨e, he, hst⟩ hdone
      | conflict _ _ => simp [blockDelta, blockEntry] at hst
      | crashed _ _ _ _ => simp [crashDelta] at hst
      | succeeded _ _ _ hfinal hout _ _ => exact ⟨hmet, (hok _ _ hfinal).mp hout⟩
      | failed _ _ _ _ _ => simp [failureDelta, blockEntry] at hst

end Turn

/-- Every blocked task has been logged as blocked. -/
def BlockedLogged (L : Ledger) : Prop :=
  ∀ t, L.status? t = some .blocked → 1 ≤ blockedEvents t L.bodies

lemma blockedLogged_history :
    HistoryInvariant (fun _ => True) (fun _ _ => True) (fun L => NoExpiry L ∧ BlockedLogged L) where
  start := by
    intro m L hm hstart
    have hexp : HistoryInvariant (fun _ => True) (fun _ _ => True) NoExpiry := noExpiry_history
    refine ⟨hexp.start hm hstart, fun t ht => ?_⟩
    obtain ⟨e, he, hst⟩ := Option.map_eq_some_iff.mp ht
    rw [(startLedger_entries hstart).1 e (List.mem_of_find?_eq_some he)] at hst
    exact absurd hst (by simp)
  turn := by
    intro W h cfg m node taskId completed L r δ fx _ _ _ _ _ hturn hL
    refine ⟨hturn.noExpiry hL.1, fun t ht => ?_⟩
    rw [bodies_apply, blockedEvents_append]
    rw [hturn.status?_apply] at ht
    split at ht
    · rename_i hid
      subst hid
      obtain ⟨e, he, hst⟩ := Option.map_eq_some_iff.mp ht
      cases hturn.ended hL.1 with
      | stayed _ _ _ hδ =>
          subst hδ
          have hold := hL.2 t (by rw [Ledger.status?, he, Option.map_some, ← hst]; rfl)
          omega
      | blocked _ _ hs _ _ =>
          have hone := hturn.blockedEvents_self.2 hs
          omega
      | crashed _ _ hs _ =>
          rw [hs] at hst
          exact absurd hst (by simp)
      | completed _ _ _ _ hs _ _ =>
          rw [hs] at hst
          exact absurd hst (by simp)
    · have hold := hL.2 t ht
      omega
  state := fun _ hL => hL
  reconcile := fun hL => hL
  override := by
    intro L blockerId b _ _ hL
    refine ⟨hL.1, fun t ht => hL.2 t ?_⟩
    rw [Ledger.status?_override] at ht
    obtain ⟨st, hst, hif⟩ := Option.map_eq_some_iff.mp ht
    split at hif
    · exact absurd hif (by simp)
    · rw [hst, hif]
  record := by
    intro L resolution subject hL
    refine ⟨hL.1, fun t ht => ?_⟩
    have hold := hL.2 t ht
    rw [bodies_recordResolution, blockedEvents_append]
    omega

/-! ### What a resume finds -/

/-- What a run and its resumes leave for the next one: the tasks that will complete are completed or
fresh. -/
structure Resumable (graph : List TaskNode) (ok : TaskNode → Prop) (scope : Dict) (L : Ledger) :
    Prop where
  noExpiry : NoExpiry L
  scope : L.isolationScope = scope
  known : ∀ t, (L.task? t).isSome ↔ t ∈ nodeIds graph
  sound : ∀ t, L.Done t → Completes graph ok t
  committed : ∀ t, L.Committed t → L.Done t
  ready : ∀ t, Completes graph ok t → L.Done t ∨ Fresh L t

lemma Resumable.setRunState {graph : List TaskNode} {ok : TaskNode → Prop} {scope : Dict}
    {L : Ledger} (hL : Resumable graph ok scope L) (state : RunState) :
    Resumable graph ok scope (L.setRunState state) :=
  ⟨hL.noExpiry, hL.scope, hL.known, hL.sound, hL.committed,
    fun t hc => (hL.ready t hc).imp id fun hf => ⟨hf.pending, hf.uncommitted, hf.unleased⟩⟩

lemma Resumable.settle {graph : List TaskNode} {ok : TaskNode → Prop} {scope : Dict}
    {L : Ledger} (hL : Resumable graph ok scope L) (state : RunState) :
    Resumable graph ok scope (reconcile (L.setRunState state)) :=
  ⟨hL.noExpiry, hL.scope, hL.known, hL.sound, hL.committed,
    fun t hc => (hL.ready t hc).imp id fun hf => hf.settle state⟩

/-- A blocked task does not complete. -/
lemma Resumable.not_completes {graph : List TaskNode} {ok : TaskNode → Prop} {scope : Dict}
    {L : Ledger} (hL : Resumable graph ok scope L) {t : String}
    (ht : L.status? t = some .blocked) : ¬ Completes graph ok t := by
  intro hc
  rcases hL.ready t hc with hd | hf
  · rw [Ledger.done_iff, ht] at hd
    exact absurd hd (by simp)
  · have hp := hf.pending
    rw [ht] at hp
    exact absurd hp (by simp)

/-- A new ledger can be run. -/
lemma startLedger_resumable {m : Manifest} {L : Ledger} (hids : StringIds m.taskGraph)
    (hstart : startLedger m = .ok L) (ok : TaskNode → Prop) :
    Resumable m.taskGraph ok m.isolationScope L := by
  obtain ⟨hj, -, hl, -, -, hscope, -⟩ := startLedger_empty hstart
  have hnone : ∀ t, ¬ L.Done t := fun t hd => by simpa using (exact_start hstart t).mpr hd
  refine ⟨by simp [NoExpiry, hl], hscope, fun t => ⟨fun hsome => ?_, fun ht => ?_⟩,
    fun t hd => absurd hd (hnone t), fun t hc => ?_,
    fun t hc => Or.inr (startLedger_fresh hids hstart hc.grounded.holds)⟩
  · by_contra hn
    have hunknown := startLedger_unknown hstart hn
    rw [Ledger.status?, Option.map_eq_none_iff] at hunknown
    rw [hunknown] at hsome
    exact absurd hsome (by simp)
  · obtain ⟨e, he, -⟩ := Option.map_eq_some_iff.mp (startLedger_fresh hids hstart ht).pending
    rw [he]
    rfl
  · exact absurd hc (by simp [Ledger.Committed, alreadyCommitted, hj])

section Loop

variable {W : Type} {h : Host W} {cfg : RunConfig} {graph : List TaskNode} {ok : TaskNode → Prop}
  {scope : Dict}

/-- A turn that returns leaves the ledger resumable, and its task completed if it completes. -/
lemma Resumable.turn {pre completed : List String} {taskId : String} {L : Ledger} {node : TaskNode}
    {δ : Delta} {fx : List Effect} (hL : Resumable graph ok scope L)
    (hok : OutcomeByTask h cfg scope ok) (hex : Exact completed L) (hdone : ¬ L.Done taskId)
    (hnode : lastNode graph taskId = some node)
    (hbefore : Grounded graph taskId → ∀ d ∈ nodeDeps graph taskId, d ∈ pre)
    (hpre : ∀ t ∈ pre, Completes graph ok t → L.Done t)
    (hturn : Turn h cfg node taskId completed L (.ok ()) δ fx) :
    Resumable graph ok scope (L.apply taskId δ)
      ∧ (Completes graph ok taskId → (L.apply taskId δ).Done taskId) := by
  have hok' : OutcomeByTask h cfg L.isolationScope ok := hL.scope.symm ▸ hok
  have hmem : taskId ∈ nodeIds graph := by
    rw [← lastNode_isSome, hnode]
    rfl
  have hself : Completes graph ok taskId → (L.apply taskId δ).Done taskId := by
    intro hc
    have hfresh := (hL.ready taskId hc).resolve_left hdone
    obtain ⟨node', hnode', hnok⟩ := hc.holds
    obtain rfl := Option.some.inj (hnode.symm.trans hnode')
    have hmet : DepsMet node completed := by
      rw [depsMet_iff hnode]
      exact fun d hd => (hex d).mpr (hpre d (hbefore hc.grounded d hd) (hc.of_dep hd))
    exact (Ledger.done_iff _ _).mpr ((hturn.of_fresh hfresh hok').1 ⟨hmet, hnok⟩)
  refine ⟨⟨hturn.noExpiry hL.noExpiry, hL.scope, fun t => ?_, fun t hd => ?_, fun t hc => ?_,
    fun t hc => ?_⟩, hself⟩
  · rw [← hL.known t]
    by_cases ht : t = taskId
    · subst ht
      rw [L.task?_apply_self t δ hturn.entry_taskId, Option.isSome_map]
    · rw [L.task?_apply_of_ne δ hturn.entry_taskId ht]
  · by_cases ht : t = taskId
    · subst ht
      obtain ⟨hmet, hnok⟩ := hturn.done_ok hok' hdone hd
      refine .intro ⟨node, hnode, hnok⟩ fun d hd => hL.sound d ((hex d).mp ?_)
      exact (depsMet_iff hnode completed).mp hmet d hd
    · exact hL.sound t ((hturn.done_of_ne ht).mp hd)
  · by_cases ht : t = taskId
    · subst ht
      exact (hturn.commits_self hL.noExpiry ((hL.known t).mpr hmem)
        (fun hold => hdone (hL.committed t hold)) hc).2
    · refine (hturn.done_of_ne ht).mpr (hL.committed t ?_)
      rcases (hturn.committed_apply t).mp hc with hold | ⟨hcon, -⟩
      · exact hold
      · exact absurd hcon ht
  · by_cases ht : t = taskId
    · subst ht
      exact Or.inl (hself hc)
    · rcases hL.ready t hc with hd | hf
      · exact Or.inl ((hturn.done_of_ne ht).mpr hd)
      · exact Or.inr (hturn.fresh_of_ne ht hf)

/-- **A loop that returns leaves the ledger resumable.**  It logs at most one `task_blocked` event
for a task, and one for each task of its order that does not complete when it comes to its end. -/
lemma LoopRun.resumable {order : List String} (hstr : StringDeps graph)
    (horder : topoOrder graph = .ok order) (hok : OutcomeByTask h cfg scope ok)
    {rest completed : List String} {L L' : Ledger} {r : Except PyErr RunState} {fx : List Effect}
    (hrun : LoopRun h cfg graph rest completed L r L' fx) {pre : List String} {state : RunState}
    (hr : r = .ok state) (hsplit : order = pre ++ rest) (hL : Resumable graph ok scope L)
    (hex : Exact completed L) (hpre : ∀ t ∈ pre, Completes graph ok t → L.Done t) :
    Resumable graph ok scope L' ∧ ∀ t,
      blockedEvents t L.bodies ≤ blockedEvents t L'.bodies
      ∧ blockedEvents t L'.bodies ≤ blockedEvents t L.bodies + (if t ∈ rest then 1 else 0)
      ∧ (state = .completed → t ∈ rest → ¬ Completes graph ok t →
        blockedEvents t L.bodies + 1 ≤ blockedEvents t L'.bodies) := by
  have hnodup : order.Nodup := (topoOrder_perm horder).nodup_iff.mpr (nodup_nodeIds graph)
  induction hrun generalizing pre with
  | finished => exact ⟨hL, fun t => ⟨le_rfl, by simp, by simp⟩⟩
  | unknown _ => cases hr
  | @skip taskId rest completed L _ _ _ hdone _ ih =>
      have hex' : Exact (taskId :: completed) L := by
        intro t
        rw [List.mem_cons, hex t]
        exact ⟨fun h => h.elim (fun h => h ▸ hdone) id, Or.inr⟩
      obtain ⟨hL', hcount⟩ := @ih (pre ++ [taskId]) hr (by rw [hsplit]; simp) hL hex'
        fun t ht hc => by
          rcases List.mem_append.mp ht with h1 | h1
          · exact hpre t h1 hc
          · exact List.mem_singleton.mp h1 ▸ hdone
      refine ⟨hL', fun t => ?_⟩
      obtain ⟨h1, h2, h3⟩ := hcount t
      refine ⟨h1, h2.trans ?_, fun hst ht hc => ?_⟩
      · by_cases ht : t ∈ rest <;> simp [ht]
      · rcases List.mem_cons.mp ht with rfl | ht
        · exact absurd (hL.sound t hdone) hc
        · exact h3 hst ht hc
  | paused _ _ _ =>
      cases hr
      exact ⟨hL, fun t => ⟨le_rfl, Nat.le_add_right _ _, by simp⟩⟩
  | aborted _ _ _ =>
      cases hr
      exact ⟨hL, fun t => ⟨le_rfl, Nat.le_add_right _ _, by simp⟩⟩
  | noNode _ _ _ => cases hr
  | raised _ _ _ _ => cases hr
  | @turned taskId rest completed L L' node δ r fx gx hsome hdone hnode hturn _ ih =>
      obtain ⟨hL₁, hself⟩ := hL.turn hok hex hdone hnode
        (topoOrder_deps_before hstr horder hsplit) hpre hturn
      obtain ⟨hL', hcount⟩ := @ih (pre ++ [taskId]) hr (by rw [hsplit]; simp) hL₁
        (hturn.exact hex hdone) fun t ht hc => by
          by_cases hid : t = taskId
          · exact hid ▸ hself (hid ▸ hc)
          · exact (hturn.done_of_ne hid).mpr (hpre t (by simpa [hid] using ht) hc)
      have hrest : taskId ∉ rest := by
        rw [hsplit] at hnodup
        exact (List.nodup_cons.mp (List.nodup_append.mp hnodup).2.1).1
      refine ⟨hL', fun t => ?_⟩
      obtain ⟨h1, h2, h3⟩ := hcount t
      rw [bodies_apply, blockedEvents_append] at h1 h2 h3
      by_cases ht : t = taskId
      · subst ht
        have hone := hturn.blockedEvents_self.1
        rw [if_neg hrest] at h2
        rw [if_pos (List.mem_cons_self ..)]
        refine ⟨by omega, by omega, fun _ _ hc => ?_⟩
        cases hturn.ended hL.noExpiry with
        | stayed _ hcom _ _ => exact absurd (hL.committed t hcom) hdone
        | blocked _ _ hs _ _ =>
            have hlogged := hturn.blockedEvents_self.2 hs
            omega
        | crashed _ hcon _ _ => cases hcon
        | completed _ _ _ _ hs _ _ =>
            have hd := (Ledger.done_iff _ _).mpr (hturn.status?_self hsome hs)
            exact absurd (hL₁.sound t hd) hc
      · have hzero := hturn.blockedEvents_of_ne ht
        have hiff : t ∈ taskId :: rest ↔ t ∈ rest := by simp [ht]
        simp only [hiff]
        refine ⟨by omega, by omega, fun hst hmem hc => ?_⟩
        have := h3 hst hmem hc
        omega

end Loop

/-! ### Runs with pauses -/

/-- A run and its resumes, all with executors whose results on a task are `f`: the ledgers at the
pauses, and the ledger the last of them left. -/
inductive PausedRun (m : Manifest) (f : TaskNode → ExecutorResult) : List Ledger → Ledger → Prop
  | start {W : Type} {h : Host W} {cfg : RunConfig} {w w' : W} {res : RunResult}
      {fx : List Effect} : ResultByTask h cfg m.isolationScope f →
      run h cfg m w = (.ok res, w', fx) → PausedRun m f [] res.ledger
  | again {pauses : List Ledger} {L : Ledger} {W : Type} {h : Host W} {cfg : RunConfig} {w : W}
      {res : RunResult} {s : Session W} : PausedRun m f pauses L →
      L.control.runState = .paused → ResultByTask h cfg m.isolationScope f →
      resume h cfg m ⟨L, w, []⟩ = (.ok res, s) → PausedRun m f (pauses ++ [L]) res.ledger

section Sessions

variable {W : Type} {h : Host W} {cfg : RunConfig} {m : Manifest}

/-- The loop of a run that returned. -/
lemma run_loop {w w' : W} {res : RunResult} {fx : List Effect}
    (hrun : run h cfg m w = (.ok res, w', fx)) :
    ∃ (L : Ledger) (order : List String) (state : RunState) (L' : Ledger),
      startLedger m = .ok L ∧ topoOrder m.taskGraph = .ok order
      ∧ LoopRun h cfg m.taskGraph order [] L (.ok state) L' fx
      ∧ res.ledger = reconcile (L'.setRunState state) := by
  obtain ⟨L, state, hstart, hdrive⟩ := run_spec h cfg hrun
  generalize hend : res.ledger = L₁ at hdrive
  cases hdrive with
  | ended horder hloop => exact ⟨L, _, state, _, hstart, horder, hloop, rfl⟩

/-- The loop of a resume that returned. -/
lemma resume_loopRun {L : Ledger} {w : W} {res : RunResult} {s : Session W}
    (hrun : resume h cfg m ⟨L, w, []⟩ = (.ok res, s)) :
    ∃ (order : List String) (state : RunState) (L' : Ledger) (fx : List Effect),
      topoOrder m.taskGraph = .ok order
      ∧ LoopRun h cfg m.taskGraph order (completedIds L) (L.setRunState .running) (.ok state) L' fx
      ∧ res.ledger = reconcile (L'.setRunState state) := by
  obtain ⟨r, state, L', fx, w', hdrive, hexec, hres⟩ := resume_spec h cfg m ⟨L, w, []⟩
  rw [hexec] at hrun
  obtain ⟨rfl, -⟩ := Prod.mk.inj hrun
  obtain ⟨hledger, hsome⟩ := hres res rfl
  obtain ⟨st, rfl⟩ := Option.isSome_iff_exists.mp hsome
  cases hdrive with
  | ended horder hloop => exact ⟨_, st, _, fx, horder, hloop, hledger⟩

end Sessions

/-- Runs with pauses are histories. -/
lemma PausedRun.reached {m : Manifest} {f : TaskNode → ExecutorResult} {pauses : List Ledger}
    {L : Ledger} (hchain : PausedRun m f pauses L) : Reached (· = m) (fun _ _ => True) L := by
  induction hchain with
  | start _ hrun => exact .run rfl hrun
  | @again pauses L W h cfg w res s _ _ _ hrun ih =>
      have hstep : Reached (· = m) (fun _ _ => True) (resume h cfg m ⟨L, w, []⟩).2.ledger :=
        .resume rfl ih
      obtain ⟨r, state, L', fx, w', hdrive, hexec, hres⟩ := resume_spec h cfg m ⟨L, w, []⟩
      rw [hexec] at hrun hstep
      obtain ⟨rfl, -⟩ := Prod.mk.inj hrun
      rw [(hres res rfl).1]
      exact hstep

/-- The completed ids a resume starts from are exact. -/
lemma PausedRun.exact {m : Manifest} {f : TaskNode → ExecutorResult} {pauses : List Ledger}
    {L : Ledger} (hchain : PausedRun m f pauses L) : Exact (completedIds L) L := by
  have hfirst : HistoryInvariant (· = m) (fun _ _ => True) (fun L => FirstsOnly L.taskLedger) :=
    firstsOnly_history
  exact (hchain.reached.invariant hfirst).mem_completedIds

/-- **A resume takes a blocked task up again.**  Every ledger of a run with pauses is resumable; a
task that was blocked at a pause does not complete, and has been logged as blocked twice when the
run comes to its end. -/
lemma PausedRun.resumable {m : Manifest} {f : TaskNode → ExecutorResult} {pauses : List Ledger}
    {L : Ledger} (hids : StringIds m.taskGraph) (hchain : PausedRun m f pauses L) :
    Resumable m.taskGraph (fun node => (f node).outcome = .success) m.isolationScope L
      ∧ ∀ t, (∃ p ∈ pauses, p.status? t = some .blocked) →
        ¬ Completes m.taskGraph (fun node => (f node).outcome = .success) t
        ∧ t ∈ nodeIds m.taskGraph ∧ 1 ≤ blockedEvents t L.bodies
        ∧ (L.control.runState = .completed → 2 ≤ blockedEvents t L.bodies) := by
  obtain ⟨hstr, -⟩ := hchain.reached.accepted.deps hids
  induction hchain with
  | start hf hrun =>
      obtain ⟨L, order, state, L', hstart, horder, hloop, hend⟩ := run_loop hrun
      obtain ⟨hL', -⟩ :=
        hloop.resumable hstr horder hf.outcome rfl (show order = [] ++ order from rfl)
        (startLedger_resumable hids hstart _) (exact_start hstart) (by simp)
      rw [hend]
      exact ⟨hL'.settle state, by simp⟩
  | @again pauses L W h cfg w res s hchain _ hf hrun ih =>
      obtain ⟨hL, hblocked⟩ := ih
      obtain ⟨order, state, L', fx, horder, hloop, hend⟩ := resume_loopRun hrun
      obtain ⟨hL', hcount⟩ := hloop.resumable hstr horder hf.outcome rfl
        (show order = [] ++ order from rfl) (hL.setRunState .running) hchain.exact (by simp)
      have hstate : (reconcile (L'.setRunState state)).control.runState = state :=
        reconcile_runState _
      rw [hend]
      refine ⟨hL'.settle state, fun t ht => ?_⟩
      have hold : ¬ Completes m.taskGraph (fun node => (f node).outcome = .success) t
          ∧ t ∈ nodeIds m.taskGraph ∧ 1 ≤ blockedEvents t L.bodies := by
        obtain ⟨p, hp, hst⟩ := ht
        rcases List.mem_append.mp hp with h1 | h1
        · obtain ⟨h2, h3, h4, -⟩ := hblocked t ⟨p, h1, hst⟩
          exact ⟨h2, h3, h4⟩
        · obtain rfl := List.mem_singleton.mp h1
          obtain ⟨e, he, -⟩ := Option.map_eq_some_iff.mp hst
          have hlog := ((hchain.reached.mono (fun _ _ => trivial) fun _ _ _ => trivial).invariant
            blockedLogged_history).2 t hst
          exact ⟨hL.not_completes hst, (hL.known t).mp (by rw [he]; rfl), hlog⟩
      obtain ⟨hnot, hmem, hone⟩ := hold
      obtain ⟨h1, -, h3⟩ := hcount t
      have hbefore : blockedEvents t (L.setRunState .running).bodies = blockedEvents t L.bodies :=
        rfl
      have hafter : blockedEvents t (reconcile (L'.setRunState state)).bodies
          = blockedEvents t L'.bodies := rfl
      refine ⟨hnot, hmem, by omega, fun hdone => ?_⟩
      rw [hstate] at hdone
      have := h3 hdone ((topoOrder_perm horder).mem_iff.mpr hmem) hnot
      omega

/-- A blocked entry at a pause is the entry of a blocked task. -/
lemma PausedRun.blocked_status {m : Manifest} {f : TaskNode → ExecutorResult}
    {pauses : List Ledger} {L : Ledger} (hchain : PausedRun m f pauses L) {p : Ledger}
    (hp : p ∈ pauses) {e : TaskEntry} (he : e ∈ p.taskLedger) (hst : e.status = .blocked) :
    ∃ t, p.status? t = some .blocked := by
  induction hchain with
  | start _ _ => simp at hp
  | again hchain _ _ _ ih =>
      rcases List.mem_append.mp hp with h1 | h1
      · exact ih h1
      · obtain rfl := List.mem_singleton.mp h1
        have hfirst : HistoryInvariant (· = m) (fun _ _ => True)
            (fun L => FirstsOnly L.taskLedger) := firstsOnly_history
        have hL := hchain.reached.invariant hfirst
        have hne : e.status ≠ .pending := by simp [hst]
        obtain ⟨t, ht⟩ := hL.named e he hne
        exact ⟨t, by rw [Ledger.status?, Ledger.task?, hL.find? he hne ht, Option.map_some, hst]⟩

/-- A run logs at most one `task_blocked` event for a task. -/
lemma run_blockedEvents_le {W : Type} {h : Host W} {cfg : RunConfig} {m : Manifest} {w w' : W}
    {res : RunResult} {fx : List Effect} {f : TaskNode → ExecutorResult}
    (hids : StringIds m.taskGraph) (hf : ResultByTask h cfg m.isolationScope f)
    (hrun : run h cfg m w = (.ok res, w', fx)) (t : String) :
    blockedEvents t res.ledger.bodies ≤ 1 := by
  obtain ⟨L, order, state, L', hstart, horder, hloop, hend⟩ := run_loop hrun
  obtain ⟨hstr, -⟩ := (startLedger_accepted hstart).deps hids
  obtain ⟨-, hcount⟩ :=
    hloop.resumable hstr horder hf.outcome rfl (show order = [] ++ order from rfl)
    (startLedger_resumable hids hstart _) (exact_start hstart) (by simp)
  obtain ⟨-, hlog, -⟩ := startLedger_empty hstart
  have hzero : blockedEvents t L.bodies = 0 := by
    rw [Ledger.bodies, hlog]
    rfl
  have hle := (hcount t).2.1
  rw [hend]
  show blockedEvents t L'.bodies ≤ 1
  split at hle <;> omega

/-- The completed beginning of an order is skipped. -/
lemma LoopRun.skip_prefix {W : Type} {h : Host W} {cfg : RunConfig} {graph : List TaskNode}
    {pre rest completed : List String} {L L' : Ledger} {r : Except PyErr RunState}
    {fx : List Effect} (hrun : LoopRun h cfg graph (pre ++ rest) completed L r L' fx)
    (hpre : ∀ t ∈ pre, L.Done t) :
      LoopRun h cfg graph rest (pre.reverse ++ completed) L r L' fx := by
  induction pre generalizing completed with
  | nil => exact hrun
  | cons t pre ih =>
      have hdone : L.Done t := hpre t (List.mem_cons_self ..)
      have hnext : LoopRun h cfg graph (pre ++ rest) (t :: completed) L r L' fx := by
        generalize horder : t :: pre ++ rest = order at hrun
        cases hrun with
        | finished => simp at horder
        | unknown hnone =>
            obtain ⟨rfl, -⟩ := List.cons.inj horder
            obtain ⟨e, he, -⟩ := hdone
            rw [hnone] at he
            exact absurd he (by simp)
        | skip _ hrun =>
            obtain ⟨rfl, rfl⟩ := List.cons.inj horder
            exact hrun
        | paused _ hn _ => exact absurd ((List.cons.inj horder).1 ▸ hdone) hn
        | aborted _ hn _ => exact absurd ((List.cons.inj horder).1 ▸ hdone) hn
        | noNode _ hn _ => exact absurd ((List.cons.inj horder).1 ▸ hdone) hn
        | raised _ hn _ _ => exact absurd ((List.cons.inj horder).1 ▸ hdone) hn
        | turned _ hn _ _ _ => exact absurd ((List.cons.inj horder).1 ▸ hdone) hn
      have hrest := ih hnext fun t ht => hpre t (List.mem_cons_of_mem _ ht)
      simpa using hrest

/-- **As long as no task is blocked at a pause, the pauses do not show**: the ledger shows what the
loop without ids and times shows on the part of the order that has been passed. -/
lemma PausedRun.follows {m : Manifest} {f : TaskNode → ExecutorResult} {pauses : List Ledger}
    {L : Ledger} (hids : StringIds m.taskGraph) (hchain : PausedRun m f pauses L)
    (hclear : ∀ p ∈ pauses, ∀ t, p.status? t ≠ some .blocked) :
    ∃ L₀ order pre post, startLedger m = .ok L₀ ∧ topoOrder m.taskGraph = .ok order
      ∧ order = pre ++ post ∧ L.view = (specRun f m.taskGraph pre L₀).view
      ∧ (∀ t ∈ post, Fresh L t) ∧ (L.control.runState = .completed → post = [])
      ∧ (∀ t ∈ pre, L.status? t = some .completed ∨ L.status? t = some .blocked)
      ∧ L.isolationScope = m.isolationScope := by
  induction hchain with
  | start hf hrun =>
      obtain ⟨L₀, order, state, L', hstart, horder, hloop, hend⟩ := run_loop hrun
      obtain ⟨-, -, -, -, -, hscope, -⟩ := startLedger_empty hstart
      have hperm := topoOrder_perm horder
      obtain ⟨mid, post, hsplit, hview, hpost, hdone, hmid, hsc, -⟩ := hloop.follows rfl
        (hscope.symm ▸ hf) (hperm.nodup_iff.mpr (nodup_nodeIds _))
        (fun t ht => startLedger_fresh hids hstart (hperm.mem_iff.mp ht)) (exact_start hstart)
        (show L₀.view = L₀.view from rfl) rfl
      refine ⟨L₀, order, mid, post, hstart, horder, hsplit, ?_, fun t ht => ?_, fun hst => ?_, ?_,
        ?_⟩
      · rw [hend]
        exact hview
      · rw [hend]
        exact (hpost t ht).settle state
      · rw [hend, reconcile_runState] at hst
        exact hdone hst
      · rw [hend]
        exact hmid
      · rw [hend]
        exact hsc.trans hscope
  | @again pauses L W h cfg w res s hchain _ hf hrun ih =>
      obtain ⟨L₀, order, pre, post, hstart, horder, hsplit, hview, hpost, -, hpre, hscope⟩ :=
        ih fun p hp => hclear p (List.mem_append_left _ hp)
      obtain ⟨order', state, L', fx, horder', hloop, hend⟩ := resume_loopRun hrun
      obtain rfl : order = order' := Except.ok.inj (horder.symm.trans horder')
      have hdone : ∀ t ∈ pre, (L.setRunState .running).Done t := by
        intro t ht
        rw [Ledger.done_iff]
        exact (hpre t ht).resolve_right (hclear L (by simp) t)
      rw [hsplit] at hloop
      have hrest := hloop.skip_prefix hdone
      have hexact : Exact (pre.reverse ++ completedIds L) (L.setRunState .running) := by
        intro t
        have hold := hchain.exact t
        rw [List.mem_append, List.mem_reverse]
        exact ⟨fun h => h.elim (hdone t) hold.mp, fun h => Or.inr (hold.mpr h)⟩
      have hspec : L.isolationScope = (specRun f m.taskGraph pre L₀).isolationScope := by
        obtain ⟨-, -, -, -, -, hscope₀, -⟩ := startLedger_empty hstart
        rw [specRun_scope, hscope, hscope₀]
      have hnodup : post.Nodup := by
        have hall : order.Nodup := (topoOrder_perm horder).nodup_iff.mpr (nodup_nodeIds _)
        rw [hsplit] at hall
        exact (List.nodup_append.mp hall).2.1
      obtain ⟨mid, post', hsplit', hview', hpost', hdone', hmid, hsc, hsame⟩ := hrest.follows rfl
        (show ResultByTask h cfg L.isolationScope f from hscope.symm ▸ hf) hnodup
        (fun t ht => ⟨(hpost t ht).pending, (hpost t ht).uncommitted, (hpost t ht).unleased⟩) hexact
        hview hspec
      refine ⟨L₀, order, pre ++ mid, post', hstart, horder, ?_, ?_, fun t ht => ?_, fun hst => ?_,
        fun t ht => ?_, ?_⟩
      · rw [hsplit, hsplit', List.append_assoc]
      · rw [hend, specRun, List.foldl_append]
        exact hview'
      · rw [hend]
        exact (hpost' t ht).settle state
      · rw [hend, reconcile_runState] at hst
        exact hdone' hst
      · rw [hend]
        by_cases hm : t ∈ mid
        · exact hmid t hm
        · have ht' := (List.mem_append.mp ht).resolve_right hm
          have hkeep : (reconcile (L'.setRunState state)).status? t = L.status? t := hsame t hm
          rw [hkeep]
          exact hpre t ht'
      · rw [hend]
        exact hsc.trans hscope

/-- **Pauses are transparent exactly when no task is blocked at any of them.**  A run with pauses
that came to its end shows the statuses, the blockers, the evidence and the log of a run without. -/
theorem pauses_transparent_iff {m : Manifest} {f : TaskNode → ExecutorResult}
    (hids : StringIds m.taskGraph) {pauses : List Ledger} {L : Ledger}
    (hchain : PausedRun m f pauses L) (hend : L.control.runState = .completed) {W : Type}
    {h : Host W} {cfg : RunConfig} {w w' : W} {res : RunResult} {fx : List Effect}
    (hf : ResultByTask h cfg m.isolationScope f) (hrun : run h cfg m w = (.ok res, w', fx))
    (hend₀ : res.ledger.control.runState = .completed) :
    L.view = res.ledger.view ↔ ∀ p ∈ pauses, ∀ e ∈ p.taskLedger, e.status ≠ .blocked := by
  have hsingle : PausedRun m f [] res.ledger := .start hf hrun
  constructor
  · intro hview p hp e he hst
    obtain ⟨t, ht⟩ := hchain.blocked_status hp he hst
    obtain ⟨-, -, -, htwice⟩ := (hchain.resumable hids).2 t ⟨p, hp, ht⟩
    have honce := run_blockedEvents_le hids hf hrun t
    have hsame : blockedEvents t L.bodies = blockedEvents t res.ledger.bodies := by
      calc blockedEvents t L.bodies
          = blockedEvents t L.view.events := (blockedEvents_blank t _).symm
        _ = blockedEvents t res.ledger.view.events := by rw [hview]
        _ = blockedEvents t res.ledger.bodies := blockedEvents_blank t _
    have hlow := htwice hend
    omega
  · intro hclear
    obtain ⟨L₀, order, pre, post, hstart, horder, hsplit, hview, -, hpost, -⟩ :=
      hchain.follows hids fun p hp t ht => by
        obtain ⟨e, he, hst⟩ := Option.map_eq_some_iff.mp ht
        exact hclear p hp e (List.mem_of_find?_eq_some he) hst
    obtain ⟨L₁, order₁, pre₁, post₁, hstart₁, horder₁, hsplit₁, hview₁, -, hpost₁, -⟩ :=
      hsingle.follows hids (by simp)
    obtain rfl : L₀ = L₁ := Except.ok.inj (hstart.symm.trans hstart₁)
    obtain rfl : order = order₁ := Except.ok.inj (horder.symm.trans horder₁)
    rw [hpost hend, List.append_nil] at hsplit
    rw [hpost₁ hend₀, List.append_nil] at hsplit₁
    rw [hview, hview₁, ← hsplit, ← hsplit₁]

end Runtime

section Example

attribute [local instance] cpython

/-- A scripted host whose executor gives every task one result, and whose control answers are given
with its world. -/
def pausingHost (outcomes : List (String × ExecutorResult)) : Host MockWorld :=
  mockHost (outcomes.map fun p => (p.1, .always p.2)) scriptNow

lemma pausingHost_result (outcomes : List (String × ExecutorResult)) (scope : Dict) :
    ResultByTask (pausingHost outcomes) scriptConfig scope
      (fun node => steadyResult outcomes node.taskId.pyStr) := fun node _ hfinal =>
  Final.of_const (h := pausingHost outcomes)
    (fun w => steadyHost_execute outcomes node scope w) hfinal

/-- A scripted run without a pause. -/
def straight (m : Manifest) (outcomes : List (String × ExecutorResult)) : Option Ledger :=
  match startLedger m with
  | .error _ => none
  | .ok L =>
      match driveSession (pausingHost outcomes) scriptConfig m [] ⟨L, .fresh [], []⟩ with
      | (some .completed, s) => some s.ledger
      | _ => none

/-- A scripted run that is paused and resumed: the ledger at the pause and the one at the end. -/
def pausedOnce (m : Manifest) (outcomes : List (String × ExecutorResult))
    (answers : List ControlAnswer) : Option (Ledger × Ledger) :=
  match startLedger m with
  | .error _ => none
  | .ok L =>
      match driveSession (pausingHost outcomes) scriptConfig m [] ⟨L, .fresh answers, []⟩ with
      | (some .paused, s) =>
          match driveSession (pausingHost outcomes) scriptConfig m (completedIds s.ledger)
              ⟨s.ledger.setRunState .running, .fresh [], []⟩ with
          | (some .completed, s') => some (s.ledger, s'.ledger)
          | _ => none
      | _ => none

lemma straight_run {m : Manifest} (hroots : m.ReadableRoots)
    {outcomes : List (String × ExecutorResult)} {L : Ledger} (hrun : straight m outcomes = some L) :
    ∃ res w fx, run (pausingHost outcomes) scriptConfig m (.fresh []) = (.ok res, w, fx)
      ∧ res.ledger = L := by
  rw [straight] at hrun
  split at hrun
  · cases hrun
  · rename_i hstart
    split at hrun
    · rename_i hend
      obtain ⟨res, hrun', hledger⟩ := run_returns _ _ hroots hstart hend
      exact ⟨res, _, _, hrun', hledger.trans (Option.some.inj hrun)⟩
    · cases hrun

lemma pausedOnce_chain {m : Manifest} (hroots : m.ReadableRoots)
    {outcomes : List (String × ExecutorResult)} {answers : List ControlAnswer} {p L : Ledger}
    (hrun : pausedOnce m outcomes answers = some (p, L)) (hpaused : p.control.runState = .paused) :
    PausedRun m (fun node => steadyResult outcomes node.taskId.pyStr) [p] L := by
  rw [pausedOnce] at hrun
  split at hrun
  · cases hrun
  · rename_i hstart
    split at hrun
    · rename_i s hpause
      split at hrun
      · rename_i s' hend
        obtain ⟨rfl, rfl⟩ := Prod.mk.inj (Option.some.inj hrun)
        obtain ⟨res, hrun₁, hledger⟩ := run_returns _ _ hroots hstart hpause
        have hfirst := PausedRun.start (pausingHost_result outcomes _) hrun₁
        rw [hledger] at hfirst
        obtain ⟨res', hrun₂, hledger'⟩ := resume_returns _ _ hroots
          (hfirst.reached.mono (fun _ h => h ▸ hroots) fun _ _ h => h) hend
        rw [← hledger']
        exact hfirst.again hpaused (pausingHost_result outcomes _) hrun₂
      · cases hrun
    · cases hrun

/-- The independent tasks `T1` and `T2`, of which one may fail. -/
def apartManifest : Manifest := scriptManifest [("T1", []), ("T2", [])]

/-- A pause between two tasks that succeed does not show. -/
theorem pauses_transparent_pair :
    ∃ (p L : Ledger) (res : RunResult) (w : MockWorld) (fx : List Effect),
      p.control.runState = .paused ∧ (p.taskLedger.map (·.status)) = [.completed, .pending]
      ∧ PausedRun apartManifest (fun node => steadyResult [] node.taskId.pyStr) [p] L
      ∧ run (pausingHost []) scriptConfig apartManifest (.fresh []) = (.ok res, w, fx)
      ∧ L.view = res.ledger.view := by
  obtain ⟨⟨p, L⟩, hpaused, hp⟩ : ∃ x, pausedOnce apartManifest [] [.running, .paused] = some x
      ∧ decide (x.1.control.runState = .paused
        ∧ (x.1.taskLedger.map (·.status)) = [.completed, .pending]
        ∧ x.2.control.runState = .completed) = true := by
    refine (Option.any_eq_true _ _).mp ?_
    decide +kernel
  obtain ⟨S, hstraight, hS⟩ : ∃ S, straight apartManifest [] = some S
      ∧ decide (S.control.runState = .completed) = true := by
    refine (Option.any_eq_true _ _).mp ?_
    decide +kernel
  obtain ⟨hstate, hstatus, hend⟩ := of_decide_eq_true hp
  obtain ⟨res, w, fx, hrun, rfl⟩ := straight_run (scriptManifest_roots _) hstraight
  have hchain := pausedOnce_chain (scriptManifest_roots _) hpaused hstate
  refine ⟨p, L, res, w, fx, hstate, hstatus, hchain, hrun, ?_⟩
  refine (pauses_transparent_iff (scriptManifest_stringIds _) hchain hend
    (pausingHost_result [] _) hrun (of_decide_eq_true hS)).mpr fun q hq e he hblocked => ?_
  obtain rfl := List.mem_singleton.mp hq
  have hmem : e.status ∈ q.taskLedger.map (·.status) := List.mem_map.mpr ⟨e, he, rfl⟩
  rw [hstatus, hblocked] at hmem
  exact absurd hmem (by decide)

/-- **A pause that shows**: `T1` failed before it, and the resume takes `T1` up again, so that it is
blocked twice. -/
theorem pause_shown :
    ∃ (p L : Ledger) (res : RunResult) (w : MockWorld) (fx : List Effect),
      p.control.runState = .paused
      ∧ PausedRun apartManifest (fun node => steadyResult [("T1", mockFailure)] node.taskId.pyStr)
        [p] L
      ∧ L.control.runState = .completed
      ∧ run (pausingHost [("T1", mockFailure)]) scriptConfig apartManifest (.fresh [])
        = (.ok res, w, fx)
      ∧ res.ledger.control.runState = .completed
      ∧ L.blockers.length = 2 ∧ res.ledger.blockers.length = 1 ∧ L.view ≠ res.ledger.view := by
  obtain ⟨⟨p, L⟩, hpaused, hp⟩ : ∃ x, pausedOnce apartManifest [("T1", mockFailure)]
      [.running, .paused] = some x ∧ decide (x.1.control.runState = .paused
        ∧ x.2.control.runState = .completed ∧ x.2.blockers.length = 2) = true := by
    refine (Option.any_eq_true _ _).mp ?_
    decide +kernel
  obtain ⟨S, hstraight, hS⟩ : ∃ S, straight apartManifest [("T1", mockFailure)] = some S
      ∧ decide (S.control.runState = .completed ∧ S.blockers.length = 1) = true := by
    refine (Option.any_eq_true _ _).mp ?_
    decide +kernel
  obtain ⟨hstate, hend, htwo⟩ := of_decide_eq_true hp
  obtain ⟨hend₀, hone⟩ := of_decide_eq_true hS
  obtain ⟨res, w, fx, hrun, rfl⟩ := straight_run (scriptManifest_roots _) hstraight
  refine ⟨p, L, res, w, fx, hstate, pausedOnce_chain (scriptManifest_roots _) hpaused hstate, hend,
    hrun, hend₀, htwo, hone, fun hview => ?_⟩
  have hblockers := congrArg (fun v => v.blockers.length) hview
  simp only [Ledger.view, List.length_map, htwo, hone] at hblockers
  exact absurd hblockers (by decide)

end Example

end IplanRunner
