import IplanRunner.Runs.Script

/-!
A run computes a least fixpoint: the tasks on which the executor succeeds and all of whose
dependencies are in the fixpoint.

* `OutcomeByTask`: the final outcome of the executor depends only on the task.
* `Fresh`: no run has taken a task up yet; `Turn.of_fresh` says what a turn makes of it.
* `Settled`: what the loop has settled once it has passed a part of the order.
* `run_fixpoint`: the completed, the blocked and the executed tasks of a run that returns.
-/

namespace IplanRunner

open Foundation

section Runtime

variable [PyRuntime]

section Host

variable {W : Type} (h : Host W) (cfg : RunConfig)

/-- The final outcome of the executor depends only on the task: it succeeds on the `ok` ones. -/
def OutcomeByTask (scope : Dict) (ok : TaskNode → Prop) : Prop :=
  ∀ node result, Final h cfg node scope result → (result.outcome = .success ↔ ok node)

/-- Control always lets the loop run. -/
def AlwaysRunning : Prop := ∀ w, (h.control w).1 = .running

end Host

/-! ### Fresh tasks -/

/-- No run has taken the task up yet. -/
structure Fresh (L : Ledger) (taskId : String) : Prop where
  pending : L.status? taskId = some .pending
  uncommitted : alreadyCommitted L (executeKey taskId) = false
  unleased : ∀ l ∈ L.agentLeases, l.taskId ≠ taskId

omit [PyRuntime] in
/-- The state of the run and its reconciliation do not matter. -/
lemma Fresh.settle {L : Ledger} {taskId : String} (h : Fresh L taskId) (state : RunState) :
    Fresh (reconcile (L.setRunState state)) taskId :=
  ⟨h.pending, h.uncommitted, h.unleased⟩

omit [PyRuntime] in
/-- The lease of an unleased task can be acquired. -/
lemma canAcquire_of_unleased [PyRuntime] {leases : List Lease} {taskId : String}
    (h : ∀ l ∈ leases, l.taskId ≠ taskId) (now : String) : canAcquire leases taskId now = true := by
  rw [canAcquire, Bool.not_eq_true', List.any_eq_false]
  intro l hl hact
  rw [Bool.and_eq_true, beq_iff_eq] at hact
  exact h l hl hact.1

section Turn

variable {W : Type} {h : Host W} {cfg : RunConfig} {node : TaskNode} {taskId : String}
  {completed : List String} {L : Ledger} {r : Except PyErr Unit} {δ : Delta} {fx : List Effect}

/-- A turn leaves the other tasks fresh. -/
lemma Turn.fresh_of_ne (hturn : Turn h cfg node taskId completed L r δ fx) {other : String}
    (hne : other ≠ taskId) (hfresh : Fresh L other) : Fresh (L.apply taskId δ) other := by
  obtain ⟨hleases, htxns⟩ := hturn.own
  refine ⟨?_, ?_, fun l hl => ?_⟩
  · rw [hturn.status?_apply, if_neg hne]
    exact hfresh.pending
  · have hold := hfresh.uncommitted
    rw [alreadyCommitted] at hold ⊢
    rw [Ledger.apply_sagaJournal, List.any_append, hold, Bool.false_or, List.any_eq_false]
    intro t ht hkey
    rw [Bool.and_eq_true, beq_iff_eq, htxns t ht] at hkey
    exact hne (executeKey_inj.mp hkey.1).symm
  · rcases List.mem_append.mp hl with h1 | h1
    · exact hfresh.unleased l h1
    · rw [(hleases l h1).1]
      exact Ne.symm hne

/-- **What a turn that returns makes of a fresh task**: it is executed when its dependencies are
met, and ends up completed or blocked. -/
lemma Turn.of_fresh {ok : TaskNode → Prop}
    (hturn : Turn h cfg node taskId completed L (.ok ()) δ fx)
    (hfresh : Fresh L taskId) (hok : OutcomeByTask h cfg L.isolationScope ok) :
    (DepsMet node completed ∧ ok node → (L.apply taskId δ).status? taskId = some .completed)
      ∧ (¬ (DepsMet node completed ∧ ok node) → (L.apply taskId δ).status? taskId = some .blocked)
      ∧ ∀ t, Effect.execute t ∈ fx ↔ t = taskId ∧ DepsMet node completed := by
  obtain ⟨e, he, -⟩ := Option.map_eq_some_iff.mp hfresh.pending
  rw [hturn.status?_apply, if_pos rfl, he, Option.map_some]
  cases hturn with
  | unmet hunmet =>
      refine ⟨fun hc => absurd hc.1 hunmet, fun _ => rfl, fun t => ?_⟩
      simp [hunmet]
  | ran hmet hrun =>
      cases hrun with
      | committed hc => exact absurd hc (by simp [hfresh.uncommitted])
      | conflict _ hl => exact absurd hl (by simp [canAcquire_of_unleased hfresh.unleased])
      | succeeded _ _ hfx hfinal hout _ _ =>
          refine ⟨fun _ => rfl, fun hn => absurd ⟨hmet, (hok _ _ hfinal).mp hout⟩ hn, fun t => ?_⟩
          exact ⟨fun ht => ⟨hfx.only t ht, hmet⟩, fun ht => ht.1 ▸ hfx.executed⟩
      | failed _ _ hfx hfinal hout =>
          refine ⟨fun hc => absurd ((hok _ _ hfinal).mpr hc.2) hout, fun _ => rfl, fun t => ?_⟩
          exact ⟨fun ht => ⟨hfx.only t ht, hmet⟩, fun ht => ht.1 ▸ hfx.executed⟩

end Turn

/-! ### The loop -/

/-- The executor succeeds on the task an id stands for. -/
def Succeeds (graph : List TaskNode) (ok : TaskNode → Prop) (taskId : String) : Prop :=
  ∃ node, lastNode graph taskId = some node ∧ ok node

/-- The tasks a run completes. -/
def Completes (graph : List TaskNode) (ok : TaskNode → Prop) : String → Prop :=
  Derivable (nodeDeps graph) (Succeeds graph ok)

omit [PyRuntime] in
lemma depsMet_iff [PyRuntime] {graph : List TaskNode} {taskId : String} {node : TaskNode}
    (hnode : lastNode graph taskId = some node) (completed : List String) :
    DepsMet node completed ↔ ∀ d ∈ nodeDeps graph taskId, d ∈ completed := by
  simp [DepsMet, nodeDeps, rawDeps, hnode]

/-- Only grounded tasks complete. -/
lemma Completes.grounded {graph : List TaskNode} {ok : TaskNode → Prop} {taskId : String}
    (h : Completes graph ok taskId) : Grounded graph taskId := by
  refine Derivable.mono (fun t ht => ?_) h
  obtain ⟨node, hnode, -⟩ := ht
  rw [← lastNode_isSome, hnode]
  rfl

/-- What the loop has settled when `pre` lies behind it and `rest` before it. -/
structure Settled (graph : List TaskNode) (ok : TaskNode → Prop) (scope : Dict)
    (pre rest completed : List String) (L : Ledger) : Prop where
  done : ∀ t, t ∈ completed ↔ t ∈ pre ∧ Completes graph ok t
  completes : ∀ t ∈ pre, Completes graph ok t → L.status? t = some .completed
  blocks : ∀ t ∈ pre, ¬ Completes graph ok t → L.status? t = some .blocked
  fresh : ∀ t ∈ rest, Fresh L t
  unknown : ∀ t ∉ nodeIds graph, L.status? t = none
  scope : L.isolationScope = scope

section Loop

variable {W : Type} {h : Host W} {cfg : RunConfig} {graph : List TaskNode} {ok : TaskNode → Prop}
  {scope : Dict}

/-- A turn settles its task. -/
lemma Settled.turn {pre rest completed : List String} {taskId : String} {L : Ledger}
    {node : TaskNode} {δ : Delta} {fx : List Effect}
    (hL : Settled graph ok scope pre (taskId :: rest) completed L)
    (hnode : lastNode graph taskId = some node)
    (hbefore : Grounded graph taskId → ∀ d ∈ nodeDeps graph taskId, d ∈ pre)
    (hpre : taskId ∉ pre) (hrest : taskId ∉ rest) (hok : OutcomeByTask h cfg scope ok)
    (hturn : Turn h cfg node taskId completed L (.ok ()) δ fx) :
    Settled graph ok scope (pre ++ [taskId]) rest
        (addDone (L.apply taskId δ) taskId completed) (L.apply taskId δ)
      ∧ ∀ t, Effect.execute t ∈ fx ↔ t = taskId ∧ ∀ d ∈ nodeDeps graph t, Completes graph ok d := by
  obtain ⟨hyes, hno, hexec⟩ := hturn.of_fresh (hL.fresh taskId (by simp)) (hL.scope.symm ▸ hok)
  have hiff : Completes graph ok taskId ↔ DepsMet node completed ∧ ok node := by
    rw [depsMet_iff hnode, and_comm]
    refine (Derivable.iff_done hL.done fun hc => hbefore (Completes.grounded hc)).trans
      (and_congr_left fun _ => ?_)
    simp [Succeeds, hnode]
  have hother : ∀ t, t ≠ taskId → (L.apply taskId δ).status? t = L.status? t := by
    intro t ht
    rw [hturn.status?_apply, if_neg ht]
  have hdone : (L.apply taskId δ).Done taskId ↔ Completes graph ok taskId := by
    rw [Ledger.done_iff, hiff]
    by_cases hc : DepsMet node completed ∧ ok node
    · simp [hyes hc, hc]
    · simp [hno hc, hc]
  have hmem : taskId ∈ nodeIds graph := by
    rw [← lastNode_isSome, hnode]
    rfl
  refine ⟨⟨fun t => ?_, fun t ht hc => ?_, fun t ht hc => ?_, fun t ht => ?_, fun t ht => ?_,
    hL.scope⟩, fun t => ?_⟩
  · rw [addDone, List.mem_append, List.mem_singleton]
    by_cases ht : t = taskId
    · subst ht
      by_cases hd : (L.apply t δ).Done t
      · simp [hd, hdone.mp hd]
      · have hn : ¬ Completes graph ok t := fun hc => hd (hdone.mpr hc)
        rw [if_neg hd, hL.done]
        simp [hn]
    · have hsame := hL.done t
      split <;> simp [ht, hsame]
  · by_cases hid : t = taskId
    · subst hid
      exact hyes (hiff.mp hc)
    · rw [hother t hid]
      exact hL.completes t (by simpa [hid] using ht) hc
  · by_cases hid : t = taskId
    · subst hid
      exact hno fun hcon => hc (hiff.mpr hcon)
    · rw [hother t hid]
      exact hL.blocks t (by simpa [hid] using ht) hc
  · have hne : t ≠ taskId := fun hcon => hrest (hcon ▸ ht)
    exact hturn.fresh_of_ne hne (hL.fresh t (List.mem_cons_of_mem _ ht))
  · rw [hother t fun hcon => ht (hcon ▸ hmem)]
    exact hL.unknown t ht
  · rw [hexec]
    refine and_congr_right fun ht => ?_
    subst ht
    rw [depsMet_iff hnode]
    constructor
    · exact fun hall d hd => ((hL.done d).mp (hall d hd)).2
    · intro hall d hd
      have hg : Grounded graph t := .intro hmem fun d hd => (hall d hd).grounded
      exact (hL.done d).mpr ⟨hbefore hg d hd, hall d hd⟩

/-- The loop settles the rest of the order, and executes what its fixpoint enables. -/
lemma LoopRun.settled {order : List String} (hstr : StringDeps graph)
    (horder : topoOrder graph = .ok order) (hrunning : AlwaysRunning h)
    (hok : OutcomeByTask h cfg scope ok) {rest completed : List String} {L L' : Ledger}
    {r : Except PyErr RunState} {fx : List Effect}
    (hrun : LoopRun h cfg graph rest completed L r L' fx) {pre : List String}
    (hsplit : order = pre ++ rest) (hL : Settled graph ok scope pre rest completed L)
    (hr : ∃ state, r = .ok state) :
    (∃ completed', Settled graph ok scope order [] completed' L')
      ∧ ∀ t, Effect.execute t ∈ fx ↔ t ∈ rest ∧ ∀ d ∈ nodeDeps graph t, Completes graph ok d := by
  have hnodup : order.Nodup := (topoOrder_perm horder).nodup_iff.mpr (nodup_nodeIds graph)
  have hstopped : ∀ {answer : ControlAnswer}, Answers h answer → answer = .running := by
    rintro _ ⟨w, rfl⟩
    exact hrunning w
  induction hrun generalizing pre with
  | finished =>
      rw [List.append_nil] at hsplit
      exact ⟨⟨_, hsplit.symm ▸ hL⟩, by simp⟩
  | unknown _ => simp at hr
  | @skip taskId _ _ L _ _ _ hdone _ _ =>
      have hp := (hL.fresh taskId (by simp)).pending
      rw [(L.done_iff taskId).mp hdone] at hp
      simp at hp
  | paused _ _ ha => exact absurd (hstopped ha) (by simp)
  | aborted _ _ ha => exact absurd (hstopped ha) (by simp)
  | noNode _ _ _ => simp at hr
  | raised _ _ _ _ => simp at hr
  | @turned taskId rest completed L L' node δ r fx gx _ _ hnode hturn _ ih =>
      rw [hsplit] at hnodup
      have hpre : taskId ∉ pre := fun hmem =>
        (List.nodup_append.mp hnodup).2.2 taskId hmem taskId (by simp) rfl
      have hrest : taskId ∉ rest := (List.nodup_cons.mp (List.nodup_append.mp hnodup).2.1).1
      obtain ⟨hL', hexec⟩ := hL.turn hnode (topoOrder_deps_before hstr horder hsplit) hpre hrest
        hok hturn
      obtain ⟨hend, hmore⟩ := ih (by rw [hsplit]; simp) hL' hr
      refine ⟨hend, fun t => ?_⟩
      rw [List.mem_append, hexec, hmore, List.mem_cons]
      exact or_and_right.symm

end Loop

/-! ### Runs -/

/-- Every task of a new ledger is fresh. -/
lemma startLedger_fresh {m : Manifest} {L : Ledger} (hids : StringIds m.taskGraph)
    (hstart : startLedger m = .ok L) {t : String} (ht : t ∈ nodeIds m.taskGraph) : Fresh L t := by
  obtain ⟨hpending, hmap⟩ := startLedger_entries hstart
  obtain ⟨hj, -, hl, -⟩ := startLedger_empty hstart
  refine ⟨?_, by simp [alreadyCommitted, hj], by simp [hl]⟩
  obtain ⟨node, hnode, rfl⟩ := (mem_nodeIds _ _).mp ht
  obtain ⟨s, hs⟩ := hids node hnode
  have hmem : (.str s : Val) ∈ L.taskLedger.map (·.taskId) := by
    rw [hmap]
    exact List.mem_map.mpr ⟨node, hnode, hs⟩
  obtain ⟨e, he, hes⟩ := List.mem_map.mp hmem
  have hsome : (L.task? s).isSome := by
    rw [Ledger.task?, List.find?_isSome]
    exact ⟨e, he, by simp [TaskEntry.named, hes]⟩
  obtain ⟨e', he'⟩ := Option.isSome_iff_exists.mp hsome
  rw [hs, Val.pyStr_str, Ledger.status?, he', Option.map_some,
    hpending e' (List.mem_of_find?_eq_some he')]

/-- A new ledger knows no other task. -/
lemma startLedger_unknown {m : Manifest} {L : Ledger} (hstart : startLedger m = .ok L) {t : String}
    (ht : t ∉ nodeIds m.taskGraph) : L.status? t = none := by
  rw [Ledger.status?, Option.map_eq_none_iff, Ledger.task?, List.find?_eq_none]
  intro e he hnamed
  have hmem : e.taskId ∈ m.taskGraph.map (·.taskId) := by
    rw [← (startLedger_entries hstart).2]
    exact List.mem_map.mpr ⟨e, he, rfl⟩
  obtain ⟨node, hnode, hid⟩ := List.mem_map.mp hmem
  have hes : e.taskId = .str t := by simpa [TaskEntry.named] using hnamed
  exact ht ((mem_nodeIds _ _).mpr ⟨node, hnode, by rw [hid, hes, Val.pyStr_str]⟩)

/-- What a run that returns has settled, and what it has executed. -/
lemma run_settled {W : Type} {h : Host W} {cfg : RunConfig} {m : Manifest} {ok : TaskNode → Prop}
    {w w' : W} {res : RunResult} {fx : List Effect} (hids : StringIds m.taskGraph)
    (hdeps : StringDeps m.taskGraph) (hrunning : AlwaysRunning h)
    (hok : OutcomeByTask h cfg m.isolationScope ok) (hrun : run h cfg m w = (.ok res, w', fx)) :
    (∀ t, res.ledger.Done t ↔ Completes m.taskGraph ok t)
      ∧ (∀ t ∈ nodeIds m.taskGraph, ¬ Completes m.taskGraph ok t →
        res.ledger.status? t = some .blocked)
      ∧ ∀ t, Effect.execute t ∈ fx
        ↔ t ∈ nodeIds m.taskGraph ∧ ∀ d ∈ nodeDeps m.taskGraph t, Completes m.taskGraph ok d := by
  obtain ⟨L, state, hstart, hdrive⟩ := run_spec h cfg hrun
  generalize hend : res.ledger = L₁ at hdrive
  cases hdrive with
  | @ended order _ L' _ horder hloop =>
      have hperm := topoOrder_perm horder
      obtain ⟨-, -, -, -, -, hscope, -⟩ := startLedger_empty hstart
      have hL : Settled m.taskGraph ok m.isolationScope [] order [] L :=
        ⟨by simp, by simp, by simp,
          fun t ht => startLedger_fresh hids hstart (hperm.mem_iff.mp ht),
          fun t => startLedger_unknown hstart, hscope⟩
      obtain ⟨⟨completed, hL'⟩, hexec⟩ :=
        hloop.settled hdeps horder hrunning hok rfl hL ⟨_, rfl⟩
      have hstatus : ∀ t, (reconcile (L'.setRunState state)).status? t = L'.status? t :=
        fun _ => rfl
      have hknown : ∀ t, Completes m.taskGraph ok t → t ∈ order := fun t ht =>
        hperm.mem_iff.mpr ht.grounded.holds
      refine ⟨fun t => ?_, fun t ht hc => ?_, fun t => ?_⟩
      · rw [Ledger.done_iff, hstatus]
        refine ⟨fun hd => ?_, fun hc => hL'.completes t (hknown t hc) hc⟩
        by_contra hc
        by_cases ht : t ∈ order
        · rw [hL'.blocks t ht hc] at hd
          simp at hd
        · rw [hL'.unknown t fun hmem => ht (hperm.mem_iff.mpr hmem)] at hd
          simp at hd
      · rw [hstatus]
        exact hL'.blocks t (hperm.mem_iff.mpr ht) hc
      · rw [hexec, hperm.mem_iff]

/-- With distinct ids, what an id stands for does not depend on the order of the graph. -/
lemma lastNode_perm {graph graph' : List TaskNode} (hids : StringIds graph)
    (hnodup : (graph.map (·.taskId)).Nodup) (hperm : graph.Perm graph') (t : String) :
    lastNode graph' t = lastNode graph t := by
  have hinj : ∀ x ∈ graph, ∀ y ∈ graph, x.taskId.pyStr = y.taskId.pyStr → x = y := by
    intro x hx y hy hxy
    obtain ⟨a, ha⟩ := hids x hx
    obtain ⟨b, hb⟩ := hids y hy
    rw [ha, hb, Val.pyStr_str, Val.pyStr_str] at hxy
    exact List.inj_on_of_nodup_map hnodup hx hy (by rw [ha, hb, hxy])
  cases hn : lastNode graph t with
  | none =>
      have hnone : t ∉ nodeIds graph' := by
        rw [mem_nodeIds]
        rintro ⟨x, hx, hxt⟩
        have hmem : t ∈ nodeIds graph := (mem_nodeIds _ _).mpr ⟨x, hperm.mem_iff.mpr hx, hxt⟩
        rw [← lastNode_isSome, hn] at hmem
        simp at hmem
      rw [← lastNode_isSome] at hnone
      exact Option.not_isSome_iff_eq_none.mp hnone
  | some node =>
      have hsome : (lastNode graph' t).isSome := by
        rw [lastNode_isSome, mem_nodeIds]
        exact ⟨node, hperm.mem_iff.mp (lastNode_mem hn), lastNode_pyStr hn⟩
      obtain ⟨node', hn'⟩ := Option.isSome_iff_exists.mp hsome
      rw [hn', hinj node (lastNode_mem hn) node' (hperm.mem_iff.mpr (lastNode_mem hn'))
        (by rw [lastNode_pyStr hn, lastNode_pyStr hn'])]

/-- **A run computes the dependency fixpoint.**  When it returns, the completed tasks are the least
set that contains a task exactly when the executor succeeds on it and the set contains all it
depends on; every other task is blocked; the executor was called for the tasks all of whose
dependencies are completed, none of them over a cycle; and the order in which the graph lists tasks
of distinct ids does not matter. -/
theorem run_fixpoint {W : Type} {h : Host W} {cfg : RunConfig} {m : Manifest}
    {ok : TaskNode → Prop} {w w' : W} {res : RunResult} {fx : List Effect}
    (hids : StringIds m.taskGraph) (hdeps : StringDeps m.taskGraph) (hrunning : AlwaysRunning h)
    (hok : OutcomeByTask h cfg m.isolationScope ok) (hrun : run h cfg m w = (.ok res, w', fx)) :
    IsLeast {C : Set String | ∀ t, t ∈ C ↔ Succeeds m.taskGraph ok t
        ∧ ∀ d ∈ nodeDeps m.taskGraph t, d ∈ C} {t | res.ledger.Done t}
      ∧ (∀ t ∈ nodeIds m.taskGraph, ¬ res.ledger.Done t → res.ledger.status? t = some .blocked)
      ∧ (∀ t, Effect.execute t ∈ fx
        ↔ t ∈ nodeIds m.taskGraph ∧ ∀ d ∈ nodeDeps m.taskGraph t, res.ledger.Done d)
      ∧ (∀ t, Effect.execute t ∈ fx → ¬ OverCycle (nodeDeps m.taskGraph) t)
      ∧ ∀ (graph : List TaskNode) (W₂ : Type) (h₂ : Host W₂) (cfg₂ : RunConfig) (w₂ w₂' : W₂)
          (res₂ : RunResult) (fx₂ : List Effect), m.taskGraph.Perm graph →
        (m.taskGraph.map (·.taskId)).Nodup → AlwaysRunning h₂ →
        OutcomeByTask h₂ cfg₂ m.isolationScope ok →
        run h₂ cfg₂ { m with taskGraph := graph } w₂ = (.ok res₂, w₂', fx₂) →
        ∀ t, res₂.ledger.Done t ↔ res.ledger.Done t := by
  obtain ⟨hdone, hblocked, hexec⟩ := run_settled hids hdeps hrunning hok hrun
  have hset : {t | res.ledger.Done t} = {t | Completes m.taskGraph ok t} := Set.ext hdone
  refine ⟨?_, fun t ht hn => hblocked t ht fun hc => hn ((hdone t).mpr hc), fun t => ?_,
    fun t ht => ?_, ?_⟩
  · rw [hset]
    exact isLeast_derivable _ _
  · rw [hexec]
    simp only [hdone]
  · obtain ⟨hmem, hall⟩ := (hexec t).mp ht
    have hg : Grounded m.taskGraph t := .intro hmem fun d hd => (hall d hd).grounded
    exact hg.not_overCycle
  · intro graph W₂ h₂ cfg₂ w₂ w₂' res₂ fx₂ hperm hnodup hrunning₂ hok₂ hrun₂ t
    have hlast := lastNode_perm hids hnodup hperm
    have hdeps₂ : nodeDeps graph = nodeDeps m.taskGraph := by
      funext s
      rw [nodeDeps, nodeDeps, rawDeps, rawDeps, hlast]
    have hsucceeds : Succeeds graph ok = Succeeds m.taskGraph ok := by
      funext s
      rw [Succeeds, Succeeds, hlast]
    obtain ⟨hdone₂, -⟩ := run_settled (m := { m with taskGraph := graph })
      (fun x hx => hids x (hperm.mem_iff.mpr hx)) (fun x hx => hdeps x (hperm.mem_iff.mpr hx))
      hrunning₂ hok₂ hrun₂
    rw [hdone, hdone₂, Completes, Completes, hdeps₂, hsucceeds]

/-! ### Scripted runs -/

omit [PyRuntime] in
lemma scriptManifest_stringIds (tasks : List (String × List String)) :
    StringIds (scriptManifest tasks).taskGraph := by
  intro node hnode
  obtain ⟨task, -, rfl⟩ := List.mem_map.mp hnode
  exact ⟨task.1, rfl⟩

omit [PyRuntime] in
lemma scriptManifest_stringDeps (tasks : List (String × List String)) :
    StringDeps (scriptManifest tasks).taskGraph := by
  intro node hnode d hd
  obtain ⟨task, -, rfl⟩ := List.mem_map.mp hnode
  obtain ⟨s, -, rfl⟩ := List.mem_map.mp hd
  exact ⟨s, rfl⟩

/-- The tasks a scripted executor succeeds on. -/
def SteadyOk (outcomes : List (String × ExecutorResult)) (node : TaskNode) : Prop :=
  (steadyResult outcomes node.taskId.pyStr).outcome = .success

lemma steadyHost_outcome (outcomes : List (String × ExecutorResult)) (cfg : RunConfig)
    (scope : Dict) : OutcomeByTask (steadyHost outcomes) cfg scope (SteadyOk outcomes) := by
  intro node result hfinal
  rw [hfinal.of_const (steadyHost_execute outcomes node scope), SteadyOk]

lemma steadyHost_running (outcomes : List (String × ExecutorResult)) :
    AlwaysRunning (steadyHost outcomes) := fun _ => rfl

end Runtime

section Example

attribute [local instance] cpython

/-- Five tasks: `T2` fails, `T3` waits for it, `T4` and `T5` wait for each other. -/
theorem run_fixpoint_of_five :
    ∃ (graph : List TaskNode) (res : RunResult) (w : MockWorld) (fx : List Effect),
      graph = (scriptManifest [("T1", []), ("T2", ["T1"]), ("T3", ["T2"]), ("T4", ["T5"]),
        ("T5", ["T4"])]).taskGraph
      ∧ run (steadyHost [("T2", mockFailure)]) scriptConfig
          (scriptManifest [("T1", []), ("T2", ["T1"]), ("T3", ["T2"]), ("T4", ["T5"]),
            ("T5", ["T4"])]) (.fresh []) = (.ok res, w, fx)
      ∧ IsLeast {C : Set String | ∀ t, t ∈ C ↔ Succeeds graph (SteadyOk [("T2", mockFailure)]) t
          ∧ ∀ d ∈ nodeDeps graph t, d ∈ C} {t | res.ledger.Done t}
      ∧ ∀ t, Effect.execute t ∈ fx
        ↔ t ∈ nodeIds graph ∧ ∀ d ∈ nodeDeps graph t, res.ledger.Done d := by
  have hends : runEnds (steadyHost [("T2", mockFailure)]) scriptConfig
      (scriptManifest [("T1", []), ("T2", ["T1"]), ("T3", ["T2"]), ("T4", ["T5"]),
        ("T5", ["T4"])]) (.fresh []) = true := by decide +kernel
  obtain ⟨res, w, fx, hrun⟩ := run_of_runEnds (scriptManifest_roots _) hends
  obtain ⟨hleast, -, hexec, -⟩ := run_fixpoint (scriptManifest_stringIds _)
    (scriptManifest_stringDeps _) (steadyHost_running _) (steadyHost_outcome _ _ _) hrun
  exact ⟨_, res, w, fx, rfl, hrun, hleast, hexec⟩

end Example

end IplanRunner
