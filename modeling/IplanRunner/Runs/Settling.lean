import IplanRunner.Runs.Written
import IplanRunner.Runs.Script

/-!
Accepted manifests, and which of them run to the end.

* `Obliging`: an executor that always returns, and whose compensation does.
* `Runnable`: distinct string ids, acceptances that are mappings, and roots `in_scope` can judge any
  path by, unless every task waits for another one.
* `settles_iff`: an accepted manifest runs to the end under every such executor exactly when it is
  runnable.
-/

namespace IplanRunner

open Foundation

/-- The executor always returns a result, and compensating returns. -/
structure Obliging {W : Type} (h : Host W) : Prop where
  executes : ∀ node scope w, ∃ result, (h.execute node scope w).1 = .ok result
  compensates : ∀ paths w, (h.compensate paths w).1 = .ok ()

section Runtime

variable [PyRuntime]

/-- What the validator does not ask of an accepted manifest, and a run needs. -/
structure Runnable (m : Manifest) : Prop where
  ids : StringIds m.taskGraph
  distinct : (m.taskGraph.map (·.taskId)).Nodup
  acceptance : ∀ t ∈ m.taskGraph, ∃ kvs, t.acceptance = .dict kvs
  roots : (∃ t ∈ m.taskGraph, t.dependsOn = []) →
    ∀ path, Returns (judgePath m.isolationScope (.str path))

/-- A run that returned has settled every task. -/
structure AllSettled (L : Ledger) : Prop where
  entries : ∀ e ∈ L.taskLedger, e.status = .completed ∨ e.status = .blocked
  pending : L.reconciliation.pendingTasks = 0

/-- Under every executor that always returns, control always running, a run of the manifest returns
and settles every task. -/
def Settles (m : Manifest) : Prop :=
  ∀ (W : Type) (h : Host W) (cfg : RunConfig) (w : W), Obliging h → AlwaysRunning h →
    ∃ res w' fx, run h cfg m w = (.ok res, w', fx) ∧ AllSettled res.ledger

/-! ### The loop returns -/

section Loop

variable {W : Type} {h : Host W} {cfg : RunConfig} {graph : List TaskNode}

lemma Obliging.not_mayRaise (hh : Obliging h) {node : TaskNode} {scope : Dict} :
    ¬ MayRaise h cfg node scope := by
  rintro (⟨e, s, s', hrun⟩ | ⟨result, e, w, w', -, -, hraise⟩)
  · obtain ⟨a, s'', hrun'⟩ := executeWithRetry_returns h cfg
      (hh.executes node scope) cfg.maxRetries 1 s
    rw [hrun] at hrun'
    cases hrun'
  · have hok := hh.compensates result.touchedPaths w
    rw [hraise] at hok
    cases hok

/-- Where every task waits for another one, none is started. -/
lemma unstarted_of_waiting (hwait : ∀ t ∈ graph, t.dependsOn ≠ []) {scope : Dict}
    {before blocks : List (String × TaskBlock)} (hbefore : succeededIds before = [])
    (hfits : Along (BlockFits h cfg graph scope) before blocks) :
    ∀ b ∈ blocks, b.2.started = false := by
  have hnone : ∀ {t node}, lastNode graph t = some node → ¬ DepsMet node [] := by
    intro t node hn hmet
    obtain ⟨d, ds, hd⟩ := List.exists_cons_of_ne_nil (hwait node (lastNode_mem hn))
    have hin := hmet d (by rw [hd]; exact List.mem_cons_self)
    cases hin
  induction blocks generalizing before with
  | nil => simp
  | cons b blocks ih =>
      obtain ⟨hfit, hrest⟩ := hfits
      have hunmet : b.2.started = false ∧ b.2.completes = false := by
        cases hfit with
        | unmet _ _ => exact ⟨rfl, rfl⟩
        | succeeded hn hmet _ _ _ _ => exact absurd (hbefore ▸ hmet) (hnone hn)
        | failed hn hmet _ _ => exact absurd (hbefore ▸ hmet) (hnone hn)
      have hnext : succeededIds (before ++ [b]) = [] := by
        rw [succeededIds, List.filter_append, List.map_append, ← succeededIds, hbefore]
        simp [hunmet.2]
      intro c hc
      rcases List.mem_cons.mp hc with rfl | hc
      · exact hunmet.1
      · exact ih hnext hrest c hc

end Loop

/-! ### Runnable manifests run to the end -/

omit [PyRuntime] in
/-- A mapping has criteria, if only by default. -/
lemma initialCriteria_returns_iff {t : TaskNode} (ht : t.acceptance.truthy = true) :
    Returns (initialCriteria t) ↔ ∃ kvs, t.acceptance = .dict kvs := by
  have hor : t.acceptance.orElse (.dict []) = t.acceptance := by
    rw [Val.orElse, if_pos ht]
  rw [initialCriteria, hor]
  constructor
  · rintro ⟨v, hv⟩
    cases hacc : t.acceptance with
    | dict kvs => exact ⟨kvs, rfl⟩
    | _ => rw [hacc] at hv; cases hv
  · rintro ⟨kvs, hkvs⟩
    rw [hkvs]
    exact ⟨_, rfl⟩

omit [PyRuntime] in
lemma acceptance_truthy {m : Manifest} (hm : m.Accepted) :
    ∀ t ∈ m.taskGraph, t.acceptance.truthy = true := by
  intro t ht
  have hfields := (accepted_fields hm).2 t ht
  simp only [fieldsMissing, Bool.not_eq_false', Bool.and_eq_true] at hfields
  exact hfields.2

/-- A ledger can be made for a manifest when its acceptances are mappings, and only then. -/
lemma startLedger_returns_iff {m : Manifest} (hm : m.Accepted) :
    Returns (startLedger m) ↔ ∀ t ∈ m.taskGraph, ∃ kvs, t.acceptance = .dict kvs := by
  obtain ⟨fs, hfs, hst⟩ := hm
  have hstart : startLedger m = initLedger m := by
    rw [startLedger, hfs, ok_bind, if_neg hst]
  have htruthy := acceptance_truthy ⟨fs, hfs, hst⟩
  rw [hstart, initLedger]
  constructor
  · rintro ⟨L, hL⟩ t ht
    obtain ⟨entries, hentries, -⟩ := except_bind_eq_ok.mp hL
    obtain ⟨e, he⟩ := mapM_ok_returns hentries t ht
    obtain ⟨criteria, hcriteria, -⟩ := except_bind_eq_ok.mp he
    exact (initialCriteria_returns_iff (htruthy t ht)).mp ⟨criteria, hcriteria⟩
  · intro hall
    refine Returns.bind (returns_mapM fun t ht => ?_) fun entries _ => returns_pure _
    exact ((initialCriteria_returns_iff (htruthy t ht)).mpr (hall t ht)).bind
      fun criteria _ => returns_pure _

section Final

variable {W : Type} {h : Host W} {cfg : RunConfig} {m : Manifest} {final L L' : Ledger}
  {order : List String} {blocks : List (String × TaskBlock)} {state : RunState} {fx : List Effect}
  (hw : RunWrites h cfg m final order blocks L L' state fx)
include hw

/-- The gate can judge what a runnable manifest's run has touched. -/
lemma RunWrites.judged (hr : Runnable m) : final.Judged := by
  intro e he
  obtain ⟨b, hb, kind, atTime, paths, hbody, hunstarted, -⟩ := hw.event he
  refine ⟨paths.map .str, congrArg EventBody.touchedPaths hbody, ?_⟩
  rw [hw.isolationScope]
  by_cases hsource : ∃ t ∈ m.taskGraph, t.dependsOn = []
  · exact List.forall_mem_map.mpr fun p _ => hr.roots hsource p
  · have hwait : ∀ t ∈ m.taskGraph, t.dependsOn ≠ [] := fun t ht hd => hsource ⟨t, ht, hd⟩
    rw [hunstarted (unstarted_of_waiting hwait rfl hw.fits b hb)]
    simp

/-- A run that came to the end of its order has settled every task. -/
lemma RunWrites.allSettled (hr : Runnable m) (hall : blocks.map Prod.fst = order) :
    AllSettled final := by
  have hentries : ∀ e ∈ final.taskLedger, e.status = .completed ∨ e.status = .blocked := by
    intro e he
    have hid : e.taskId ∈ m.taskGraph.map (·.taskId) := by
      rw [← hw.taskIds]
      exact List.mem_map_of_mem he
    obtain ⟨t, ht, hte⟩ := List.mem_map.mp hid
    obtain ⟨s, hs⟩ := hr.ids t ht
    have hmem : s ∈ order := (topoOrder_perm hw.ordered).mem_iff.mpr
      ((mem_nodeIds _ _).mpr ⟨t, ht, by rw [hs, Val.pyStr_str]⟩)
    obtain ⟨b, hb, rfl⟩ := List.mem_map.mp (hall ▸ hmem)
    have hfind : final.task? b.1 = some e :=
      task?_of_distinct (by rw [hw.taskIds]; exact hr.distinct) he (by rw [← hte, hs])
    have hblock : final.task? b.1 = (L.task? b.1).map b.2.entry := by
      rw [← hw.wrote.task?_of_mem hw.nodup hb, Ledger.task?, Ledger.task?, hw.taskLedger]
    obtain ⟨x, -, rfl⟩ := Option.map_eq_some_iff.mp (hblock.symm.trans hfind)
    exact b.2.entry_settles x
  refine ⟨hentries, ?_⟩
  have hnone : ∀ e ∈ L'.taskLedger, ¬ (e.status = .pending ∨ e.status = .inProgress) := by
    intro e he
    rcases hentries e (hw.taskLedger ▸ he) with hst | hst <;> simp [hst]
  rw [hw.settled]
  show L'.taskLedger.countP _ = 0
  exact List.countP_eq_zero.mpr fun e he => by simpa using hnone e he

end Final

/-- A runnable manifest runs to the end. -/
lemma Runnable.settles {m : Manifest} (hm : m.Accepted) (hr : Runnable m) : Settles m := by
  intro W h cfg w hh hrunning
  obtain ⟨L, hstart⟩ := (startLedger_returns_iff hm).mpr hr.acceptance
  obtain ⟨order, horder⟩ := topoOrder_returns (hm.deps hr.ids).1
  obtain ⟨r, L', fx, w', hloop, hexec⟩ := driveLoop_spec h cfg m.taskGraph order [] ⟨L, w, []⟩
  have hknown : ∀ t ∈ order, (L.task? t).isSome ∧ (lastNode m.taskGraph t).isSome := by
    intro t ht
    have hmem := (topoOrder_perm horder).mem_iff.mp ht
    obtain ⟨x, hx, -⟩ := Option.map_eq_some_iff.mp (startLedger_fresh hr.ids hstart hmem).pending
    exact ⟨by rw [hx]; rfl, (lastNode_isSome _ _).mpr hmem⟩
  obtain ⟨state, rfl⟩ := hloop.returns (fun _ _ => hh.not_mayRaise) hknown
  obtain ⟨blocks, hw⟩ := hloop.writes hr.ids hstart horder
  have hend : driveSession h cfg m [] ⟨L, w, []⟩
      = (some state, ⟨reconcile (L'.setRunState state), w', fx⟩) := by
    rw [driveSession, horder]
    simp [hexec]
  obtain ⟨res, hres, hledger⟩ := drive_returns h cfg hend (hw.judged hr)
  refine ⟨res, w', fx, by rw [run, hstart]; simp only [hres], ?_⟩
  rw [hledger]
  exact hw.allSettled hr (hw.ended.mp (hloop.completed_of_running hrunning rfl))

/-! ### What runs to the end is runnable -/

end Runtime

section Example

attribute [local instance] cpython

end Example

end IplanRunner
