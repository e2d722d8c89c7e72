import IplanRunner.Gates.Verdict
import IplanRunner.Handover.Completion
import IplanRunner.Runs.AppendOnly
import IplanRunner.Runs.Blockers
import IplanRunner.Runs.Written

/-!
The handover of a run.

* `TaskBlock.evidenced`, `InRoots`, `HandedOver`: what the receipt of a run stands for.
* `handover_exact`: the receipt of a run says completed exactly when every task is completed, every
  task carried evidence and every edited path is inside the roots.
-/

namespace IplanRunner

open Foundation

/-- The final result of the executor carried evidence, which was recorded. -/
def TaskBlock.evidenced : TaskBlock → Bool
  | .unmet _ => false
  | .succeeded _ _ evidence _ => evidence.isSome
  | .failed _ _ _ _ _ => false

section Runtime

variable [PyRuntime]

/-- `in_scope(path, scope["allowed_roots"])`. -/
def InRoots (scope : Dict) (path : String) : Prop :=
  ∃ roots, (Dict.get scope "allowed_roots").iter = .ok roots ∧ inScope path roots = .ok true

/-! ### The receipt -/

omit [PyRuntime] in
lemma reconciled_toDoc (L : Ledger) :
    reconciled L.toDoc = .ok L.reconciliation.allowed := by
  rw [reconciled, toDoc_reconciliation, ok_bind, Reconciliation.toVal]
  rfl

omit [PyRuntime] in
lemma hasOpen_toVal (tasks : List TaskEntry) : hasOpen (tasks.map TaskEntry.toVal)
    = .ok (tasks.any fun t => t.status = .pending ∨ t.status = .inProgress) := by
  have hone : ∀ t : TaskEntry, (do
      if ← statusIs t.toVal "pending" then return true
      statusIs t.toVal "in_progress")
        = (.ok (decide (t.status = .pending ∨ t.status = .inProgress)) : Except PyErr Bool) := by
    intro t
    rw [show "pending" = TaskStatus.pending.text from rfl,
      show "in_progress" = TaskStatus.inProgress.text from rfl, statusIs_toVal, statusIs_toVal]
    cases t.status <;> rfl
  exact anyE_map_ok fun t _ => hone t

/-- The receipt of a ledger says completed when the gate passed, completion is allowed and no task
is open. -/
lemma receipt_toDoc {L : Ledger} {g : GateResult} {audit : Option Val} {clock : String}
    {r : Receipt} (hr : buildHandoverReceipt L.toDoc g audit clock = .ok r) :
    r.status = .completed ↔ g.status = .passed ∧ L.reconciliation.allowed = true
      ∧ ∀ t ∈ L.taskLedger, t.status ≠ .pending ∧ t.status ≠ .inProgress := by
  rw [receipt_status hr, reconciled_toDoc, toDoc_tasks]
  simp [hasOpen_toVal, not_or]

/-- A run's ledger has a receipt, when it has been gated and not landed. -/
lemma receipt_returns {L : Ledger} (hvcs : L.vcs = none) (g : GateResult) (clock : String) :
    Returns (buildHandoverReceipt L.toDoc g none clock) := by
  have hdoc : docDict L.toDoc "vcs" = .ok (.dict []) := by
    rw [Ledger.toDoc, hvcs]
    rfl
  have hcommit : lastCommit L.toDoc = .ok none := by
    rw [lastCommit, hdoc]
    rfl
  have haudit : ((Val.dict []).get "audit_control" (.dict []) : Except PyErr Val)
      = .ok (.dict []) := rfl
  rw [buildHandoverReceipt, toDoc_control, ok_bind, reconciled_toDoc, toDoc_tasks]
  simp [hasOpen_toVal, hcommit, LedgerControl.toVal, Val.get, Returns, pure, Except.pure]

/-! ### What the gate says about the paths of an event -/

lemma touchesOutside_eq_false {roots : Val} {e : Event} {paths : List Val}
    (hpaths : e.touchedPaths.iter = .ok paths) : touchesOutside roots e.toVal = .ok false
      ↔ ∀ p ∈ e.paths, ∃ rs, roots.iter = .ok rs ∧ inScope p rs = .ok true := by
  have hread : e.paths = paths.map Val.pyStr := by
    rw [Event.paths, hpaths]
  have hpass : ∀ (p : Val) (zs : List Unit), (do
      if ← inScope p.pyStr (← roots.iter) then return [] else return [()]) = Except.ok zs →
        (zs = [] ↔ ∃ rs, roots.iter = .ok rs ∧ inScope p.pyStr rs = .ok true) := by
    intro p zs hzs
    obtain ⟨rs, hrs, hzs⟩ := except_bind_eq_ok.mp hzs
    obtain ⟨b, hb, hzs⟩ := except_bind_eq_ok.mp hzs
    cases b <;> cases hzs <;> simp [hrs, hb]
  rw [touchesOutside, Event.get_paths, ok_bind, hpaths, ok_bind, hread, List.forall_mem_map]
  constructor
  · intro h p hp
    obtain ⟨outside, hout, h⟩ := except_bind_eq_ok.mp h
    obtain rfl : outside = [] := by simpa [pure, Except.pure] using h
    obtain ⟨hall, hmem⟩ := collect_eq_ok hout
    obtain ⟨zs, hzs⟩ := hall p hp
    refine (hpass p zs hzs).mp (List.eq_nil_iff_forall_not_mem.mpr fun u hu => ?_)
    exact absurd ((hmem u).mpr ⟨p, hp, zs, hzs, hu⟩) (by simp)
  · intro h
    refine except_bind_eq_ok.mpr ⟨[], ?_, rfl⟩
    clear hread hpaths
    induction paths with
    | nil => rfl
    | cons p paths ih =>
        obtain ⟨rs, hrs, hin⟩ := h p (by simp)
        rw [collect, ih fun q hq => h q (List.mem_cons_of_mem _ hq), hrs, ok_bind, hin]
        rfl

section LoopEvent

variable {scope : Dict} {e : Event} {kind : EventKind} {taskId atTime : String}
  {paths : List String}

/-- An event of the loop is clean when its paths are in the roots. -/
lemma eventClean_loopEvent (he : e.toEventBody = loopEvent scope kind taskId atTime paths) :
    EventClean scope e ↔ ∀ p ∈ e.paths, InRoots scope p := by
  have htouched : e.touchedPaths.iter = .ok (paths.map .str) := by
    have h1 : e.touchedPaths = strList paths := congrArg EventBody.touchedPaths he
    rw [h1]
    rfl
  have hclient : e.clientId = Dict.get scope "client_id" := congrArg EventBody.clientId he
  have hproject : e.projectId = Dict.get scope "project_id" := congrArg EventBody.projectId he
  have hscope : eventInScope e.toVal (Dict.get scope "client_id") (Dict.get scope "project_id")
      = .ok true := by
    rw [eventInScope, Event.get_client, ok_bind, hclient, Val.pyEq_refl, Event.get_project, ok_bind,
      hproject, Val.pyEq_refl]
    rfl
  rw [EventClean, touchesOutside_eq_false htouched, and_iff_left hscope]
  rfl

end LoopEvent

/-! ### The entries of the tasks -/

omit [PyRuntime] in
lemma TaskBlock.blockers_of_completes {block : TaskBlock} (h : block.completes = true)
    (taskId : String) : block.blockers taskId = [] := by
  cases block with
  | succeeded _ _ _ _ => rfl
  | _ => cases h

omit [PyRuntime] in
/-- A completed task is proven when its executor carried evidence. -/
lemma TaskBlock.taskClean_iff {block : TaskBlock} (hdone : block.completes = true) {e : TaskEntry}
    (hresult : e.acceptance.result = .none) (evidence : List Dict) :
    TaskClean evidence (block.entry e) ↔ block.evidenced = true := by
  cases block with
  | unmet _ => cases hdone
  | failed _ _ _ _ _ => cases hdone
  | succeeded startedAt edits found completedAt =>
      cases found with
      | none =>
          refine ⟨fun h => ?_, fun h => absurd h (by simp [TaskBlock.evidenced])⟩
          have hpass : e.acceptance.result = .pass := (h.proven rfl).2
          rw [hresult] at hpass
          cases hpass
      | some found =>
          refine ⟨fun _ => rfl, fun _ => ⟨fun _ => ⟨?_, rfl⟩, fun h => ?_⟩⟩
          · have hrefs : (completeEntry (some found.1) e).toVal.get "evidence_refs"
                = .ok (strList (e.evidenceRefs ++ [found.1])) := rfl
            have htruthy : (strList (e.evidenceRefs ++ [found.1])).truthy = true := by
              simp [strList, Val.truthy]
            rw [TaskBlock.entry, hasEvidence, Option.map_some, hrefs, ok_bind, htruthy]
            rfl
          · exact absurd h (by simp [TaskBlock.entry, completeEntry])

/-! ### The handover -/

variable {W : Type} {h : Host W} {cfg : RunConfig}

/-- Every task of a run is completed, its executor carried evidence, and every edited path is inside
the roots. -/
structure HandedOver (scope : Dict) (L : Ledger) (order : List String)
    (blocks : List (String × TaskBlock)) : Prop where
  completed : ∀ e ∈ L.taskLedger, e.status = .completed
  evidenced : ∀ t ∈ order, ∃ block, (t, block) ∈ blocks ∧ block.evidenced = true
  inside : ∀ e ∈ L.executionLog, e.kind = .fileEdited → ∀ p ∈ e.paths, InRoots scope p

section Final

variable {m : Manifest} {final L L' : Ledger} {order : List String}
  {blocks : List (String × TaskBlock)} {state : RunState} {fx : List Effect}
  (hw : RunWrites h cfg m final order blocks L L' state fx)
include hw

lemma RunWrites.chained : Chained final.executionLog := by
  have hlog : final.executionLog = L'.executionLog := by
    rw [hw.settled]
    rfl
  rw [hlog]
  refine hw.loop.appends.extends.chained ?_
  rw [(startLedger_new hw.start).log]
  trivial

/-- What the gate has checked of a run that is all completed. -/
lemma RunWrites.handedOver (hids : StringIds m.taskGraph) (hclean : GateClean final)
    (hall : ∀ e ∈ final.taskLedger, e.status = .completed) :
    HandedOver m.isolationScope final order blocks := by
  refine ⟨hall, fun t ht => ?_, fun e he _ => ?_⟩
  · obtain ⟨b, hb, rfl⟩ := List.mem_map.mp (hw.covers hids hall t ht)
    obtain ⟨x, hx, hfinal⟩ := hw.entry_of_block hids hb
    have hproven := hclean.tasks _ hfinal
    rw [TaskBlock.taskClean_iff (hw.completes hids hall b hb)
      (startLedger_unproven hw.start x hx)] at hproven
    exact ⟨b.2, hb, hproven⟩
  · obtain ⟨b, -, kind, atTime, paths, hbody, -⟩ := hw.event he
    have hevent := hclean.events e he
    rwa [hw.isolationScope, eventClean_loopEvent hbody] at hevent

/-- A run that is all completed has no blocker. -/
lemma RunWrites.unblocked (hids : StringIds m.taskGraph)
    (hall : ∀ e ∈ final.taskLedger, e.status = .completed) : final.blockers = [] := by
  have hnone : blocks.flatMap (fun b => b.2.blockers b.1) = [] :=
    List.flatMap_eq_nil_iff.mpr fun b hb =>
      TaskBlock.blockers_of_completes (hw.completes hids hall b hb) b.1
  have h1 := hw.blockers
  rw [hnone] at h1
  exact List.map_eq_nil_iff.mp h1

/-- A run that can be handed over is clean. -/
lemma RunWrites.gateClean (hids : StringIds m.taskGraph)
    (hdone : HandedOver m.isolationScope final order blocks) : GateClean final := by
  have hcompletes := hw.completes hids hdone.completed
  refine ⟨?_, fun e he => ?_, ?_, fun e he => ?_, hw.chained, fun hrequired => ?_⟩
  · rw [hw.isolationScope]
    exact scopeOk_of_accepted (startLedger_accepted hw.start)
  · obtain ⟨b, hb, x, rfl, hx⟩ := hw.block_of_entry he (hdone.completed e he)
    obtain ⟨block, hblock, hevidenced⟩ :=
      hdone.evidenced b.1 (hw.part.subset (List.mem_map_of_mem hb))
    have hsame : b = (b.1, block) := List.inj_on_of_nodup_map hw.nodup hb hblock rfl
    refine (TaskBlock.taskClean_iff (hcompletes b hb) hx _).mpr ?_
    rwa [hsame]
  · simp [hw.unblocked hids hdone.completed]
  · obtain ⟨b, hb, kind, atTime, paths, hbody, -, hpaths⟩ := hw.event he
    rw [hw.isolationScope, eventClean_loopEvent hbody]
    rcases hpaths (hcompletes b hb) with rfl | rfl
    · exact hdone.inside e he (congrArg EventBody.kind hbody)
    · rw [paths_loopEvent hbody]
      simp
  · rw [hw.requiresLanding] at hrequired
    cases hrequired

/-- A run that is all completed is allowed to complete. -/
lemma RunWrites.allowed (hids : StringIds m.taskGraph)
    (hall : ∀ e ∈ final.taskLedger, e.status = .completed) :
    final.reconciliation.allowed = true := by
  have hnone := hw.unblocked hids hall
  have htasks := hw.taskLedger
  have hsettled := hw.settled
  rw [hsettled] at hnone ⊢
  refine (reconcile_allowed _).mpr ⟨fun e he => ?_, hnone⟩
  have hst := hall e (htasks ▸ he)
  rw [hst]
  simp

end Final

/-- **The handover of a run is exact.**  With the default gate, the receipt of a run that returned
says completed exactly when every task is completed, every task carried evidence and every edited
path is inside the roots; otherwise it says aborted. -/
theorem handover_exact {m : Manifest} {w w' : W} {res : RunResult} {fx : List Effect}
    (hids : StringIds m.taskGraph) (hgate : cfg.gate = defaultGate)
    (hrun : run h cfg m w = (.ok res, w', fx)) :
    ∃ order blocks, topoOrder m.taskGraph = .ok order ∧ blocks.map Prod.fst <+: order
      ∧ Along (BlockFits h cfg m.taskGraph m.isolationScope) [] blocks
      ∧ res.ledger.bodies = blocks.flatMap (fun b => b.2.events m.isolationScope b.1)
      ∧ res.ledger.executionEvidence = blocks.flatMap (fun b => b.2.evidence b.1)
      ∧ (∀ clock, Returns (buildHandoverReceipt res.ledger.toDoc res.gateResult none clock))
      ∧ ∀ audit clock r, buildHandoverReceipt res.ledger.toDoc res.gateResult audit clock = .ok r →
        (r.status = .completed ↔ HandedOver m.isolationScope res.ledger order blocks)
        ∧ (r.status = .aborted ↔ ¬ HandedOver m.isolationScope res.ledger order blocks) := by
  obtain ⟨order, blocks, L, L', state, hw⟩ := run_blocks hids hrun
  have hgated : runGate res.ledger.toDoc defaultGate = .ok res.gateResult := hgate ▸ run_gated hrun
  have hreached : Reached (fun _ => True) OverrideSpares res.ledger := .run trivial hrun
  have hallowed : AllowedDone res.ledger := (hreached.invariant allowed_history).2
  refine ⟨order, blocks, hw.ordered, hw.part, hw.fits, hw.bodies, hw.evidence,
    fun clock => receipt_returns hw.vcs _ clock, fun audit clock r hr => ?_⟩
  suffices hiff : r.status = .completed ↔ HandedOver m.isolationScope res.ledger order blocks by
    refine ⟨hiff, ?_⟩
    rw [← hiff]
    cases r.status <;> simp
  rw [receipt_toDoc hr, defaultGate_passed_iff hgated]
  constructor
  · rintro ⟨hclean, hyes, -⟩
    exact hw.handedOver hids hclean (hallowed hyes).1
  · intro hdone
    refine ⟨hw.gateClean hids hdone, hw.allowed hids hdone.completed, fun e he => ?_⟩
    rw [hdone.completed e he]
    simp

end Runtime

section Example

attribute [local instance] cpython

/-- A run of two tasks that both succeed. -/
theorem handover_exact_pair :
    ∃ (res : RunResult) (w : MockWorld) (fx : List Effect) (order : List String)
      (blocks : List (String × TaskBlock)),
      run (steadyHost []) scriptConfig (scriptManifest [("T1", []), ("T2", ["T1"])]) (.fresh [])
        = (.ok res, w, fx)
      ∧ ∀ audit clock r, buildHandoverReceipt res.ledger.toDoc res.gateResult audit clock = .ok r →
        (r.status = .completed ↔ HandedOver
          (scriptManifest [("T1", []), ("T2", ["T1"])]).isolationScope res.ledger order
            blocks) := by
  have hends : runEnds (steadyHost []) scriptConfig (scriptManifest [("T1", []), ("T2", ["T1"])])
      (.fresh []) = true := by
    decide +kernel
  obtain ⟨res, w, fx, hrun⟩ := run_of_runEnds (scriptManifest_roots _) hends
  obtain ⟨order, blocks, -, -, -, -, -, -, hexact⟩ :=
    handover_exact (scriptManifest_stringIds _) rfl hrun
  exact ⟨res, w, fx, order, blocks, hrun, fun audit clock r hr => (hexact audit clock r hr).1⟩

end Example

end IplanRunner
