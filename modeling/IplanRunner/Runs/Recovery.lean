import IplanRunner.Runs.Blockers
import IplanRunner.Runs.Ended
import IplanRunner.Runs.Fixpoint

/-!
Whether a ledger can be brought to its end: every open blocker is overridden, then a resume runs on
with an executor that succeeds on every task.

* `Consistent`: the invariant of the histories of one manifest that relates statuses, committed keys
  and dependencies.
* `Overridden`: operator overrides, one after the other.
* `recovers_iff`: the ledgers that can be completed; `not_recovered`: a history that reaches
  another.
-/

namespace IplanRunner

open Foundation

section Runtime

variable [PyRuntime]

/-! ### Histories of one manifest -/

/-- What relates statuses, committed keys and dependencies in the histories of one graph. -/
structure Consistent (graph : List TaskNode) (L : Ledger) : Prop where
  noExpiry : NoExpiry L
  names : L.taskLedger.map (·.taskId) = graph.map (·.taskId)
  /-- A completed task is committed. -/
  done : ∀ t, L.Done t → L.Committed t
  /-- What a committed task depends on is committed. -/
  deps : ∀ t, L.Committed t → ∀ d ∈ nodeDeps graph t, L.Committed d
  /-- A committed task is blocked only by a committed dependency that has been reset. -/
  blocked : ∀ t, L.Committed t → L.status? t = some .blocked →
    ∃ d ∈ nodeDeps graph t, L.Committed d ∧ ¬ L.Done d

lemma consistent_history (m : Manifest) :
    HistoryInvariant (· = m) (fun _ _ => True) (Consistent m.taskGraph) where
  start := by
    rintro m L rfl hstart
    obtain ⟨hj, -, hl, -⟩ := startLedger_empty hstart
    have hnot : ∀ t, ¬ L.Committed t := by
      intro t
      simp [Ledger.Committed, alreadyCommitted, hj]
    have hnone : ∀ t, ¬ L.Done t := fun t hd => by simpa using (exact_start hstart t).mpr hd
    exact ⟨by simp [NoExpiry, hl], (startLedger_entries hstart).2, fun t hd => absurd hd (hnone t),
      fun t hc => absurd hc (hnot t), fun t hc => absurd hc (hnot t)⟩
  turn := by
    rintro W h cfg m node taskId completed L r δ fx rfl hnode hsome hdone hex hturn hL
    have hmono : ∀ t, L.Committed t → (L.apply taskId δ).Committed t :=
      fun t hc => (hturn.committed_apply t).mpr (Or.inl hc)
    have hold : ∀ t, t ≠ taskId → (L.apply taskId δ).Committed t → L.Committed t := by
      intro t ht hc
      rcases (hturn.committed_apply t).mp hc with h1 | ⟨h1, -⟩
      · exact h1
      · exact absurd h1 ht
    have hmet : DepsMet node completed → ∀ d ∈ nodeDeps m.taskGraph taskId, L.Committed d := by
      intro hmet d hd
      exact hL.done d ((hex d).mp ((depsMet_iff hnode completed).mp hmet d hd))
    have hundone : ∀ d, L.Committed d → ¬ L.Done d → ¬ (L.apply taskId δ).Done d := by
      intro d hc hd hafter
      by_cases hid : d = taskId
      · subst hid
        exact (hturn.done_self hL.noExpiry hd hafter).2.1 hc
      · exact hd ((hturn.done_of_ne hid).mp hafter)
    refine ⟨hturn.noExpiry hL.noExpiry, ?_, fun t hd => ?_, fun t hc d hd => ?_, fun t hc hst => ?_⟩
    · exact hturn.taskIds.trans hL.names
    · by_cases ht : t = taskId
      · subst ht
        exact (hturn.done_self hL.noExpiry hdone hd).2.2.2
      · exact hmono t (hL.done t ((hturn.done_of_ne ht).mp hd))
    · by_cases hcold : L.Committed t
      · exact hmono d (hL.deps t hcold d hd)
      · obtain rfl : t = taskId := by
          by_contra ht
          exact hcold (hold t ht hc)
        exact hmono d (hmet (hturn.commits_self hL.noExpiry hsome hcold hc).1 d hd)
    · by_cases ht : t = taskId
      · subst ht
        rcases hturn.blocks_committed hL.noExpiry hc hst with ⟨hcold, hstold⟩ | ⟨hcold, hunmet⟩
        · obtain ⟨d, hd, hdc, hdn⟩ := hL.blocked t hcold hstold
          exact ⟨d, hd, hmono d hdc, hundone d hdc hdn⟩
        · rw [depsMet_iff hnode] at hunmet
          push Not at hunmet
          obtain ⟨d, hd, hdn⟩ := hunmet
          have hdc := hL.deps t hcold d hd
          exact ⟨d, hd, hmono d hdc, hundone d hdc fun h => hdn ((hex d).mpr h)⟩
      · rw [hturn.status?_apply, if_neg ht] at hst
        obtain ⟨d, hd, hdc, hdn⟩ := hL.blocked t (hold t ht hc) hst
        exact ⟨d, hd, hmono d hdc, hundone d hdc hdn⟩
  state := fun _ hL => ⟨hL.noExpiry, hL.names, hL.done, hL.deps, hL.blocked⟩
  reconcile := fun hL => ⟨hL.noExpiry, hL.names, hL.done, hL.deps, hL.blocked⟩
  override := by
    intro L blockerId b _ _ hL
    have hundone : ∀ t, (L.override b).Done t → L.Done t := by
      intro t hd
      rw [Ledger.done_iff, Ledger.status?_override] at hd
      obtain ⟨st, hst, hif⟩ := Option.map_eq_some_iff.mp hd
      rw [Ledger.done_iff, hst]
      split at hif
      · exact absurd hif (by simp)
      · rw [hif]
    refine ⟨hL.noExpiry, ?_, fun t hd => hL.done t (hundone t hd), hL.deps, fun t hc hst => ?_⟩
    · exact (override_taskIds L b).trans hL.names
    · rw [Ledger.status?_override] at hst
      obtain ⟨st, hold, hif⟩ := Option.map_eq_some_iff.mp hst
      split at hif
      · exact absurd hif (by simp)
      · rw [hif] at hold
        obtain ⟨d, hd, hdc, hdn⟩ := hL.blocked t hc hold
        exact ⟨d, hd, hdc, fun hd => hdn (hundone d hd)⟩
  record := fun _ _ hL => ⟨hL.noExpiry, hL.names, hL.done, hL.deps, hL.blocked⟩

/-- The ledger knows every task of the graph. -/
lemma Consistent.known {graph : List TaskNode} {L : Ledger} (hL : Consistent graph L)
    (hids : StringIds graph) {t : String} (ht : t ∈ nodeIds graph) : (L.task? t).isSome := by
  obtain ⟨node, hnode, rfl⟩ := (mem_nodeIds _ _).mp ht
  obtain ⟨s, hs⟩ := hids node hnode
  have hmem : (.str s : Val) ∈ L.taskLedger.map (·.taskId) := by
    rw [hL.names]
    exact List.mem_map.mpr ⟨node, hnode, hs⟩
  obtain ⟨e, he, hes⟩ := List.mem_map.mp hmem
  rw [hs, Val.pyStr_str, Ledger.task?, List.find?_isSome]
  exact ⟨e, he, by simp [TaskEntry.named, hes]⟩

/-- With distinct ids, every entry is the one `task` finds. -/
lemma Consistent.entry {graph : List TaskNode} {L : Ledger} (hL : Consistent graph L)
    (hids : StringIds graph) (hnodup : (graph.map (·.taskId)).Nodup) {e : TaskEntry}
    (he : e ∈ L.taskLedger) : ∃ t ∈ nodeIds graph, L.task? t = some e := by
  have hmem : e.taskId ∈ graph.map (·.taskId) := by
    rw [← hL.names]
    exact List.mem_map.mpr ⟨e, he, rfl⟩
  obtain ⟨node, hnode, hid⟩ := List.mem_map.mp hmem
  obtain ⟨s, hs⟩ := hids node hnode
  have hes : e.taskId = .str s := by rw [← hid, hs]
  refine ⟨s, (mem_nodeIds _ _).mpr ⟨node, hnode, by rw [hs, Val.pyStr_str]⟩, ?_⟩
  have hsome : (L.task? s).isSome := by
    rw [Ledger.task?, List.find?_isSome]
    exact ⟨e, he, by simp [TaskEntry.named, hes]⟩
  obtain ⟨e', he'⟩ := Option.isSome_iff_exists.mp hsome
  have hes' : e'.taskId = .str s := by simpa [TaskEntry.named] using List.find?_some he'
  rw [he', List.inj_on_of_nodup_map (hL.names ▸ hnodup) (List.mem_of_find?_eq_some he') he
    (by rw [hes, hes'])]

/-! ### The loop -/

section Loop

variable {W : Type} {h : Host W} {cfg : RunConfig} {graph : List TaskNode} {order : List String}

/-- Blockers only accumulate in a loop, keys only get committed, and completed tasks stay so. -/
lemma LoopRun.mono {rest completed : List String} {L L' : Ledger} {r : Except PyErr RunState}
    {fx : List Effect} (hrun : LoopRun h cfg graph rest completed L r L' fx) :
    (∀ b ∈ L.blockers, b ∈ L'.blockers) ∧ (∀ t, L.Committed t → L'.Committed t)
      ∧ ∀ t, L.Done t → L'.Done t := by
  have hstep : ∀ {taskId node completed L r δ fx}, Turn h cfg node taskId completed L r δ fx →
      ¬ L.Done taskId → (∀ b ∈ L.blockers, b ∈ (L.apply taskId δ).blockers)
        ∧ (∀ t, L.Committed t → (L.apply taskId δ).Committed t)
        ∧ ∀ t, L.Done t → (L.apply taskId δ).Done t := by
    intro taskId node completed L r δ fx hturn hdone
    refine ⟨fun b hb => List.mem_append_left _ hb,
      fun t hc => (hturn.committed_apply t).mpr (Or.inl hc), fun t hd => ?_⟩
    have hne : t ≠ taskId := fun hcon => hdone (hcon ▸ hd)
    exact (hturn.done_of_ne hne).mpr hd
  induction hrun with
  | finished => exact ⟨fun _ => id, fun _ => id, fun _ => id⟩
  | unknown _ => exact ⟨fun _ => id, fun _ => id, fun _ => id⟩
  | skip _ _ ih => exact ih
  | paused _ _ _ => exact ⟨fun _ => id, fun _ => id, fun _ => id⟩
  | aborted _ _ _ => exact ⟨fun _ => id, fun _ => id, fun _ => id⟩
  | noNode _ _ _ => exact ⟨fun _ => id, fun _ => id, fun _ => id⟩
  | raised _ hdone _ hturn => exact hstep hturn hdone
  | turned _ hdone _ hturn _ ih =>
      obtain ⟨h1, h2, h3⟩ := hstep hturn hdone
      exact ⟨fun b hb => ih.1 b (h1 b hb), fun t hc => ih.2.1 t (h2 t hc),
        fun t hd => ih.2.2 t (h3 t hd)⟩

/-- A loop completes only tasks whose key was not committed and whose leases were released. -/
lemma LoopRun.completes {rest completed : List String} {L L' : Ledger} {r : Except PyErr RunState}
    {fx : List Effect} (hrun : LoopRun h cfg graph rest completed L r L' fx) (hL : NoExpiry L)
    {t : String} (hbefore : ¬ L.Done t) (hafter : L'.Done t) :
    ¬ L.Committed t ∧ L.LeaseFree t := by
  have hstep : ∀ {taskId node completed L r δ fx}, Turn h cfg node taskId completed L r δ fx →
      NoExpiry L → ¬ L.Done taskId → ¬ L.Done t → (L.apply taskId δ).Done t →
      ¬ L.Committed t ∧ L.LeaseFree t := by
    intro taskId node completed L r δ fx hturn hL hdone hn hd
    obtain rfl : t = taskId := by
      by_contra hne
      exact hn ((hturn.done_of_ne hne).mp hd)
    obtain ⟨-, hc, hfree, -⟩ := hturn.done_self hL hdone hd
    exact ⟨hc, hfree⟩
  induction hrun with
  | finished => exact absurd hafter hbefore
  | unknown _ => exact absurd hafter hbefore
  | skip _ _ ih => exact ih hL hbefore hafter
  | paused _ _ _ => exact absurd hafter hbefore
  | aborted _ _ _ => exact absurd hafter hbefore
  | noNode _ _ _ => exact absurd hafter hbefore
  | raised _ hdone _ hturn => exact hstep hturn hL hdone hbefore hafter
  | @turned taskId _ _ L _ _ δ _ _ _ _ hdone _ hturn _ ih =>
      by_cases hmid : (L.apply taskId δ).Done t
      · exact hstep hturn hL hdone hbefore hmid
      · obtain ⟨hc, hfree⟩ := ih (hturn.noExpiry hL) hmid hafter
        exact ⟨fun h => hc ((hturn.committed_apply t).mpr (Or.inl h)),
          fun l hl => hfree l (List.mem_append_left _ hl)⟩

/-- A loop control never stops leaves every task of its order completed, committed or behind a
blocker, when it returns. -/
lemma LoopRun.settles {rest completed : List String} {L L' : Ledger} {r : Except PyErr RunState}
    {fx : List Effect} (hrun : LoopRun h cfg graph rest completed L r L' fx) (hL : NoExpiry L)
    (hrunning : AlwaysRunning h) (hr : ∃ state, r = .ok state) :
    ∀ t ∈ rest, L'.Done t ∨ L'.Committed t ∨ L'.blockers ≠ [] := by
  have hstopped : ∀ {answer : ControlAnswer}, Answers h answer → answer = .running := by
    rintro _ ⟨w, rfl⟩
    exact hrunning w
  induction hrun with
  | finished => simp
  | unknown _ => simp at hr
  | skip hdone hrest ih =>
      intro t ht
      rcases List.mem_cons.mp ht with rfl | ht
      · exact Or.inl (hrest.mono.2.2 t hdone)
      · exact ih hL hr t ht
  | paused _ _ ha => exact absurd (hstopped ha) (by simp)
  | aborted _ _ ha => exact absurd (hstopped ha) (by simp)
  | noNode _ _ _ => simp at hr
  | raised _ _ _ _ => simp at hr
  | @turned taskId _ _ L L' _ δ _ _ _ hsome hdone _ hturn hrest ih =>
      intro t ht
      rcases List.mem_cons.mp ht with rfl | ht
      · cases hturn.ended hL with
        | stayed _ hc _ _ =>
            exact Or.inr (Or.inl (hrest.mono.2.1 t ((hturn.committed_apply t).mpr (Or.inl hc))))
        | blocked _ _ _ hb _ =>
            obtain ⟨b, hb⟩ := List.exists_mem_of_ne_nil _ hb
            have hb' := hrest.mono.1 b (List.mem_append_right _ hb)
            exact Or.inr (Or.inr (List.ne_nil_of_mem hb'))
        | crashed _ hr _ _ => simp at hr
        | completed _ _ _ _ hs _ _ =>
            have hd := (Ledger.done_iff _ _).mpr (hturn.status?_self hsome hs)
            exact Or.inl (hrest.mono.2.2 t hd)
      · exact ih (hturn.noExpiry hL) hr t ht

/-! ### An executor that succeeds -/

variable (h) in
/-- The executor succeeds on every task. -/
def Succeeding : Prop :=
  ∀ node scope w, ∃ result, (h.execute node scope w).1 = .ok result ∧ result.outcome = .success

lemma Succeeding.final (hs : Succeeding h) {node : TaskNode} {scope : Dict}
    {result : ExecutorResult} (hfinal : Final h cfg node scope result) :
    result.outcome = .success := by
  obtain ⟨w, hw⟩ := hfinal.executed
  obtain ⟨result', hresult, hout⟩ := hs node scope w
  rw [hw] at hresult
  cases hresult
  exact hout

lemma Succeeding.not_mayRaise (hs : Succeeding h) {node : TaskNode} {scope : Dict} :
    ¬ MayRaise h cfg node scope := by
  rintro (⟨e, s, s', hrun⟩ | ⟨result, _, _, _, hfinal, hout, -⟩)
  · have hok : ∀ w, ∃ result, (h.execute node scope w).1 = .ok result := fun w =>
      (hs node scope w).imp fun _ => And.left
    obtain ⟨a, s'', hrun'⟩ := executeWithRetry_returns h cfg hok cfg.maxRetries 1 s
    rw [hrun] at hrun'
    exact absurd (congrArg Prod.fst hrun') (by simp)
  · exact hout (hs.final hfinal)

/-- With such an executor, a turn of a task nothing stands in the way of completes it. -/
lemma Turn.succeeds (hs : Succeeding h) {node : TaskNode} {taskId : String}
    {completed : List String} {L : Ledger} {r : Except PyErr Unit} {δ : Delta} {fx : List Effect}
    (hturn : Turn h cfg node taskId completed L r δ fx) (hL : NoExpiry L)
    (hmet : DepsMet node completed) (hc : ¬ L.Committed taskId) (hfree : L.LeaseFree taskId) :
    r = .ok () ∧ (∀ e, (δ.entry e).status = .completed) ∧ δ.blockers = [] := by
  cases hturn with
  | unmet hunmet => exact absurd hmet hunmet
  | ran _ hrun =>
      cases hrun with
      | committed hcom => exact absurd hcom hc
      | conflict _ hl =>
          rw [(canAcquire_iff hL _ _).mpr hfree] at hl
          exact absurd hl (by simp)
      | crashed _ _ _ hraise => exact absurd hraise hs.not_mayRaise
      | succeeded _ _ _ _ _ _ _ => exact ⟨rfl, fun _ => rfl, rfl⟩
      | failed _ _ _ hfinal hout => exact absurd (hs.final hfinal) hout

/-- Nothing but its dependencies stands between the task and its completion. -/
def Ledger.Open (L : Ledger) (taskId : String) : Prop := ¬ L.Committed taskId ∧ L.LeaseFree taskId

/-- **A loop over open and completed tasks completes them all**, and leaves no blocker. -/
lemma LoopRun.succeeds (hs : Succeeding h) (hrunning : AlwaysRunning h) (hstr : StringDeps graph)
    (horder : topoOrder graph = .ok order) (hground : ∀ t ∈ nodeIds graph, Grounded graph t)
    {rest completed : List String} {L L' : Ledger} {r : Except PyErr RunState} {fx : List Effect}
    (hrun : LoopRun h cfg graph rest completed L r L' fx) {pre : List String}
    (hsplit : order = pre ++ rest) (hL : NoExpiry L) (hblockers : L.blockers = [])
    (hpre : ∀ t ∈ pre, t ∈ completed ∧ L.Done t)
    (hrest : ∀ t ∈ rest, (L.task? t).isSome ∧ (L.Done t ∨ L.Open t)) :
    (∃ state, r = .ok state) ∧ (∀ t ∈ order, L'.Done t) ∧ L'.blockers = [] := by
  have hperm := topoOrder_perm horder
  have hnodup : order.Nodup := hperm.nodup_iff.mpr (nodup_nodeIds graph)
  have hstopped : ∀ {answer : ControlAnswer}, Answers h answer → answer = .running := by
    rintro _ ⟨w, rfl⟩
    exact hrunning w
  have hready : ∀ {pre rest completed : List String} {taskId : String} {node : TaskNode}
      {L : Ledger}, order = pre ++ taskId :: rest → lastNode graph taskId = some node →
      (∀ t ∈ pre, t ∈ completed ∧ L.Done t) → DepsMet node completed := by
    intro pre rest completed taskId node L hsplit hn hpre
    rw [depsMet_iff hn]
    have hmem : taskId ∈ nodeIds graph := hperm.mem_iff.mp (by rw [hsplit]; simp)
    exact fun d hd => (hpre d (topoOrder_deps_before hstr horder hsplit (hground _ hmem) d hd)).1
  induction hrun generalizing pre with
  | finished =>
      rw [List.append_nil] at hsplit
      exact ⟨⟨_, rfl⟩, fun t ht => (hpre t (hsplit ▸ ht)).2, hblockers⟩
  | unknown hnone =>
      have hsome := (hrest _ (List.mem_cons_self ..)).1
      rw [hnone] at hsome
      exact absurd hsome (by simp)
  | @skip taskId rest completed L _ _ _ hdone _ ih =>
      refine @ih (pre ++ [taskId]) (by rw [hsplit]; simp) hL hblockers (fun t ht => ?_)
        fun t ht => hrest t (List.mem_cons_of_mem _ ht)
      rcases List.mem_append.mp ht with h1 | h1
      · exact ⟨List.mem_cons_of_mem _ (hpre t h1).1, (hpre t h1).2⟩
      · obtain rfl := List.mem_singleton.mp h1
        exact ⟨List.mem_cons_self .., hdone⟩
  | paused _ _ ha => exact absurd (hstopped ha) (by simp)
  | aborted _ _ ha => exact absurd (hstopped ha) (by simp)
  | @noNode taskId _ _ _ _ _ hn =>
      have hmem : taskId ∈ nodeIds graph := hperm.mem_iff.mp (by rw [hsplit]; simp)
      rw [← lastNode_isSome, hn] at hmem
      exact absurd hmem (by simp)
  | @raised taskId _ completed L node _ _ _ hsome hdone hn hturn =>
      have hmet := hready hsplit hn hpre
      obtain ⟨hc, hfree⟩ := (hrest taskId (by simp)).2.resolve_left hdone
      exact absurd (hturn.succeeds hs hL hmet hc hfree).1 (by simp)
  | @turned taskId rest completed L L' node δ r fx gx hsome hdone hn hturn _ ih =>
      have hmet := hready hsplit hn hpre
      obtain ⟨hc, hfree⟩ := (hrest taskId (by simp)).2.resolve_left hdone
      obtain ⟨-, hst, hb⟩ := hturn.succeeds hs hL hmet hc hfree
      have hd : (L.apply taskId δ).Done taskId :=
        (Ledger.done_iff _ _).mpr (hturn.status?_self hsome hst)
      have hsub : ∀ t ∈ completed, t ∈ addDone (L.apply taskId δ) taskId completed := by
        intro t ht
        rw [addDone, if_pos hd]
        exact List.mem_cons_of_mem _ ht
      refine @ih (pre ++ [taskId]) (by rw [hsplit]; simp) (hturn.noExpiry hL)
        (by rw [Ledger.apply_blockers, hblockers, hb]; rfl) (fun t ht => ?_) fun t ht => ?_
      · rcases List.mem_append.mp ht with h1 | h1
        · have hne : t ≠ taskId := fun hcon => hdone (hcon ▸ (hpre t h1).2)
          exact ⟨hsub t (hpre t h1).1, (hturn.done_of_ne hne).mpr (hpre t h1).2⟩
        · obtain rfl := List.mem_singleton.mp h1
          exact ⟨by rw [addDone, if_pos hd]; exact List.mem_cons_self .., hd⟩
      · have hne : t ≠ taskId := by
          rintro rfl
          rw [hsplit] at hnodup
          exact (List.nodup_cons.mp (List.nodup_append.mp hnodup).2.1).1 ht
        obtain ⟨h1, h2⟩ := hrest t (List.mem_cons_of_mem _ ht)
        refine ⟨by rwa [L.task?_apply_of_ne δ hturn.entry_taskId hne], ?_⟩
        rcases h2 with h2 | ⟨hc', hfree'⟩
        · exact Or.inl ((hturn.done_of_ne hne).mpr h2)
        · refine Or.inr ⟨fun hcom => ?_, fun l hl hlt => ?_⟩
          · rcases (hturn.committed_apply t).mp hcom with h3 | ⟨h3, -⟩
            · exact hc' h3
            · exact hne h3
          · rcases List.mem_append.mp hl with h3 | h3
            · exact hfree' l h3 hlt
            · exact absurd (hlt.symm.trans (hturn.own.1 l h3).1) hne

end Loop

/-! ### Overrides -/

/-- An operator overrides blockers, one after the other. -/
inductive Overridden : Ledger → Ledger → Prop
  | refl (L : Ledger) : Overridden L L
  | step {L L' L₁ : Ledger} {blockerId atTime : String} {actor : Actor} :
      resolveBlocker L blockerId "override" actor atTime = .ok L' → Overridden L' L₁ →
      Overridden L L₁

/-- The override of some open blocker resets the task: it is the one its first blocker names. -/
def Ledger.Resets (L : Ledger) (taskId : String) : Prop :=
  ∃ b ∈ L.blockers, L.blocker? b.blockerId = some b ∧ b.taskId = taskId

omit [PyRuntime] in
/-- What is left to reset after an override. -/
lemma resets_override {L : Ledger} {blockerId : String} {b : Blocker}
    (hb : L.blocker? blockerId = some b) (t : String) :
    L.Resets t ↔ t = b.taskId ∨ (L.override b).Resets t := by
  have hid := blocker?_id hb
  have hfind : ∀ i, i ≠ b.blockerId → (L.override b).blocker? i = L.blocker? i := by
    intro i hi
    rw [Ledger.blocker?, Ledger.override, List.find?_filter, Ledger.blocker?]
    congr 1
    funext x
    by_cases hx : x.blockerId = i
    · simp [hx, hi]
    · simp [hx]
  constructor
  · rintro ⟨b', hb', hfirst, rfl⟩
    by_cases hi : b'.blockerId = b.blockerId
    · rw [hi, hid, hb] at hfirst
      exact Or.inl (by rw [Option.some.inj hfirst])
    · refine Or.inr ⟨b', List.mem_filter.mpr ⟨hb', by simpa using hi⟩, ?_, rfl⟩
      rw [hfind _ hi, hfirst]
  · rintro (rfl | ⟨b', hb', hfirst, rfl⟩)
    · exact ⟨b, List.mem_of_find?_eq_some hb, by rw [hid, hb], rfl⟩
    · obtain ⟨h1, h2⟩ := List.mem_filter.mp hb'
      have hi : b'.blockerId ≠ b.blockerId := by simpa using h2
      exact ⟨b', h1, by rw [← hfind _ hi, hfirst], rfl⟩

/-- What remains of a ledger when every open blocker has been overridden. -/
lemma Overridden.cleared {L L₁ : Ledger} (hover : Overridden L L₁) (hnone : L₁.blockers = []) :
    L₁.agentLeases = L.agentLeases ∧ L₁.sagaJournal = L.sagaJournal
      ∧ ∀ t, L₁.Done t ↔ L.Done t ∧ ¬ L.Resets t := by
  induction hover with
  | refl L => exact ⟨rfl, rfl, fun t => by simp [Ledger.Resets, hnone]⟩
  | @step L L' L₁ blockerId _ _ hres _ ih =>
      obtain ⟨h1, h2, h3⟩ := ih hnone
      obtain ⟨resolution, subject, ⟨rfl, -⟩ | ⟨-, b, hb, rfl⟩⟩ := resolveBlocker_cases hres
      · exact ⟨h1, h2, h3⟩
      · refine ⟨h1, h2, fun t => ?_⟩
        have hdone : ((L.override b).recordResolution resolution subject).Done t
            ↔ L.Done t ∧ t ≠ b.taskId := by
          show (L.override b).Done t ↔ _
          rw [Ledger.done_iff, Ledger.done_iff, Ledger.status?_override]
          cases L.status? t <;> by_cases ht : t = b.taskId <;> simp [ht]
        have hresets : ((L.override b).recordResolution resolution subject).Resets t
            ↔ (L.override b).Resets t := Iff.rfl
        rw [h3, hdone, hresets, resets_override hb t, not_or, and_assoc]

/-- Overrides reach further ledgers. -/
lemma Overridden.reached {manifests : Manifest → Prop} {L L₁ : Ledger} (hover : Overridden L L₁)
    (hL : Reached manifests (fun _ _ => True) L) : Reached manifests (fun _ _ => True) L₁ := by
  induction hover with
  | refl L => exact hL
  | step hres _ ih => exact ih (.resolve hL (fun _ => trivial) hres)

/-! ### Recovery -/

/-- What a ledger needs in order to be completed: a committed task is completed and no override
resets it, and any other task has no unreleased lease. -/
def Recoverable (graph : List TaskNode) (L : Ledger) : Prop :=
  ∀ t ∈ nodeIds graph, (L.Committed t → L.Done t ∧ ¬ L.Resets t)
    ∧ (¬ L.Committed t → L.LeaseFree t)

instance (graph : List TaskNode) (L : Ledger) : Decidable (Recoverable graph L) := by
  unfold Recoverable Ledger.Resets
  infer_instance

/-- Where reconciliation allows completion and every task is completed or committed, every task is
completed: nothing is left that a blocked committed task could wait for. -/
lemma Consistent.all_done {graph : List TaskNode} {L : Ledger} (hL : Consistent graph L)
    (hids : StringIds graph) (hground : ∀ t ∈ nodeIds graph, Grounded graph t)
    (hsettled : ∀ t ∈ nodeIds graph, L.Done t ∨ L.Committed t)
    (hstopped : ∀ e ∈ L.taskLedger, e.status ≠ .pending ∧ e.status ≠ .inProgress) :
    ∀ t ∈ nodeIds graph, L.Done t := by
  intro t ht
  induction hground t ht with
  | @intro t _ _ ih =>
      rcases hsettled t ht with hd | hc
      · exact hd
      obtain ⟨e, he⟩ := Option.isSome_iff_exists.mp (hL.known hids ht)
      obtain ⟨h1, h2⟩ := hstopped e (List.mem_of_find?_eq_some he)
      cases hst : e.status with
      | pending => exact absurd hst h1
      | inProgress => exact absurd hst h2
      | completed => exact ⟨e, he, hst⟩
      | blocked =>
          obtain ⟨d, hd, -, hdn⟩ :=
            hL.blocked t hc (by rw [Ledger.status?, he, Option.map_some, hst])
          exact absurd (ih d hd ((hground t ht).of_dep hd).holds) hdn

/-- **Recoverability, exactly.**  Take a ledger that a history of one manifest reaches, with
distinct string ids and acyclic dependencies.  After every open blocker has been overridden, a
resume that nothing stops, with an executor that succeeds on every task, allows completion if and
only if the ledger was recoverable. -/
theorem recovers_iff {m : Manifest} (hids : StringIds m.taskGraph)
    (hnodup : (m.taskGraph.map (·.taskId)).Nodup)
    (hacyclic : ∀ t, ¬ Relation.TransGen (fun t d => d ∈ nodeDeps m.taskGraph t) t t) {L : Ledger}
    (hL : Reached (· = m) (fun _ _ => True) L) {L₁ : Ledger} (hover : Overridden L L₁)
    (hnone : L₁.blockers = []) {W : Type} {h : Host W} (hs : Succeeding h)
    (hrunning : AlwaysRunning h) (cfg : RunConfig) (w : W) :
    (resume h cfg m ⟨L₁, w, []⟩).2.ledger.reconciliation.allowed = true
      ↔ Recoverable m.taskGraph L := by
  obtain ⟨hstr, hresolved⟩ := hL.accepted.deps hids
  have hground : ∀ t ∈ nodeIds m.taskGraph, Grounded m.taskGraph t := fun t ht =>
    (derivable_iff_not_overCycle hresolved.closed).mpr ⟨ht, fun ⟨c, _, hc⟩ => hacyclic c hc⟩
  have hL₁ := hover.reached hL
  have hcons : Consistent m.taskGraph L₁ := hL₁.invariant (consistent_history m)
  have hresumed : Reached (· = m) (fun _ _ => True) (resume h cfg m ⟨L₁, w, []⟩).2.ledger :=
    .resume rfl hL₁
  have hend := hresumed.invariant (consistent_history m)
  obtain ⟨hleases, hjournal, hdone₁⟩ := hover.cleared hnone
  have hcom₁ : ∀ t, L₁.Committed t ↔ L.Committed t := by
    intro t
    rw [Ledger.Committed, Ledger.Committed, alreadyCommitted, alreadyCommitted, hjournal]
  have hfree₁ : ∀ t, L₁.LeaseFree t ↔ L.LeaseFree t := by
    intro t
    rw [Ledger.LeaseFree, Ledger.LeaseFree, hleases]
  obtain ⟨r, state, L', fx, w', hdrive, hexec, -⟩ := resume_spec h cfg m ⟨L₁, w, []⟩
  rw [hexec] at hend ⊢
  have hknown : ∀ t ∈ nodeIds m.taskGraph,
      (L₁.task? t).isSome ∧ (lastNode m.taskGraph t).isSome := fun t ht =>
    ⟨hcons.known hids ht, (lastNode_isSome _ _).mpr ht⟩
  cases hdrive with
  | noOrder horder =>
      obtain ⟨order, hok⟩ := topoOrder_returns hstr
      rw [hok] at horder
      exact absurd horder (by simp)
  | raised horder hloop =>
      obtain ⟨state, hstate⟩ := hloop.returns (fun _ _ => hs.not_mayRaise) fun t ht =>
        hknown t ((topoOrder_perm horder).mem_iff.mp ht)
      exact absurd hstate (by simp)
  | @ended order state L₂ _ horder hloop =>
      have hperm := topoOrder_perm horder
      have hexp : NoExpiry (L₁.setRunState .running) := hcons.noExpiry
      rw [reconcile_allowed]
      constructor
      · rintro ⟨hstopped, hclear⟩ t ht
        have hall : ∀ t ∈ nodeIds m.taskGraph, L₂.Done t := by
          refine hend.all_done hids hground (fun t ht => ?_) hstopped
          rcases hloop.settles hexp hrunning ⟨_, rfl⟩ t (hperm.mem_iff.mpr ht) with h1 | h1 | h1
          · exact Or.inl h1
          · exact Or.inr h1
          · exact absurd hclear h1
        have hnew : ¬ L₁.Done t → ¬ L₁.Committed t ∧ L₁.LeaseFree t := fun hn =>
          hloop.completes hexp hn (hall t ht)
        refine ⟨fun hc => (hdone₁ t).mp ?_, fun hc => (hfree₁ t).mp (hnew fun hd => ?_).2⟩
        · by_contra hn
          exact (hnew hn).1 ((hcom₁ t).mpr hc)
        · exact hc ((hcom₁ t).mp (hcons.done t hd))
      · intro hrec
        obtain ⟨-, hall, hclear⟩ := hloop.succeeds hs hrunning hstr horder hground
          (show order = [] ++ order from rfl) hexp hnone (by simp) fun t ht => by
            have hmem := hperm.mem_iff.mp ht
            refine ⟨(hknown t hmem).1, ?_⟩
            by_cases hc : L.Committed t
            · exact Or.inl ((hdone₁ t).mpr ((hrec t hmem).1 hc))
            · exact Or.inr ⟨fun h => hc ((hcom₁ t).mp h), (hfree₁ t).mpr ((hrec t hmem).2 hc)⟩
        refine ⟨fun e he => ?_, hclear⟩
        obtain ⟨t, ht, het⟩ := hend.entry hids hnodup he
        obtain ⟨e', he', hst⟩ := hall t (hperm.mem_iff.mpr ht)
        obtain rfl : e = e' := Option.some.inj (het.symm.trans he')
        simp [hst]

/-- A scripted operator overrides the blockers with the ids, in turn. -/
def overrideAll : Ledger → List String → Option Ledger
  | L, [] => some L
  | L, blockerId :: rest =>
      match resolveBlocker L blockerId "override" scriptOperator scriptNow with
      | .error _ => none
      | .ok L' => overrideAll L' rest

lemma overrideAll_overridden {L L₁ : Ledger} {blockerIds : List String}
    (h : overrideAll L blockerIds = some L₁) : Overridden L L₁ := by
  induction blockerIds generalizing L with
  | nil =>
      obtain rfl : L = L₁ := by simpa [overrideAll] using h
      exact .refl L
  | cons blockerId rest ih =>
      rw [overrideAll] at h
      split at h
      · exact absurd h (by simp)
      · rename_i L' hres
        exact .step hres (ih h)

end Runtime

section Example

attribute [local instance] cpython

/-- The tasks `T1` and `T2` of which the second depends on the first. -/
def pairManifest : Manifest := scriptManifest [("T1", []), ("T2", ["T1"])]

lemma pairManifest_acyclic (t : String) :
    ¬ Relation.TransGen (fun t d => d ∈ nodeDeps pairManifest.taskGraph t) t t := by
  have hdep : ∀ t d, d ∈ nodeDeps pairManifest.taskGraph t → t = "T2" ∧ d = "T1" := by
    intro t d hd
    by_cases h2 : t = "T2"
    · subst h2
      have hdeps : nodeDeps pairManifest.taskGraph "T2" = ["T1"] := by decide
      rw [hdeps] at hd
      exact ⟨rfl, List.mem_singleton.mp hd⟩
    · by_cases h1 : t = "T1"
      · subst h1
        have hdeps : nodeDeps pairManifest.taskGraph "T1" = [] := by decide
        simp [hdeps] at hd
      · have hnone : lastNode pairManifest.taskGraph t = none := by
          simp [lastNode, pairManifest, scriptManifest, scriptNode, Ne.symm h1, Ne.symm h2]
        simp [nodeDeps, rawDeps, hnone] at hd
  intro hcycle
  obtain ⟨d, hd, hback⟩ := Relation.TransGen.head'_iff.mp hcycle
  obtain ⟨rfl, rfl⟩ := hdep t d hd
  rcases hback.cases_head with heq | ⟨d, hd, -⟩
  · exact absurd heq (by decide)
  · exact absurd (hdep _ _ hd).1 (by decide)

lemma steadyHost_succeeding : Succeeding (steadyHost []) := fun node scope w =>
  ⟨mockSuccess, steadyHost_execute [] node scope w, rfl⟩

/-- `T1` failed and `T2` waited for it: after two overrides a resume completes both. -/
theorem recovers_pair :
    ∃ L L₁, Reached (· = pairManifest) (fun _ _ => True) L ∧ Overridden L L₁
      ∧ (resume (steadyHost []) scriptConfig pairManifest
        ⟨L₁, .fresh [], []⟩).2.ledger.reconciliation.allowed = true := by
  obtain ⟨L, hL, hview⟩ : ∃ L, playRun (fun _ _ => true) pairManifest
      [("T1", .always mockFailure)] [] [] = some L
      ∧ ((overrideAll L ["B1", "B2"]).any fun L₁ =>
        decide (L₁.blockers = [] ∧ Recoverable pairManifest.taskGraph L)) = true := by
    refine (Option.any_eq_true _ _).mp ?_
    decide +kernel
  have hreached : Reached (· = pairManifest) (fun _ _ => true = true) L :=
    playRun_reached (by rfl) (scriptManifest_roots _) hL
  have hL' := hreached.mono (fun _ h => h) fun _ _ _ => trivial
  obtain ⟨L₁, hover, hview⟩ := (Option.any_eq_true _ _).mp hview
  obtain ⟨hnone, hrec⟩ := of_decide_eq_true hview
  have hnodup : (pairManifest.taskGraph.map (·.taskId)).Nodup := by decide
  exact ⟨L, L₁, hL', overrideAll_overridden hover, (recovers_iff (scriptManifest_stringIds _) hnodup
    pairManifest_acyclic hL' (overrideAll_overridden hover) hnone steadyHost_succeeding
    (steadyHost_running []) scriptConfig _).mpr hrec⟩

/-- **A history after which no override and no executor completes the run**: `T1` failed, a resume
completed it while its blocker stayed open, and the override of that blocker resets the committed
task. -/
theorem not_recovered :
    ∃ L L₁, Reached (· = pairManifest) (fun _ _ => True) L ∧ Overridden L L₁ ∧ L₁.blockers = []
      ∧ Succeeding (steadyHost []) ∧ AlwaysRunning (steadyHost [])
      ∧ (resume (steadyHost []) scriptConfig pairManifest
        ⟨L₁, .fresh [], []⟩).2.ledger.reconciliation.allowed = false := by
  obtain ⟨L, hL, hview⟩ : ∃ L, playRun (fun _ _ => true) pairManifest
      [("T1", .always mockFailure)] [.running, .paused] [.resume [] []] = some L
      ∧ ((overrideAll L ["B1"]).any fun L₁ => decide (L₁.blockers = []
        ∧ (driveSession (steadyHost []) scriptConfig pairManifest (completedIds L₁)
          ⟨L₁.setRunState .running, .fresh [], []⟩).2.ledger.reconciliation.allowed = false))
            = true := by
    refine (Option.any_eq_true _ _).mp ?_
    decide +kernel
  have hreached : Reached (· = pairManifest) (fun _ _ => true = true) L :=
    playRun_reached (by rfl) (scriptManifest_roots _) hL
  obtain ⟨L₁, hover, hview⟩ := (Option.any_eq_true _ _).mp hview
  obtain ⟨hnone, hallowed⟩ := of_decide_eq_true hview
  refine ⟨L, L₁, hreached.mono (fun _ h => h) fun _ _ _ => trivial, overrideAll_overridden hover,
    hnone, steadyHost_succeeding, steadyHost_running [], ?_⟩
  rw [resume_snd]
  exact hallowed

end Example

end IplanRunner
