import IplanRunner.Runs.Edits
import IplanRunner.Runs.HeldBack

/-!
What becomes of a task the loop takes up.

* `turn_course`: a turn calls no executor, or goes one of the ways of `TaskCourse`; `turn_reasoned`
  names the reasons the loop has of its own.
* `driveLoop_keeps`: what the turns keep, the loop does.
* `TakesUp.settled`: the loop does not come back to a task, so its turn decides what is said of it.
* `ExecutorCall`, `DriveCall`: the executor is called in the course of the loop, or of `_drive`;
  `ExecutorCall.course` and `DriveCall.course` say what such a call makes of its task.
-/

namespace IplanRunner

open Foundation

variable [PyRuntime]

/-! ### One turn -/

section Turn

variable {W : Type} (h : Host W) (cfg : RunConfig)

/-- What a turn adds that calls no executor: nothing, or a block. -/
def QuietDelta (L : Ledger) (taskId : String) (δ : Delta) : Prop :=
  δ = {} ∨ ∃ reason blockerId atTime fromStatus,
    δ = blockDelta L.isolationScope taskId reason blockerId atTime fromStatus

variable {h} in
omit [PyRuntime] in
lemma QuietDelta.entry_taskId {L : Ledger} {taskId : String} {δ : Delta}
    (hquiet : QuietDelta L taskId δ) (e : TaskEntry) : (δ.entry e).taskId = e.taskId := by
  rcases hquiet with rfl | ⟨reason, blockerId, atTime, fromStatus, rfl⟩ <;> rfl

variable {h} in
omit [PyRuntime] in
lemma TaskCourse.entry_taskId {node : TaskNode} {taskId : String} {L : Ledger} {last : W}
    {r : Except PyErr Unit} {δ : Delta} {gx : List Effect}
    (hcourse : TaskCourse h node taskId L last r δ gx) (e : TaskEntry) :
    (δ.entry e).taskId = e.taskId := by
  cases hcourse with
  | completed => exact evidenceChange_taskId _ e
  | _ => rfl

/-- The reasons the loop has of its own. -/
def loopReasons : List String :=
  ["lease conflict", "dependency not satisfied", "execution failed"]

/-- What a turn adds that calls no executor, with the reason of a block. -/
def ReasonedDelta (L : Ledger) (taskId : String) (δ : Delta) : Prop :=
  δ = {} ∨ ∃ reason ∈ loopReasons, ∃ blockerId atTime fromStatus,
    δ = blockDelta L.isolationScope taskId reason blockerId atTime fromStatus

omit [PyRuntime] in
lemma ReasonedDelta.quiet {L : Ledger} {taskId : String} {δ : Delta}
    (hreasoned : ReasonedDelta L taskId δ) : QuietDelta L taskId δ :=
  hreasoned.imp_right fun ⟨reason, _, hblock⟩ => ⟨reason, hblock⟩

/-- A turn calls no executor, and blocks its task for a reason of the loop if at all, or goes one of
the ways of `TaskCourse`. -/
lemma turn_reasoned (node : TaskNode) (completed : List String) (s : Session W)
    (hknown : (s.ledger.task? node.taskId.pyStr).isSome) :
    ((DepsMet node completed → taskAttempts h cfg node s = [])
      ∧ ∃ δ w, ReasonedDelta s.ledger node.taskId.pyStr δ
        ∧ turn h cfg node node.taskId.pyStr completed s
          = (.ok (addDone (s.ledger.apply node.taskId.pyStr δ) node.taskId.pyStr completed),
              ⟨s.ledger.apply node.taskId.pyStr δ, w, s.effects⟩))
    ∨ DepsMet node completed ∧ ∃ (last : W) (r : Except PyErr Unit) (δ : Delta)
        (fx gx : List Effect) (w : W),
      (taskAttempts h cfg node s).getLast? = some last
      ∧ TaskCourse h node node.taskId.pyStr s.ledger last r δ gx
      ∧ turn h cfg node node.taskId.pyStr completed s
        = (r.map fun _ => addDone (s.ledger.apply node.taskId.pyStr δ) node.taskId.pyStr completed,
            ⟨s.ledger.apply node.taskId.pyStr δ, w, s.effects ++ (fx ++ gx)⟩) := by
  by_cases hmet : DepsMet node completed
  swap
  · obtain ⟨blockerId, atTime, w, hexec⟩ := turn_of_unmet h cfg hmet hknown
    exact Or.inl ⟨fun hd => absurd hd hmet, _, w,
      Or.inr ⟨_, by simp [loopReasons], _, _, _, rfl⟩, hexec⟩
  obtain ⟨hnone, δ, w, hidle, hrun⟩ | ⟨last, r, δ, fx, gx, w, hlast, -, -, hcourse, hrun⟩ :=
    runTask_course h cfg node s
  · left
    have hreasoned : ReasonedDelta s.ledger node.taskId.pyStr δ := by
      rcases hidle with ⟨rfl, -⟩ | ⟨blockerId, now, rfl⟩
      · exact Or.inl rfl
      · exact Or.inr ⟨_, by simp [loopReasons], _, _, _, rfl⟩
    exact ⟨fun _ => hnone, δ, w, hreasoned,
      turn_of_runTask h cfg hmet hknown hreasoned.quiet.entry_taskId hrun⟩
  · exact Or.inr ⟨hmet, last, r, δ, fx, gx, w, hlast, hcourse,
      turn_of_runTask h cfg hmet hknown (hcourse.entry_taskId) hrun⟩

/-- **A turn calls no executor, or goes one of the ways of `TaskCourse`.** -/
theorem turn_course (node : TaskNode) (completed : List String) (s : Session W)
    (hknown : (s.ledger.task? node.taskId.pyStr).isSome) :
    ((DepsMet node completed → taskAttempts h cfg node s = [])
      ∧ ∃ δ w, QuietDelta s.ledger node.taskId.pyStr δ
        ∧ turn h cfg node node.taskId.pyStr completed s
          = (.ok (addDone (s.ledger.apply node.taskId.pyStr δ) node.taskId.pyStr completed),
              ⟨s.ledger.apply node.taskId.pyStr δ, w, s.effects⟩))
    ∨ DepsMet node completed ∧ ∃ (last : W) (r : Except PyErr Unit) (δ : Delta)
        (fx gx : List Effect) (w : W),
      (taskAttempts h cfg node s).getLast? = some last
      ∧ TaskCourse h node node.taskId.pyStr s.ledger last r δ gx
      ∧ turn h cfg node node.taskId.pyStr completed s
        = (r.map fun _ => addDone (s.ledger.apply node.taskId.pyStr δ) node.taskId.pyStr completed,
            ⟨s.ledger.apply node.taskId.pyStr δ, w, s.effects ++ (fx ++ gx)⟩) := by
  obtain ⟨hnone, δ, w, hreasoned, hexec⟩ | hcourse := turn_reasoned h cfg node completed s hknown
  · exact Or.inl ⟨hnone, δ, w, hreasoned.quiet, hexec⟩
  · exact Or.inr hcourse

end Turn

/-! ### The rest of the loop -/

section Loop

variable {W : Type} {h : Host W} {cfg : RunConfig} {graph : List TaskNode}

/-- The loop leaves the tasks alone that are not in its order. -/
lemma LoopRun.others {rest completed : List String} {L L' : Ledger} {r : Except PyErr RunState}
    {fx : List Effect} (hrun : LoopRun h cfg graph rest completed L r L' fx) {t : String}
    (ht : t ∉ rest) : L'.status? t = L.status? t := by
  induction hrun with
  | skip _ _ ih => exact ih fun hmem => ht (List.mem_cons_of_mem _ hmem)
  | raised _ _ _ hturn =>
      rw [hturn.status?_apply, if_neg (List.ne_of_not_mem_cons ht)]
  | turned _ _ _ hturn _ ih =>
      rw [ih fun hmem => ht (List.mem_cons_of_mem _ hmem), hturn.status?_apply,
        if_neg (List.ne_of_not_mem_cons ht)]
  | _ => rfl

/-- The loop over an order, seen from a task that is not in it. -/
lemma driveLoop_others (order completed : List String) (s : Session W) {t : String}
    (ht : t ∉ order) :
    (driveLoop h cfg graph order completed s).2.ledger.status? t = s.ledger.status? t
      ∧ s.effects ⊆ (driveLoop h cfg graph order completed s).2.effects := by
  obtain ⟨r, L', fx, w, hrun, hexec⟩ := driveLoop_spec h cfg graph order completed s
  rw [hexec]
  exact ⟨hrun.others ht, List.subset_append_left _ _⟩

/-- A task that is taken up is one of the order, known and not completed. -/
lemma TakesUp.met {order completed completed' : List String} {s s' : Session W} {node : TaskNode}
    (htakes : TakesUp h cfg graph order completed s node completed' s') :
    node ∈ graph ∧ node.taskId.pyStr ∈ order ∧ (s'.ledger.task? node.taskId.pyStr).isSome
      ∧ s'.ledger.isolationScope = s.ledger.isolationScope := by
  induction htakes with
  | here hsome _ _ hnode =>
      obtain rfl := lastNode_pyStr hnode
      exact ⟨lastNode_mem hnode, List.mem_cons_self, hsome, rfl⟩
  | skip _ _ ih => exact ⟨ih.1, List.mem_cons_of_mem _ ih.2.1, ih.2.2⟩
  | @later taskId _ completed _ _ s _ _ first _ hsome _ _ hnode hturn _ ih =>
      obtain ⟨h1, h2, h3, h4⟩ := ih
      refine ⟨h1, List.mem_cons_of_mem _ h2, h3, h4.trans ?_⟩
      obtain ⟨r, δ, fx, w, -, hexec⟩ := turn_spec h cfg first taskId completed
        { s with world := (h.control s.world).2 } (lastNode_pyStr hnode) hsome
      rw [hexec] at hturn
      have hledger := congrArg (fun p => p.2.ledger.isolationScope) hturn
      exact hledger.symm

/-- **The turn of a task decides what the loop says of it.** -/
theorem TakesUp.settled {order completed completed' : List String} {s s' : Session W}
    {node : TaskNode} (htakes : TakesUp h cfg graph order completed s node completed' s')
    (hnodup : order.Nodup) :
    (driveLoop h cfg graph order completed s).2.ledger.status? node.taskId.pyStr
        = (turn h cfg node node.taskId.pyStr completed' s').2.ledger.status? node.taskId.pyStr
      ∧ (turn h cfg node node.taskId.pyStr completed' s').2.effects
        ⊆ (driveLoop h cfg graph order completed s).2.effects := by
  induction htakes with
  | @here taskId rest completed s node hsome hdone hrunning hnode =>
      obtain rfl := lastNode_pyStr hnode
      rw [driveLoop_turn hsome hdone hrunning hnode]
      rcases hturn : turn h cfg node node.taskId.pyStr completed
        { s with world := (h.control s.world).2 } with ⟨e | completed₁, s₁⟩
      · rw [Call.bind_error hturn]
        exact ⟨rfl, List.Subset.refl _⟩
      · rw [Call.bind_ok hturn]
        exact driveLoop_others rest completed₁ s₁ (List.nodup_cons.mp hnodup).1
  | skip hdone _ ih =>
      rw [driveLoop_done hdone]
      exact ih (List.nodup_cons.mp hnodup).2
  | later hsome hdone hrunning hnode hturn _ ih =>
      rw [driveLoop_turn hsome hdone hrunning hnode, Call.bind_ok hturn]
      exact ih (List.nodup_cons.mp hnodup).2

/-- **What the turns keep, the loop does**: only the turns of the tasks it takes up change the
ledger. -/
theorem driveLoop_keeps {I : Ledger → Prop} {order completed : List String} {s : Session W}
    (hturns : ∀ node completed' s', TakesUp h cfg graph order completed s node completed' s' →
      I s'.ledger → I (turn h cfg node node.taskId.pyStr completed' s').2.ledger)
    (hs : I s.ledger) : I (driveLoop h cfg graph order completed s).2.ledger := by
  induction order generalizing completed s with
  | nil => exact hs
  | cons taskId rest ih =>
      by_cases hdone : s.ledger.Done taskId
      · rw [driveLoop_done hdone]
        exact ih (fun node completed' s' htakes =>
          hturns node completed' s' (.skip hdone htakes)) hs
      by_cases hcomes : (s.ledger.task? taskId).isSome ∧ (h.control s.world).1 = .running
        ∧ (lastNode graph taskId).isSome
      swap
      · rw [(driveLoop_idle hdone hcomes).2]
        exact hs
      obtain ⟨hsome, hrunning, hn⟩ := hcomes
      obtain ⟨node, hnode⟩ := Option.isSome_iff_exists.mp hn
      obtain rfl := lastNode_pyStr hnode
      have hfirst := hturns node completed _ (.here hsome hdone hrunning hnode) hs
      rw [driveLoop_turn hsome hdone hrunning hnode]
      rcases hturn : turn h cfg node node.taskId.pyStr completed
        { s with world := (h.control s.world).2 } with ⟨e | completed₁, s₁⟩
      · rw [Call.bind_error hturn]
        rwa [hturn] at hfirst
      · rw [Call.bind_ok hturn]
        rw [hturn] at hfirst
        exact ih (fun node' completed' s' htakes =>
          hturns node' completed' s' (.later hsome hdone hrunning hnode hturn htakes)) hfirst

end Loop

/-! ### Calls of the executor -/

section Calls

variable {W : Type} {h : Host W} {x : Executor W} {cfg : RunConfig} {graph : List TaskNode}

variable (h x cfg graph) in
/-- In the course of the loop the executor is called on the node, in the world `u`. -/
def ExecutorCall (order completed : List String) (s : Session W) (node : TaskNode) (u : W) : Prop :=
  ∃ completed' s', TakesUp (h.driving x) cfg graph order completed s node completed' s'
    ∧ DepsMet node completed' ∧ u ∈ taskAttempts (h.driving x) cfg node s'

/-- **What a call makes of its task**, in a loop driven by an executor that is not retried: one of
the ways of `TaskCourse`, with what the loop says of the task and of its compensation. -/
theorem ExecutorCall.course (hlists : x.Lists) {order completed : List String} {s : Session W}
    {node : TaskNode} {u : W} (hnodup : order.Nodup)
    (hcall : ExecutorCall h x cfg graph order completed s node u) :
    ∃ (L : Ledger) (r : Except PyErr Unit) (δ : Delta) (gx : List Effect) (entry : TaskEntry),
      TaskCourse (h.driving x) node node.taskId.pyStr L u r δ gx
      ∧ L.isolationScope = s.ledger.isolationScope
      ∧ (driveLoop (h.driving x) cfg graph order completed s).2.ledger.status? node.taskId.pyStr
        = some (δ.entry entry).status
      ∧ gx ⊆ (driveLoop (h.driving x) cfg graph order completed s).2.effects := by
  obtain ⟨completed', s', htakes, hmet, hu⟩ := hcall
  obtain ⟨-, -, hknown, hscope⟩ := htakes.met
  obtain ⟨hstatus, heffects⟩ := htakes.settled hnodup
  obtain ⟨hquiet, -⟩ | ⟨-, last, r, δ, fx, gx, w, hlast, hcourse, hturn⟩ :=
    turn_course (h.driving x) cfg node completed' s' hknown
  · rw [hquiet hmet] at hu
    cases hu
  · obtain ⟨v, hone⟩ : ∃ v, taskAttempts (h.driving x) cfg node s' = [v] := by
      refine (taskAttempts_final hlists).resolve_left fun hnil => ?_
      rw [hnil] at hlast
      cases hlast
    rw [hone] at hlast hu
    obtain rfl := List.mem_singleton.mp hu
    obtain rfl := Option.some.inj hlast
    obtain ⟨entry, hentry⟩ := Option.isSome_iff_exists.mp hknown
    rw [hturn] at hstatus heffects
    refine ⟨s'.ledger, r, δ, gx, entry, hcourse, hscope, ?_, fun e he => heffects ?_⟩
    · rw [hstatus, Ledger.status?, Ledger.task?_apply_self _ _ _ hcourse.entry_taskId, hentry]
      rfl
    · exact List.mem_append_right _ (List.mem_append_right _ he)

variable {m : Manifest}

variable (h x cfg m) in
/-- In the course of `_drive` the executor is called on the node, in the world `u`. -/
def DriveCall (completed : List String) (s : Session W) (node : TaskNode) (u : W) : Prop :=
  ∃ order, topoOrder m.taskGraph = .ok order
    ∧ ExecutorCall h x cfg m.taskGraph order completed s node u

/-- The nodes are those of the graph. -/
lemma DriveCall.node_mem {completed : List String} {s : Session W} {node : TaskNode} {u : W}
    (hcall : DriveCall h x cfg m completed s node u) : node ∈ m.taskGraph := by
  obtain ⟨order, -, completed', s', htakes, -⟩ := hcall
  exact htakes.met.1

/-- **What a call makes of its task**, in a `_drive`. -/
theorem DriveCall.course (hlists : x.Lists) {completed : List String} {s : Session W}
    {node : TaskNode} {u : W} (hcall : DriveCall h x cfg m completed s node u) :
    ∃ (L : Ledger) (r : Except PyErr Unit) (δ : Delta) (gx : List Effect) (entry : TaskEntry),
      TaskCourse (h.driving x) node node.taskId.pyStr L u r δ gx
      ∧ L.isolationScope = s.ledger.isolationScope
      ∧ (drive (h.driving x) cfg m completed s).2.ledger.status? node.taskId.pyStr
        = some (δ.entry entry).status
      ∧ gx ⊆ (drive (h.driving x) cfg m completed s).2.effects := by
  obtain ⟨order, horder, hcall⟩ := hcall
  have hnodup : order.Nodup := (topoOrder_perm horder).nodup_iff.mpr (nodup_nodeIds _)
  obtain ⟨L, r, δ, gx, entry, hcourse, hscope, hstatus, heffects⟩ := hcall.course hlists hnodup
  have hend : (drive (h.driving x) cfg m completed s).2.ledger.status? node.taskId.pyStr
        = (driveLoop (h.driving x) cfg m.taskGraph order completed s).2.ledger.status?
          node.taskId.pyStr
      ∧ (drive (h.driving x) cfg m completed s).2.effects
        = (driveLoop (h.driving x) cfg m.taskGraph order completed s).2.effects := by
    rw [drive_snd, driveSession, horder]
    dsimp only
    rcases driveLoop (h.driving x) cfg m.taskGraph order completed s with ⟨e | state, s'⟩ <;>
      exact ⟨rfl, rfl⟩
  exact ⟨L, r, δ, gx, entry, hcourse, hscope, hend.1.trans hstatus, hend.2 ▸ heffects⟩

end Calls

end IplanRunner
