import IplanRunner.Runs.Commit
import IplanRunner.Runs.Leases

/-!
What a resume does with a task that is blocked and has an open blocker.

* `Ledger.Held`: the task is blocked, and a blocker of it is open.
* `Startable`: the three checks between a task that is taken up and its executor.
* `TakesUp`: the loop takes up a node, with a completed set, in a session.
* `held_waits_iff`: a resume leaves the held tasks alone exactly when it takes up none of them
  startable; `held_not_waiting` is a history after which it does not.
-/

namespace IplanRunner

open Foundation

/-- The task is blocked, and a blocker of it is open. -/
def Ledger.Held (L : Ledger) (taskId : String) : Prop :=
  L.status? taskId = some .blocked ∧ ∃ b ∈ L.blockers, b.taskId = taskId

instance (L : Ledger) (taskId : String) : Decidable (L.Held taskId) := by
  unfold Ledger.Held
  infer_instance

/-- The `task_started` events of a task. -/
def startedEvents (taskId : String) (events : List EventBody) : ℕ :=
  events.countP fun e => e.kind == .taskStarted && e.subjectId == .str taskId

section Runtime

variable [PyRuntime]

/-- Nothing stands between the task and its executor: its dependencies are completed, its key is not
committed and its leases are released. -/
structure Startable (node : TaskNode) (completed : List String) (L : Ledger) : Prop where
  met : DepsMet node completed
  uncommitted : alreadyCommitted L (executeKey node.taskId.pyStr) = false
  free : L.LeaseFree node.taskId.pyStr

section Turn

variable {W : Type} {h : Host W} {cfg : RunConfig} {node : TaskNode} {completed : List String}
  {L : Ledger} {r : Except PyErr Unit} {δ : Delta} {fx : List Effect}

/-- A task that can be started is executed, and its start is logged. -/
lemma Turn.starts (hturn : Turn h cfg node node.taskId.pyStr completed L r δ fx) (hL : NoExpiry L)
    (hst : Startable node completed L) : Effect.execute node.taskId.pyStr ∈ fx := by
  cases hturn with
  | unmet hunmet => exact absurd hst.met hunmet
  | ran _ hrun =>
      cases hrun with
      | committed hc => exact absurd hst.uncommitted (by simp [hc])
      | conflict _ hl =>
          rw [(canAcquire_iff hL _ _).mpr hst.free] at hl
          exact absurd hl (by simp)
      | crashed _ _ hfx _ => exact hfx.executed
      | succeeded _ _ hfx _ _ _ _ => exact hfx.executed
      | failed _ _ hfx _ _ => exact hfx.executed

/-- Only a task that can be started is executed, or logged as started. -/
lemma Turn.startable (hturn : Turn h cfg node node.taskId.pyStr completed L r δ fx)
    (hL : NoExpiry L) {t : String}
    (ht : Effect.execute t ∈ fx ∨ 0 < startedEvents t δ.events) :
    t = node.taskId.pyStr ∧ Startable node completed L := by
  have hown : t = node.taskId.pyStr := by
    rcases ht with hfx | hev
    · exact (hturn.executes hfx).1
    · obtain ⟨e, he, hkind⟩ := List.countP_pos_iff.mp hev
      rw [hturn.subject h cfg e he, Bool.and_eq_true] at hkind
      exact Val.str.inj (eq_of_beq hkind.2).symm
  refine ⟨hown, ?_⟩
  cases hturn with
  | unmet _ => simp [startedEvents, blockDelta, loopEvent] at ht
  | ran hmet hrun =>
      cases hrun with
      | committed _ => simp [startedEvents] at ht
      | conflict _ _ => simp [startedEvents, blockDelta, loopEvent] at ht
      | crashed hc hl _ _ => exact ⟨hmet, hc, (canAcquire_iff hL _ _).mp hl⟩
      | succeeded hc hl _ _ _ _ _ => exact ⟨hmet, hc, (canAcquire_iff hL _ _).mp hl⟩
      | failed hc hl _ _ _ => exact ⟨hmet, hc, (canAcquire_iff hL _ _).mp hl⟩

end Turn

/-! ### The loop, session by session -/

section Loop

variable {W : Type} (h : Host W) (cfg : RunConfig) (graph : List TaskNode)

/-- From `order`, `completed` and a session the loop comes to take up the node, with the completed
set and in the session named last. -/
inductive TakesUp : List String → List String → Session W → TaskNode → List String → Session W →
    Prop
  /-- The next task is not completed, and control lets the loop run. -/
  | here {taskId : String} {rest completed : List String} {s : Session W} {node : TaskNode} :
      (s.ledger.task? taskId).isSome → ¬ s.ledger.Done taskId →
      (h.control s.world).1 = .running → lastNode graph taskId = some node →
      TakesUp (taskId :: rest) completed s node completed
        { s with world := (h.control s.world).2 }
  /-- The next task is completed. -/
  | skip {taskId : String} {rest completed completed' : List String} {s s' : Session W}
      {node : TaskNode} : s.ledger.Done taskId →
      TakesUp rest (taskId :: completed) s node completed' s' →
      TakesUp (taskId :: rest) completed s node completed' s'
  /-- The turn of the next task returns. -/
  | later {taskId : String} {rest completed completed₁ completed' : List String}
      {s s₁ s' : Session W} {first node : TaskNode} :
      (s.ledger.task? taskId).isSome → ¬ s.ledger.Done taskId →
      (h.control s.world).1 = .running → lastNode graph taskId = some first →
      turn h cfg first taskId completed { s with world := (h.control s.world).2 }
        = (.ok completed₁, s₁) →
      TakesUp rest completed₁ s₁ node completed' s' →
      TakesUp (taskId :: rest) completed s node completed' s'

variable {h cfg graph}

/-- The loop goes past the next task only when it knows it, control lets it run and the graph has a
node for it. -/
lemma driveLoop_idle {taskId : String} {rest completed : List String} {s : Session W}
    (hdone : ¬ s.ledger.Done taskId)
    (hidle : ¬ ((s.ledger.task? taskId).isSome ∧ (h.control s.world).1 = .running
      ∧ (lastNode graph taskId).isSome)) :
    (driveLoop h cfg graph (taskId :: rest) completed s).2.effects = s.effects
      ∧ (driveLoop h cfg graph (taskId :: rest) completed s).2.ledger = s.ledger := by
  cases he : s.ledger.task? taskId with
  | none =>
      rw [driveLoop_unknown he]
      exact ⟨rfl, rfl⟩
  | some e =>
      have hsome : (s.ledger.task? taskId).isSome := by rw [he]; rfl
      cases hans : (h.control s.world).1 with
      | aborted =>
          rw [driveLoop_aborted hsome hdone hans]
          exact ⟨rfl, rfl⟩
      | paused =>
          rw [driveLoop_paused hsome hdone hans]
          exact ⟨rfl, rfl⟩
      | running =>
          cases hnode : lastNode graph taskId with
          | none =>
              rw [driveLoop_noNode hsome hdone hans hnode]
              exact ⟨rfl, rfl⟩
          | some node => exact absurd ⟨hsome, hans, by rw [hnode]; rfl⟩ hidle

variable (h cfg graph) in
/-- The loop takes up the task at a moment at which it can be started. -/
def TakesUpStartable (order completed : List String) (s : Session W) (t : String) : Prop :=
  ∃ node completed' s', TakesUp h cfg graph order completed s node completed' s'
    ∧ node.taskId.pyStr = t ∧ Startable node completed' s'.ledger

lemma takesUpStartable_done {taskId : String} {rest completed : List String} {s : Session W}
    {t : String} (hdone : s.ledger.Done taskId) :
    TakesUpStartable h cfg graph (taskId :: rest) completed s t
      ↔ TakesUpStartable h cfg graph rest (taskId :: completed) s t := by
  constructor
  · rintro ⟨node, completed', s', htakes, hst⟩
    cases htakes with
    | here _ hn _ _ => exact absurd hdone hn
    | skip _ htakes => exact ⟨node, completed', s', htakes, hst⟩
    | later _ hn _ _ _ _ => exact absurd hdone hn
  · rintro ⟨node, completed', s', htakes, hst⟩
    exact ⟨node, completed', s', .skip hdone htakes, hst⟩

lemma takesUpStartable_idle {taskId : String} {rest completed : List String} {s : Session W}
    {t : String} (hdone : ¬ s.ledger.Done taskId)
    (hidle : ¬ ((s.ledger.task? taskId).isSome ∧ (h.control s.world).1 = .running
      ∧ (lastNode graph taskId).isSome)) :
    ¬ TakesUpStartable h cfg graph (taskId :: rest) completed s t := by
  rintro ⟨node, completed', s', htakes, -⟩
  cases htakes with
  | here h1 _ h2 h3 => exact hidle ⟨h1, h2, by rw [h3]; rfl⟩
  | skip hd _ => exact hdone hd
  | later h1 _ h2 h3 _ _ => exact hidle ⟨h1, h2, by rw [h3]; rfl⟩

lemma takesUpStartable_turn {taskId : String} {rest completed : List String} {s : Session W}
    {node : TaskNode} {t : String} (hsome : (s.ledger.task? taskId).isSome)
    (hdone : ¬ s.ledger.Done taskId) (hrunning : (h.control s.world).1 = .running)
    (hnode : lastNode graph taskId = some node) :
    TakesUpStartable h cfg graph (taskId :: rest) completed s t
      ↔ (taskId = t ∧ Startable node completed s.ledger)
        ∨ ∃ completed₁ s₁, turn h cfg node taskId completed
            { s with world := (h.control s.world).2 } = (.ok completed₁, s₁)
          ∧ TakesUpStartable h cfg graph rest completed₁ s₁ t := by
  constructor
  · rintro ⟨node', completed', s', htakes, hid, hst⟩
    cases htakes with
    | here _ _ _ hn =>
        rw [hnode] at hn
        obtain rfl := Option.some.inj hn
        exact Or.inl ⟨(lastNode_pyStr hnode).symm.trans hid, hst⟩
    | skip hd _ => exact absurd hd hdone
    | later _ _ _ hn hturn htakes =>
        rw [hnode] at hn
        obtain rfl := Option.some.inj hn
        exact Or.inr ⟨_, _, hturn, _, _, _, htakes, hid, hst⟩
  · rintro (⟨rfl, hst⟩ | ⟨completed₁, s₁, hturn, node', completed', s', htakes, hst⟩)
    · exact ⟨node, completed, _, .here hsome hdone hrunning hnode, lastNode_pyStr hnode, hst⟩
    · exact ⟨node', completed', s', .later hsome hdone hrunning hnode hturn htakes, hst⟩

variable (h cfg graph) in
/-- **The loop executes a task, and logs a start of it, exactly when it takes it up startable.** -/
theorem driveLoop_starts (order completed : List String) (s : Session W) (hL : NoExpiry s.ledger)
    (t : String) : ∃ (fx : List Effect) (events : List EventBody),
      (driveLoop h cfg graph order completed s).2.effects = s.effects ++ fx
      ∧ (driveLoop h cfg graph order completed s).2.ledger.bodies = s.ledger.bodies ++ events
      ∧ (Effect.execute t ∈ fx ∨ 0 < startedEvents t events →
        TakesUpStartable h cfg graph order completed s t)
      ∧ (TakesUpStartable h cfg graph order completed s t → Effect.execute t ∈ fx) := by
  induction order generalizing completed s with
  | nil =>
      refine ⟨[], [], by simp [driveLoop], by simp [driveLoop], by simp [startedEvents], ?_⟩
      rintro ⟨node, completed', s', htakes, -⟩
      cases htakes
  | cons taskId rest ih =>
      by_cases hdone : s.ledger.Done taskId
      · rw [driveLoop_done hdone, takesUpStartable_done hdone]
        exact ih (taskId :: completed) s hL
      by_cases hactive : (s.ledger.task? taskId).isSome ∧ (h.control s.world).1 = .running
        ∧ (lastNode graph taskId).isSome
      swap
      · obtain ⟨hfx, hledger⟩ :
            (driveLoop h cfg graph (taskId :: rest) completed s).2.effects = s.effects
              ∧ (driveLoop h cfg graph (taskId :: rest) completed s).2.ledger = s.ledger :=
          driveLoop_idle hdone hactive
        have hnot : ¬ TakesUpStartable h cfg graph (taskId :: rest) completed s t :=
          takesUpStartable_idle hdone hactive
        refine ⟨[], [], by rw [hfx, List.append_nil], by rw [hledger, List.append_nil], ?_, ?_⟩
        · simp [startedEvents]
        · exact fun htakes => absurd htakes hnot
      obtain ⟨hsome, hrunning, hn⟩ := hactive
      obtain ⟨node, hnode⟩ := Option.isSome_iff_exists.mp hn
      obtain rfl := lastNode_pyStr hnode
      obtain ⟨r, δ, fx, w, hturn, hexec⟩ := turn_spec h cfg node node.taskId.pyStr completed
        { s with world := (h.control s.world).2 } rfl hsome
      rw [driveLoop_turn hsome hdone hrunning hnode,
        takesUpStartable_turn hsome hdone hrunning hnode]
      have hfirst : node.taskId.pyStr = t ∧ Startable node completed s.ledger →
          Effect.execute t ∈ fx := by
        rintro ⟨rfl, hst⟩
        exact hturn.starts hL hst
      rcases r with e | u
      · refine ⟨fx, δ.events, by rw [Call.bind_error hexec], ?_, fun hst => ?_, ?_⟩
        · rw [Call.bind_error hexec, bodies_apply]
        · obtain ⟨rfl, hst'⟩ := hturn.startable hL hst
          exact Or.inl ⟨rfl, hst'⟩
        · rintro (hst | ⟨completed₁, s₁, hok, -⟩)
          · exact hfirst hst
          · rw [hexec] at hok
            exact absurd (congrArg Prod.fst hok) (by simp [Except.map])
      · obtain ⟨gx, events, h1, h2, h3, h4⟩ := ih
          (addDone (s.ledger.apply node.taskId.pyStr δ) node.taskId.pyStr completed)
          ⟨s.ledger.apply node.taskId.pyStr δ, w, s.effects ++ fx⟩ (hturn.noExpiry hL)
        rw [Call.bind_ok hexec]
        refine ⟨fx ++ gx, δ.events ++ events, by rw [h1, List.append_assoc], ?_, fun hst => ?_, ?_⟩
        · rw [h2, bodies_apply, List.append_assoc]
        · have hcount : startedEvents t (δ.events ++ events)
              = startedEvents t δ.events + startedEvents t events := List.countP_append
          have hcases : (Effect.execute t ∈ fx ∨ 0 < startedEvents t δ.events)
              ∨ (Effect.execute t ∈ gx ∨ 0 < startedEvents t events) := by
            rw [List.mem_append, hcount] at hst
            rcases hst with (h5 | h5) | h5
            · exact Or.inl (Or.inl h5)
            · exact Or.inr (Or.inl h5)
            · by_cases h6 : 0 < startedEvents t δ.events
              · exact Or.inl (Or.inr h6)
              · exact Or.inr (Or.inr (by omega))
          rcases hcases with h5 | h5
          · obtain ⟨rfl, hst'⟩ := hturn.startable hL h5
            exact Or.inl ⟨rfl, hst'⟩
          · exact Or.inr ⟨_, _, hexec, h3 h5⟩
        · rintro (hst | ⟨completed₁, s₁, hok, htakes⟩)
          · exact List.mem_append_left _ (hfirst hst)
          · rw [hexec] at hok
            cases hok
            exact List.mem_append_right _ (h4 htakes)

end Loop

/-! ### A resume -/

/-- Behind its loop a resume calls no executor and logs nothing. -/
lemma resume_loop {W : Type} (h : Host W) (cfg : RunConfig) {manifest : Manifest} {s : Session W}
    {order : List String} (horder : topoOrder manifest.taskGraph = .ok order) :
    (resume h cfg manifest s).2.effects
        = (driveLoop h cfg manifest.taskGraph order (completedIds s.ledger)
          { s with ledger := s.ledger.setRunState .running }).2.effects
      ∧ (resume h cfg manifest s).2.ledger.bodies
        = (driveLoop h cfg manifest.taskGraph order (completedIds s.ledger)
          { s with ledger := s.ledger.setRunState .running }).2.ledger.bodies := by
  rw [resume_snd, driveSession, horder]
  dsimp only
  rcases driveLoop h cfg manifest.taskGraph order (completedIds s.ledger)
    { s with ledger := s.ledger.setRunState .running } with ⟨e | state, s'⟩
  · exact ⟨rfl, rfl⟩
  · exact ⟨rfl, rfl⟩

/-- **A resume leaves the held tasks alone exactly when it takes up none of them startable**: it
executes none and logs no start of one. -/
theorem held_waits_iff {L : Ledger} (hL : Reached (fun _ => True) (fun _ _ => True) L) {W : Type}
    (h : Host W) (cfg : RunConfig) (manifest : Manifest) (w : W) :
    (∀ t, L.Held t → Effect.execute t ∉ (resume h cfg manifest ⟨L, w, []⟩).2.effects
        ∧ startedEvents t (resume h cfg manifest ⟨L, w, []⟩).2.ledger.bodies
          = startedEvents t L.bodies)
      ↔ ∀ order, topoOrder manifest.taskGraph = .ok order →
        ∀ (node : TaskNode) (completed : List String) (s : Session W),
          TakesUp h cfg manifest.taskGraph order (completedIds L)
            ⟨L.setRunState .running, w, []⟩ node completed s →
          L.Held node.taskId.pyStr → ¬ Startable node completed s.ledger := by
  have hexp : NoExpiry (L.setRunState .running) := hL.invariant noExpiry_history
  cases horder : topoOrder manifest.taskGraph with
  | error e =>
      rw [resume_snd, driveSession, horder]
      constructor
      · exact fun _ order horder' => absurd horder' (by simp)
      · exact fun _ t _ => ⟨by simp, rfl⟩
  | ok order =>
      -- both sides speak of the same loop
      obtain ⟨heffects, hbodies⟩ := resume_loop h cfg (s := ⟨L, w, []⟩) horder
      rw [heffects, hbodies]
      constructor
      · intro hwaits order' horder' node completed s htakes hheld hst
        cases horder'
        obtain ⟨fx, events, h1, -, -, h4⟩ := driveLoop_starts h cfg manifest.taskGraph order
          (completedIds L) ⟨L.setRunState .running, w, []⟩ hexp node.taskId.pyStr
        refine (hwaits _ hheld).1 ?_
        rw [h1]
        exact h4 ⟨node, completed, s, htakes, rfl, hst⟩
      · intro hnone t hheld
        obtain ⟨fx, events, h1, h2, h3, -⟩ := driveLoop_starts h cfg manifest.taskGraph order
          (completedIds L) ⟨L.setRunState .running, w, []⟩ hexp t
        have hnot : ¬ (Effect.execute t ∈ fx ∨ 0 < startedEvents t events) := by
          intro hst
          obtain ⟨node, completed, s, htakes, rfl, hstartable⟩ := h3 hst
          exact hnone order rfl node completed s htakes hheld hstartable
        rw [not_or, Nat.not_lt, Nat.le_zero] at hnot
        refine ⟨by rw [h1, List.nil_append]; exact hnot.1, ?_⟩
        calc startedEvents t (driveLoop h cfg manifest.taskGraph order (completedIds L)
              ⟨L.setRunState .running, w, []⟩).2.ledger.bodies
            = startedEvents t (L.bodies ++ events) := congrArg (startedEvents t) h2
          _ = startedEvents t L.bodies + startedEvents t events := List.countP_append
          _ = startedEvents t L.bodies := by omega

end Runtime

section Example

attribute [local instance] cpython

/-- A resume that is paused at once takes up nothing, so the failed `T1` waits. -/
theorem held_waits_while_paused :
    ∃ L, playRun (fun _ _ => true) (scriptManifest [("T1", []), ("T2", ["T1"])])
        [("T1", .always mockFailure)] [] [] = some L
      ∧ L.Held "T1"
      ∧ Effect.execute "T1" ∉ (resume (mockHost [] scriptNow) scriptConfig
          (scriptManifest [("T1", []), ("T2", ["T1"])]) ⟨L, .fresh [.paused], []⟩).2.effects := by
  obtain ⟨L, hL, hview⟩ : ∃ L, playRun (fun _ _ => true)
      (scriptManifest [("T1", []), ("T2", ["T1"])]) [("T1", .always mockFailure)] [] [] = some L
      ∧ decide (L.Held "T1" ∧ ¬ L.Done "T1") = true := by
    refine (Option.any_eq_true _ _).mp ?_
    decide +kernel
  obtain ⟨hheld, hdone⟩ := of_decide_eq_true hview
  have hreached : Reached (fun _ => True) (fun _ _ => true = true) L :=
    playRun_reached trivial (scriptManifest_roots _) hL
  have horder : topoOrder (scriptManifest [("T1", []), ("T2", ["T1"])]).taskGraph
      = .ok ["T1", "T2"] := by decide +kernel
  refine ⟨L, hL, hheld, ((held_waits_iff (hreached.mono (fun _ _ => trivial)
    fun _ _ _ => trivial) _ _ _ _).mpr ?_ "T1" hheld).1⟩
  intro order horder' node completed s htakes
  rw [horder] at horder'
  cases horder'
  cases htakes with
  | here _ _ hrunning _ => exact absurd hrunning (by simp [mockHost, MockWorld.fresh])
  | skip hd _ => exact absurd hd hdone
  | later _ _ hrunning _ _ _ => exact absurd hrunning (by simp [mockHost, MockWorld.fresh])

/-- **A blocked task with an open blocker is executed by the next resume**: `T1` failed, the
operator rejected it, and nothing has overridden its blocker. -/
theorem held_not_waiting :
    ∃ L, Reached (fun _ => True) (fun _ _ => True) L ∧ L.Held "T1"
      ∧ Effect.execute "T1" ∈ (resume (steadyHost []) scriptConfig
          (scriptManifest [("T1", []), ("T2", ["T1"])]) ⟨L, .fresh [], []⟩).2.effects := by
  obtain ⟨L, hL, hview⟩ : ∃ L, playRun (fun _ _ => true)
      (scriptManifest [("T1", []), ("T2", ["T1"])]) [("T1", .always mockFailure)] []
      [.decide "B1" "reject"] = some L
      ∧ decide (L.Held "T1" ∧ Effect.execute "T1" ∈ (driveSession (steadyHost []) scriptConfig
          (scriptManifest [("T1", []), ("T2", ["T1"])]) (completedIds L)
          ⟨L.setRunState .running, .fresh [], []⟩).2.effects) = true := by
    refine (Option.any_eq_true _ _).mp ?_
    decide +kernel
  have hreached : Reached (fun _ => True) (fun _ _ => true = true) L :=
    playRun_reached trivial (scriptManifest_roots _) hL
  obtain ⟨hheld, hexec⟩ := of_decide_eq_true hview
  refine ⟨L, hreached.mono (fun _ _ => trivial) fun _ _ _ => trivial, hheld, ?_⟩
  rw [resume_snd]
  exact hexec

end Example

end IplanRunner
