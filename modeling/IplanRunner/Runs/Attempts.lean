import IplanRunner.Orchestrator.Turn

/-!
The attempts of a task, each with the world it meets.

* `attemptsFrom`, `taskAttempts`: the worlds in which `_run_task` calls the executor.
* `TaskCourse`: what the last attempt makes of the task; `runTask_course` says that a task that is
  begun goes one of these ways.
-/

namespace IplanRunner

open Foundation

variable [PyRuntime] {W : Type} (h : Host W) (cfg : RunConfig)

/-- The worlds in which `execute_with_retry` calls the executor. -/
def attemptsFrom (node : TaskNode) (scope : Dict) : ℕ → ℕ → W → List W
  | 0, _, w => [w]
  | left + 1, attempt, w =>
      w :: match h.execute node scope w with
        | (.ok result, w') =>
            if result.outcome ≠ .success ∧ result.retriable = true then
              attemptsFrom node scope left (attempt + 1)
                (h.sleep (backoff attempt cfg.backoffBase) w')
            else []
        | (.error _, _) => []

/-- The worlds in which `_run_task` calls the executor: none, when the key is committed or a lease
is in the way. -/
def taskAttempts (node : TaskNode) (s : Session W) : List W :=
  let taskId := node.taskId.pyStr
  let (acquiredAt, w) := h.clock s.world
  if alreadyCommitted s.ledger (executeKey taskId) then []
  else if canAcquire s.ledger.agentLeases taskId acquiredAt then
    attemptsFrom h cfg node s.ledger.isolationScope cfg.maxRetries 1
      (beginTask h taskId acquiredAt { s with world := w }).2.world
  else []

omit [PyRuntime] in
lemma attemptsFrom_ends (node : TaskNode) (scope : Dict) {left attempt : ℕ} {w : W}
    (hend : left = 0 ∨ Conclusive (h.execute node scope w).1) :
    attemptsFrom h cfg node scope left attempt w = [w] := by
  cases left with
  | zero => rfl
  | succ left =>
      rw [attemptsFrom]
      rcases hr : h.execute node scope w with ⟨e | result, w'⟩
      · rfl
      · have hfinal : ¬ (result.outcome ≠ .success ∧ result.retriable = true) := by
          rcases hend with hend | hend
          · cases hend
          · have hresult := hend result (by rw [hr])
            simpa [or_iff_not_imp_left] using hresult
        dsimp only
        rw [if_neg hfinal]

omit [PyRuntime] in
lemma attemptsFrom_again (node : TaskNode) (scope : Dict) {left attempt : ℕ} {w : W}
    (hagain : ¬ Conclusive (h.execute node scope w).1) :
    attemptsFrom h cfg node scope (left + 1) attempt w
      = w :: attemptsFrom h cfg node scope left (attempt + 1)
        (h.sleep (backoff attempt cfg.backoffBase) (h.execute node scope w).2) := by
  obtain ⟨result, hresult, hretry⟩ := not_conclusive_iff.mp hagain
  rw [attemptsFrom]
  rcases hr : h.execute node scope w with ⟨r, w'⟩
  obtain rfl : r = .ok result := by rw [← hresult, hr]
  dsimp only
  rw [if_pos hretry]

omit [PyRuntime] in
lemma getLast?_cons_some {α : Type} {x y : α} {l : List α} (h : l.getLast? = some y) :
    (x :: l).getLast? = some y := by
  cases l with
  | nil => cases h
  | cons z l => rwa [List.getLast?_cons_cons]

/-- **The last attempt decides**: `execute_with_retry` ends the way it does, in the world it
leaves. -/
theorem executeWithRetry_last (node : TaskNode) (scope : Dict) (left attempt : ℕ) (s : Session W) :
    ∃ (last : W) (n : ℕ) (fx : List Effect),
      (attemptsFrom h cfg node scope left attempt s.world).getLast? = some last
      ∧ (∀ paths, Effect.compensate paths ∉ fx) ∧ Effect.execute node.taskId.pyStr ∈ fx
      ∧ executeWithRetry h cfg node scope left attempt s
        = ((h.execute node scope last).1.map fun result => (result, n),
            ⟨s.ledger, (h.execute node scope last).2, s.effects ++ fx⟩) := by
  induction left generalizing attempt s with
  | zero =>
      exact ⟨s.world, attempt, [.execute node.taskId.pyStr], rfl, by simp, by simp,
        executeWithRetry_ends h cfg node scope attempt s (Or.inl rfl)⟩
  | succ left ih =>
      by_cases hend : Conclusive (h.execute node scope s.world).1
      · refine ⟨s.world, attempt, [.execute node.taskId.pyStr], ?_, by simp, by simp,
          executeWithRetry_ends h cfg node scope attempt s (Or.inr hend)⟩
        rw [attemptsFrom_ends h cfg node scope (Or.inr hend)]
        rfl
      · obtain ⟨last, n, fx, hlast, hfx, hexec, hrec⟩ := ih (attempt + 1)
          ⟨s.ledger, h.sleep (backoff attempt cfg.backoffBase) (h.execute node scope s.world).2,
            s.effects ++ [.execute node.taskId.pyStr, .sleep (backoff attempt cfg.backoffBase)]⟩
        refine ⟨last, n, [.execute node.taskId.pyStr, .sleep (backoff attempt cfg.backoffBase)]
          ++ fx, ?_, ?_, by simp, ?_⟩
        · rw [attemptsFrom_again h cfg node scope hend]
          exact getLast?_cons_some hlast
        · intro paths hp
          rcases List.mem_append.mp hp with hp | hp
          · simp at hp
          · exact hfx paths hp
        · rw [executeWithRetry_again h cfg node scope left attempt s hend, hrec, List.append_assoc]

/-! ### The failure branch -/

/-- The failure branch of a task that touched nothing. -/
lemma settleFailure_untouched (taskId : String) {result : ExecutorResult}
    (hnone : result.touchedPaths = []) (s : Session W) :
    ∃ (compensatedAt blockerId blockedAt : String) (w : W),
      settleFailure h taskId result s = (.ok (),
        ⟨((s.ledger.apply taskId (compensationDelta s.ledger.isolationScope taskId compensatedAt
            result.touchedPaths)).setTxn (compensateTxn result.touchedPaths)).apply taskId
          (blockDelta s.ledger.isolationScope taskId (failureReason result) blockerId blockedAt
            .inProgress), w, s.effects⟩) := by
  have hid : compensateTxn [] = id := by
    funext t
    rfl
  refine ⟨"", (h.ids "B" (h.clock s.world).2).1, (h.clock s.world).1,
    (h.ids "B" (h.clock s.world).2).2, ?_⟩
  simp [settleFailure, hnone, escalate_apply, compensationDelta, compensationEvents, hid,
    Ledger.setTxn, Ledger.apply]

/-- The failure branch, when the compensation raises. -/
lemma settleFailure_raised (taskId : String) {result : ExecutorResult}
    (hsome : result.touchedPaths ≠ []) {s : Session W} {e : PyErr} {w : W}
    (hraise : h.compensate result.touchedPaths s.world = (.error e, w)) :
    settleFailure h taskId result s
      = (.error e, ⟨s.ledger, w, s.effects ++ [.compensate result.touchedPaths]⟩) := by
  simp [settleFailure, hsome, Call.bind_apply, Loop.compensate, hraise]

/-- The failure branch, when the compensation returns. -/
lemma settleFailure_compensated (taskId : String) {result : ExecutorResult}
    (hsome : result.touchedPaths ≠ []) {s : Session W} {u : Unit} {w : W}
    (hdone : h.compensate result.touchedPaths s.world = (.ok u, w)) :
    ∃ (compensatedAt blockerId blockedAt : String) (w' : W),
      settleFailure h taskId result s = (.ok (),
        ⟨((s.ledger.apply taskId (compensationDelta s.ledger.isolationScope taskId compensatedAt
            result.touchedPaths)).setTxn (compensateTxn result.touchedPaths)).apply taskId
          (blockDelta s.ledger.isolationScope taskId (failureReason result) blockerId blockedAt
            .inProgress), w', s.effects ++ [.compensate result.touchedPaths]⟩) := by
  have hc : Loop.compensate h result.touchedPaths s
      = (.ok u, ⟨s.ledger, w, s.effects ++ [.compensate result.touchedPaths]⟩) := by
    simp [Loop.compensate, hdone]
  have hset : compensateTxn result.touchedPaths = ({ · with status := .compensated }) := by
    funext t
    rw [compensateTxn, if_neg hsome]
  refine ⟨(h.clock w).1, (h.ids "B" (h.clock (h.clock w).2).2).1, (h.clock (h.clock w).2).1,
    (h.ids "B" (h.clock (h.clock w).2).2).2, ?_⟩
  simp [settleFailure, hsome, Call.bind_ok hc, escalate_apply, compensationDelta,
    compensationEvents, hset, Ledger.setTxn, Ledger.logEvent, Ledger.apply]

/-! ### One task -/

/-- **What the last attempt makes of a task that has been begun**: what `_run_task` returns or
raises, what it adds to the ledger `L` and the compensation it calls. -/
inductive TaskCourse (node : TaskNode) (taskId : String) (L : Ledger) (last : W) :
    Except PyErr Unit → Delta → List Effect → Prop
  /-- The attempt raises. -/
  | raised {b : Begun} {e : PyErr} {w : W} :
      h.execute node L.isolationScope last = (.error e, w) →
      TaskCourse node taskId L last (.error e) (crashDelta L.isolationScope taskId b none) []
  | completed {b : Begun} {n : ℕ} {result : ExecutorResult} {w : W}
      {edits : List (String × String)} {ev : Option (String × Dict)}
      {completedAt releasedAt : String} :
      h.execute node L.isolationScope last = (.ok result, w) → result.outcome = .success →
      edits.map Prod.fst = result.touchedPaths → ev.map Prod.snd = result.evidence →
      TaskCourse node taskId L last (.ok ())
        (successDelta L.isolationScope taskId b n edits ev completedAt releasedAt) []
  /-- The attempt fails, and the compensation raises. -/
  | uncompensated {b : Begun} {n : ℕ} {result : ExecutorResult} {w w' : W} {e : PyErr} :
      h.execute node L.isolationScope last = (.ok result, w) → result.outcome ≠ .success →
      result.touchedPaths ≠ [] → h.compensate result.touchedPaths w = (.error e, w') →
      TaskCourse node taskId L last (.error e) (crashDelta L.isolationScope taskId b (some n))
        [.compensate result.touchedPaths]
  /-- The attempt fails, and has touched nothing. -/
  | untouched {b : Begun} {n : ℕ} {result : ExecutorResult} {w : W}
      {compensatedAt blockerId blockedAt releasedAt : String} :
      h.execute node L.isolationScope last = (.ok result, w) → result.outcome ≠ .success →
      result.touchedPaths = [] →
      TaskCourse node taskId L last (.ok ()) (failureDelta L.isolationScope taskId b n result
        compensatedAt blockerId blockedAt releasedAt) []
  /-- The attempt fails, and what it has touched is compensated. -/
  | compensated {b : Begun} {n : ℕ} {result : ExecutorResult} {w w' : W} {u : Unit}
      {compensatedAt blockerId blockedAt releasedAt : String} :
      h.execute node L.isolationScope last = (.ok result, w) → result.outcome ≠ .success →
      result.touchedPaths ≠ [] → h.compensate result.touchedPaths w = (.ok u, w') →
      TaskCourse node taskId L last (.ok ()) (failureDelta L.isolationScope taskId b n result
        compensatedAt blockerId blockedAt releasedAt) [.compensate result.touchedPaths]

/-- From the call of the executor on. -/
lemma executeTask_course (node : TaskNode) (L : Ledger) (b : Begun) (s : Session W)
    (hs : s.ledger = L.apply node.taskId.pyStr
      (crashDelta L.isolationScope node.taskId.pyStr b none)) :
    ∃ (last : W) (r : Except PyErr Unit) (δ : Delta) (fx gx : List Effect) (w : W),
      (attemptsFrom h cfg node L.isolationScope cfg.maxRetries 1 s.world).getLast? = some last
      ∧ (∀ paths, Effect.compensate paths ∉ fx) ∧ Effect.execute node.taskId.pyStr ∈ fx
      ∧ TaskCourse h node node.taskId.pyStr L last r δ gx
      ∧ executeTask h cfg node node.taskId.pyStr s
        = (r, ⟨L.apply node.taskId.pyStr δ, w, s.effects ++ (fx ++ gx)⟩) := by
  obtain ⟨last, n, fx, hlast, hfx, hexecuted, hexec⟩ := executeWithRetry_last h cfg node
    L.isolationScope cfg.maxRetries 1 s
  have hscope : s.ledger.isolationScope = L.isolationScope := by rw [hs]; rfl
  have hset : s.ledger.setTxn ({ · with attempts := some n })
      = L.apply node.taskId.pyStr
          (crashDelta L.isolationScope node.taskId.pyStr b (some n)) := by
    rw [hs, apply_crashDelta_setTxn]
  rcases hr : h.execute node L.isolationScope last with ⟨e | result, w⟩
  · rw [hr] at hexec
    refine ⟨last, .error e, _, fx, [], w, hlast, hfx, hexecuted,
      TaskCourse.raised (b := b) hr, ?_⟩
    rw [executeTask, Loop.bind_ledger, hscope, Call.bind_error hexec, hs, List.append_nil]
  rw [hr] at hexec
  change _ = (Except.ok (result, n), _) at hexec
  by_cases ho : result.outcome = .success
  · obtain ⟨edits, ev, completedAt, w2, hedits, hev, hok⟩ := settleSuccess_spec h
      node.taskId.pyStr result ⟨s.ledger.setTxn ({ · with attempts := some n }), w,
        s.effects ++ fx⟩
    refine ⟨last, .ok (), successDelta L.isolationScope node.taskId.pyStr b n edits ev completedAt
        (h.clock w2).1, fx, [], (h.clock w2).2, hlast, hfx, hexecuted,
      .completed hr ho hedits hev, ?_⟩
    rw [executeTask, Loop.bind_ledger, hscope, Call.bind_ok hexec]
    simp only [Loop.bind_update, if_pos ho, Call.bind_ok hok, Loop.bind_clock, Loop.update_apply]
    rw [hset, Ledger.apply_isolationScope, apply_successDelta, List.append_nil]
  by_cases htouched : result.touchedPaths = []
  · obtain ⟨compensatedAt, blockerId, blockedAt, w2, hok⟩ := settleFailure_untouched h
      node.taskId.pyStr htouched
     
      ⟨s.ledger.setTxn ({ · with attempts := some n }), w, s.effects ++ fx⟩
    refine ⟨last, .ok (), failureDelta L.isolationScope node.taskId.pyStr b n result compensatedAt
        blockerId blockedAt (h.clock w2).1, fx, [], (h.clock w2).2, hlast, hfx, hexecuted,
      .untouched hr ho htouched, ?_⟩
    rw [executeTask, Loop.bind_ledger, hscope, Call.bind_ok hexec]
    simp only [Loop.bind_update, if_neg ho, Call.bind_ok hok, Loop.bind_clock, Loop.update_apply]
    rw [hset, Ledger.apply_isolationScope, apply_failureDelta, List.append_nil]
  · rcases hc : h.compensate result.touchedPaths w with ⟨e | u, w₁⟩
    · have herr := settleFailure_raised h node.taskId.pyStr htouched
        (s := ⟨s.ledger.setTxn ({ · with attempts := some n }), w, s.effects ++ fx⟩) hc
      refine ⟨last, .error e, crashDelta L.isolationScope node.taskId.pyStr b (some n), fx,
        [.compensate result.touchedPaths], w₁, hlast, hfx, hexecuted,
        .uncompensated hr ho htouched hc, ?_⟩
      rw [executeTask, Loop.bind_ledger, hscope, Call.bind_ok hexec]
      simp only [Loop.bind_update, if_neg ho, Call.bind_error herr]
      rw [hset, List.append_assoc]
    · obtain ⟨compensatedAt, blockerId, blockedAt, w2, hok⟩ := settleFailure_compensated h
        node.taskId.pyStr htouched
        (s := ⟨s.ledger.setTxn ({ · with attempts := some n }), w, s.effects ++ fx⟩) hc
      refine ⟨last, .ok (), failureDelta L.isolationScope node.taskId.pyStr b n result
          compensatedAt blockerId blockedAt (h.clock w2).1, fx, [.compensate result.touchedPaths],
        (h.clock w2).2, hlast, hfx, hexecuted, .compensated hr ho htouched hc, ?_⟩
      rw [executeTask, Loop.bind_ledger, hscope, Call.bind_ok hexec]
      simp only [Loop.bind_update, if_neg ho, Call.bind_ok hok, Loop.bind_clock,
        Loop.update_apply]
      rw [hset, Ledger.apply_isolationScope, apply_failureDelta, List.append_assoc]

/-- What a task that is not begun adds to a ledger: nothing, or its block. -/
def Idle (taskId : String) (L : Ledger) (δ : Delta) : Prop :=
  δ = {} ∧ alreadyCommitted L (executeKey taskId) = true
    ∨ ∃ blockerId now,
      δ = blockDelta L.isolationScope taskId "lease conflict" blockerId now .inProgress

/-- **`_run_task` begins a task and goes one of the ways of `TaskCourse`**, or calls nothing. -/
theorem runTask_course (node : TaskNode) (s : Session W) :
    (taskAttempts h cfg node s = [] ∧ ∃ δ w, Idle node.taskId.pyStr s.ledger δ
      ∧ runTask h cfg node s
        = (.ok (), ⟨s.ledger.apply node.taskId.pyStr δ, w, s.effects⟩))
    ∨ ∃ (last : W) (r : Except PyErr Unit) (δ : Delta) (fx gx : List Effect) (w : W),
      (taskAttempts h cfg node s).getLast? = some last
      ∧ (∀ paths, Effect.compensate paths ∉ fx) ∧ Effect.execute node.taskId.pyStr ∈ fx
      ∧ TaskCourse h node node.taskId.pyStr s.ledger last r δ gx
      ∧ runTask h cfg node s
        = (r, ⟨s.ledger.apply node.taskId.pyStr δ, w, s.effects ++ (fx ++ gx)⟩) := by
  by_cases hc : alreadyCommitted s.ledger (executeKey node.taskId.pyStr) = true
  · exact Or.inl ⟨by simp [taskAttempts, hc], {}, s.world, Or.inl ⟨rfl, hc⟩, by simp [runTask, hc]⟩
  have hc' : alreadyCommitted s.ledger (executeKey node.taskId.pyStr) = false := by simpa using hc
  by_cases hl : canAcquire s.ledger.agentLeases node.taskId.pyStr (h.clock s.world).1 = true
  · right
    obtain ⟨b, w, -, hbegin⟩ := beginTask_spec h node.taskId.pyStr (h.clock s.world).1
      { s with world := (h.clock s.world).2 }
    obtain ⟨last, r, δ, fx, gx, w', hlast, hfx, hexecuted, hcourse, hexec⟩ :=
      executeTask_course h cfg node s.ledger b
        ⟨s.ledger.apply node.taskId.pyStr
          (crashDelta s.ledger.isolationScope node.taskId.pyStr b none), w, s.effects⟩ rfl
    refine ⟨last, r, δ, fx, gx, w', ?_, hfx, hexecuted, hcourse, ?_⟩
    · simpa [taskAttempts, hc', hl, hbegin] using hlast
    · rw [← hexec]
      simp [runTask, hc', hl, Call.bind_ok hbegin]
  · have hl' : canAcquire s.ledger.agentLeases node.taskId.pyStr (h.clock s.world).1 = false := by
      simpa using hl
    refine Or.inl ⟨by simp [taskAttempts, hc', hl'],
      blockDelta s.ledger.isolationScope node.taskId.pyStr "lease conflict"
        (h.ids "B" (h.clock s.world).2).1 (h.clock s.world).1 .inProgress,
      (h.ids "B" (h.clock s.world).2).2, Or.inr ⟨_, _, rfl⟩, ?_⟩
    simp [runTask, hc', hl', Call.bind_ok (escalate_apply h node.taskId.pyStr "lease conflict"
      (h.clock s.world).1 { s with world := (h.clock s.world).2 })]

end IplanRunner
