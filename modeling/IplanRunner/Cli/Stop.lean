import IplanRunner.Runs.Script

/-!
Stopping a run from another process (`pause` and `abort` of `cli/commands.py`, the control flag of
`ledger/index.py`).

* `FlagEvent`, `flagAfter`: the two steps of `set_control`, and what they make of the flag file;
  `readFlag`: `get_control`.
* `flagHost`: a host in whose world other processes write the flag between any two accesses of the
  loop to it; `CliLoop`: the commands that drive the loop.
* `Checkpoint`: the loop comes to a checkpoint; `Checkpoint.stops`: what it does where it is told to
  stop.
* `stop_heeded`: a loop that reads an undisturbed flag at every checkpoint heeds every stop.
-/

namespace IplanRunner

open Foundation

/-! ### The flag -/

/-- `str.isspace` of a character. -/
def isBlank (c : Char) : Bool :=
  let n := c.toNat
  (9 ≤ n && n ≤ 13) || (28 ≤ n && n ≤ 32) || n == 0x85 || n == 0xA0 || n == 0x1680
    || (0x2000 ≤ n && n ≤ 0x200A) || n == 0x2028 || n == 0x2029 || n == 0x202F || n == 0x205F
    || n == 0x3000

/-- `str.strip`. -/
def strip (text : List Char) : List Char :=
  ((text.dropWhile isBlank).reverse.dropWhile isBlank).reverse

/-- The text of a state. -/
def stateText : ControlAnswer → List Char
  | .running => "running".toList
  | .paused => "paused".toList
  | .aborted => "aborted".toList

/-- What the loop makes of the text of a flag. -/
def controlAnswer (text : List Char) : ControlAnswer :=
  if strip text = stateText .aborted then .aborted
  else if strip text = stateText .paused then .paused
  else .running

/-- The steps of a `set_control`, of any process: `write_text` opens the file, which cuts it to
nothing, and writes the state at its beginning. -/
inductive FlagEvent where
  | truncate
  | write (state : ControlAnswer)
  deriving DecidableEq

/-- The text of the flag file behind a step, `none` when there is no file. -/
def flagAfter (file : Option (List Char)) : FlagEvent → Option (List Char)
  | .truncate => some []
  | .write state => some (stateText state ++ (file.getD []).drop (stateText state).length)

/-- `get_control`: `seen` happens before it looks whether there is a file, `later` before it reads
it. -/
def readFlag (file : Option (List Char)) (seen later : List FlagEvent) : ControlAnswer :=
  match seen.foldl flagAfter file with
  | none => .running
  | some _ => ((later.foldl flagAfter (seen.foldl flagAfter file)).map controlAnswer).getD .running

/-- The world of a loop and the flag: the steps on the flag since the process started, and those to
come, two lists for each checkpoint. -/
structure FlagWorld (W : Type) where
  inner : W
  past : List FlagEvent
  coming : List (List FlagEvent × List FlagEvent)

variable {W : Type}

/-- The steps done when the loop, at a checkpoint, looks for the file. -/
def FlagWorld.seen (u : FlagWorld W) : List FlagEvent := u.past ++ (u.coming.headD ([], [])).1

/-- The steps done when it reads the file. -/
def FlagWorld.read (u : FlagWorld W) : List FlagEvent := u.seen ++ (u.coming.headD ([], [])).2

/-- The host of a command: `run` is given no control, `resume` reads the flag. -/
def flagHost (reads : Bool) (file : Option (List Char)) (h : Host W) : Host (FlagWorld W) where
  clock := fun u => ((h.clock u.inner).1, { u with inner := (h.clock u.inner).2 })
  ids := fun kind u => ((h.ids kind u.inner).1, { u with inner := (h.ids kind u.inner).2 })
  sleep := fun seconds u => { u with inner := h.sleep seconds u.inner }
  execute := fun node scope u =>
    ((h.execute node scope u.inner).1, { u with inner := (h.execute node scope u.inner).2 })
  compensate := fun paths u =>
    ((h.compensate paths u.inner).1, { u with inner := (h.compensate paths u.inner).2 })
  control := fun u =>
    (if reads then readFlag file u.seen (u.coming.headD ([], [])).2 else .running,
      { u with past := u.read, coming := u.coming.tail })

/-- A stop that is written in a step. -/
def FlagEvent.stop? : FlagEvent → Option ControlAnswer
  | .truncate => none
  | .write state => if state = .running then none else some state

/-- The stop written last. -/
def lastStop (events : List FlagEvent) : Option ControlAnswer :=
  (events.filterMap FlagEvent.stop?).getLast?

/-- At a checkpoint of a loop that reads the flag, the last steps on it are those of one
`set_control`, and it is a stop. -/
def Undisturbed (reads : Bool) (u : FlagWorld W) : Prop :=
  reads = true ∧ ∃ before state, state ≠ .running
    ∧ u.read = before ++ [.truncate, .write state]

lemma foldl_flagAfter_isSome {events : List FlagEvent} (hne : events ≠ [])
    (file : Option (List Char)) : (events.foldl flagAfter file).isSome := by
  obtain ⟨init, last, rfl⟩ := (List.eq_nil_or_concat' events).resolve_left hne
  rw [List.foldl_append]
  cases last <;> rfl

/-- **An undisturbed flag** is read as the stop that was written last. -/
lemma Undisturbed.answer {reads : Bool} {u : FlagWorld W} (hflag : Undisturbed reads u)
    (hseen : lastStop u.seen ≠ none) (file : Option (List Char)) (h : Host W) :
    ∃ state, state ≠ .running ∧ lastStop u.read = some state
      ∧ ((flagHost reads file h).control u).1 = state := by
  obtain ⟨rfl, before, state, hstop, hread⟩ := hflag
  refine ⟨state, hstop, ?_, ?_⟩
  · rw [hread, lastStop, List.filterMap_append]
    simp [FlagEvent.stop?, hstop]
  · have hsome : (u.seen.foldl flagAfter file).isSome :=
      foldl_flagAfter_isSome (fun hnil => hseen (by rw [hnil]; rfl)) file
    obtain ⟨text, htext⟩ := Option.isSome_iff_exists.mp hsome
    have hfile : (u.coming.headD ([], [])).2.foldl flagAfter (u.seen.foldl flagAfter file)
        = some (stateText state) := by
      rw [← List.foldl_append, ← FlagWorld.read, hread, List.foldl_append]
      simp [flagAfter]
    have hanswer : ((flagHost true file h).control u).1
        = readFlag file u.seen (u.coming.headD ([], [])).2 := rfl
    rw [hanswer, readFlag, htext]
    rw [htext] at hfile
    dsimp only
    rw [hfile]
    cases state <;> decide

section Runtime

variable [PyRuntime]

/-! ### Checkpoints -/

section Loop

variable (h : Host W) (cfg : RunConfig) (graph : List TaskNode)

/-- The loop comes to the checkpoint before a task, in a session: the tasks before it are completed,
or have had their turn. -/
inductive Checkpoint : List String → List String → Session W → String → Session W → Prop
  | here {taskId : String} {rest completed : List String} {s : Session W} :
      (s.ledger.task? taskId).isSome → ¬ s.ledger.Done taskId →
      Checkpoint (taskId :: rest) completed s taskId s
  | skip {taskId t : String} {rest completed : List String} {s s' : Session W} :
      s.ledger.Done taskId → Checkpoint rest (taskId :: completed) s t s' →
      Checkpoint (taskId :: rest) completed s t s'
  | later {taskId t : String} {rest completed completed₁ : List String} {s s₁ s' : Session W}
      {node : TaskNode} :
      (s.ledger.task? taskId).isSome → ¬ s.ledger.Done taskId →
      (h.control s.world).1 = .running → lastNode graph taskId = some node →
      turn h cfg node taskId completed { s with world := (h.control s.world).2 }
        = (.ok completed₁, s₁) →
      Checkpoint rest completed₁ s₁ t s' → Checkpoint (taskId :: rest) completed s t s'

variable {h cfg graph}

/-- **A loop that is told to stop at a checkpoint** ends there, in the state it is told. -/
lemma Checkpoint.stops {order completed : List String} {s s' : Session W} {t : String}
    (hcheck : Checkpoint h cfg graph order completed s t s')
    (hstop : (h.control s'.world).1 ≠ .running) :
    ∃ state, driveLoop h cfg graph order completed s
        = (.ok state, { s' with world := (h.control s'.world).2 })
      ∧ ((h.control s'.world).1 = .paused → state = .paused)
      ∧ ((h.control s'.world).1 = .aborted → state = .aborted) := by
  induction hcheck with
  | @here taskId rest completed s hsome hdone =>
      cases hans : (h.control s.world).1 with
      | running => exact absurd hans hstop
      | paused =>
          exact ⟨.paused, driveLoop_paused hsome hdone hans, fun _ => rfl, fun h => by cases h⟩
      | aborted =>
          exact ⟨.aborted, driveLoop_aborted hsome hdone hans, fun h => (by cases h), fun _ => rfl⟩
  | skip hdone _ ih =>
      rw [driveLoop_done hdone]
      exact ih hstop
  | later hsome hdone hrunning hnode hturn _ ih =>
      rw [driveLoop_turn hsome hdone hrunning hnode, Call.bind_ok hturn]
      exact ih hstop

end Loop

/-! ### The commands -/

/-- The run state a stop is recorded as. -/
def stopState : ControlAnswer → RunState
  | .running => .running
  | .paused => .paused
  | .aborted => .aborted

/-- A command that drives the loop: `run`, or `resume` with the ledger it loads, and with what other
processes do to the flag before and while it resets the flag itself. -/
inductive CliLoop where
  | run
  | resume (L : Ledger) (before during : List FlagEvent)

/-- `resume` reads the flag. -/
def CliLoop.reads : CliLoop → Bool
  | .run => false
  | .resume _ _ _ => true

/-- The steps on the flag from the start of the process to the start of its loop. -/
def CliLoop.past : CliLoop → List FlagEvent
  | .run => []
  | .resume _ before during => before ++ .truncate :: during ++ [.write .running]

variable (h : Host W) (cfg : RunConfig) (manifest : Manifest) (file : Option (List Char))

/-- What a command returns, and the calls it makes. -/
def CliLoop.perform (cmd : CliLoop) (w : W) (coming : List (List FlagEvent × List FlagEvent)) :
    Except PyErr RunResult × List Effect :=
  match cmd with
  | .run =>
      let r := IplanRunner.run (flagHost false file h) cfg manifest ⟨w, [], coming⟩
      (r.1, r.2.2)
  | .resume L before during =>
      let r := IplanRunner.resume (flagHost true file h) cfg manifest
        ⟨L, ⟨w, (CliLoop.resume L before during).past, coming⟩, []⟩
      (r.1, r.2.effects)

/-- The completed ids and the ledger the loop of a command starts with. -/
def CliLoop.begins : CliLoop → Except PyErr (List String × Ledger)
  | .run => (startLedger manifest).map fun L => ([], L)
  | .resume L _ _ => .ok (completedIds L, L.setRunState .running)

/-- A command comes to the checkpoint before a task. -/
def CliLoop.ComesTo (cmd : CliLoop) (w : W) (coming : List (List FlagEvent × List FlagEvent))
    (t : String) (s : Session (FlagWorld W)) : Prop :=
  ∃ completed L order, cmd.begins manifest = .ok (completed, L)
    ∧ topoOrder manifest.taskGraph = .ok order
    ∧ Checkpoint (flagHost cmd.reads file h) cfg manifest.taskGraph order completed
        ⟨L, ⟨w, cmd.past, coming⟩, []⟩ t s

/-- **Stops are heeded**: at a checkpoint before which a stop has been written, the command starts
no task any more, and the ledger it returns has the state that was written last. -/
def CliLoop.HeedsStops (cmd : CliLoop) (w : W) (coming : List (List FlagEvent × List FlagEvent)) :
    Prop :=
  ∀ t s, cmd.ComesTo h cfg manifest file w coming t s → lastStop s.world.seen ≠ none →
    ∃ state, lastStop s.world.read = some state
      ∧ (cmd.perform h cfg manifest file w coming).2 = s.effects
      ∧ ∀ res, (cmd.perform h cfg manifest file w coming).1 = .ok res →
        res.ledger.control.runState = stopState state

variable {h cfg manifest file}

/-- A loop that ends in a state, and `_drive` behind it. -/
lemma drive_ended {manifest : Manifest} {h : Host W} {order completed : List String}
    {s s' : Session W} {state : RunState} (horder : topoOrder manifest.taskGraph = .ok order)
    (hloop : driveLoop h cfg manifest.taskGraph order completed s = (.ok state, s')) :
    (drive h cfg manifest completed s).2.effects = s'.effects
      ∧ ∀ res, (drive h cfg manifest completed s).1 = .ok res →
        res.ledger.control.runState = state := by
  have hofe : (Call.ofExcept (.ok order) : Loop W (List String)) s = (.ok order, s) := rfl
  rw [drive, horder, Call.bind_ok hofe, Call.bind_ok hloop]
  cases hg : runGate (reconcile (s'.ledger.setRunState state)).toDoc cfg.gate with
  | error e => simp [Call.bind_apply, Loop.update, Loop.ledger, hg]
  | ok g =>
      refine ⟨by simp [Call.bind_apply, Loop.update, Loop.ledger, hg], fun res hres => ?_⟩
      have hledger : res.ledger = reconcile (s'.ledger.setRunState state) := by
        simp only [Call.bind_apply, Loop.update, Loop.ledger, hg] at hres
        cases hres
        rfl
      rw [hledger, reconcile_runState]
      rfl

/-- What a command does is what `_drive` does in the session its loop starts in. -/
lemma CliLoop.perform_eq {cmd : CliLoop} {w : W}
    {coming : List (List FlagEvent × List FlagEvent)} {completed : List String} {L : Ledger}
    (hbegins : cmd.begins manifest = .ok (completed, L)) :
    cmd.perform h cfg manifest file w coming
      = ((drive (flagHost cmd.reads file h) cfg manifest completed
          ⟨L, ⟨w, cmd.past, coming⟩, []⟩).1,
        (drive (flagHost cmd.reads file h) cfg manifest completed
          ⟨L, ⟨w, cmd.past, coming⟩, []⟩).2.effects) := by
  cases cmd with
  | run =>
      obtain ⟨L', hstart, heq⟩ : ∃ L', startLedger manifest = .ok L'
        ∧ ([], L') = (completed, L) := by
        rw [CliLoop.begins] at hbegins
        cases hstart : startLedger manifest with
        | error e => rw [hstart] at hbegins; cases hbegins
        | ok L' =>
            rw [hstart] at hbegins
            exact ⟨L', rfl, Except.ok.inj hbegins⟩
      cases heq
      rw [CliLoop.perform, IplanRunner.run, hstart]
      rfl
  | resume L₀ before during =>
      cases hbegins
      rfl

/-! ### Main result -/

/-- **A stop reaches the loop of `resume`**, if the flag is undisturbed whenever it is read: at
every checkpoint before which a stop has been written, the last steps on the flag are the two of one
`set_control` for a stop.  `run` heeds the stops of its checkpoints when there are none. -/
theorem stop_heeded {cmd : CliLoop} {w : W} {coming : List (List FlagEvent × List FlagEvent)}
    (hflag : ∀ t s, cmd.ComesTo h cfg manifest file w coming t s → lastStop s.world.seen ≠ none →
      Undisturbed cmd.reads s.world) :
    cmd.HeedsStops h cfg manifest file w coming := by
  intro t s hcomes hseen
  obtain ⟨state, hstop, hlast, hanswer⟩ := (hflag t s hcomes hseen).answer hseen file h
  obtain ⟨completed, L, order, hbegins, horder, hcheck⟩ := hcomes
  obtain ⟨runState, hloop, hpaused, haborted⟩ := hcheck.stops (by rw [hanswer]; exact hstop)
  have hstate : runState = stopState state := by
    cases state with
    | running => exact absurd rfl hstop
    | paused => exact hpaused hanswer
    | aborted => exact haborted hanswer
  obtain ⟨heffects, hresult⟩ := drive_ended horder hloop
  rw [CliLoop.perform_eq hbegins]
  exact ⟨state, hlast, heffects, fun res hres => (hresult res hres).trans hstate⟩

end Runtime

section Example

attribute [local instance] cpython

/-- The tasks `T1` and `T2`. -/
private def stopTasks : Manifest := scriptManifest [("T1", []), ("T2", [])]

/-- A stop that is written before the first checkpoint. -/
private def pauseNext : List (List FlagEvent × List FlagEvent) :=
  [([.truncate, .write .paused], [])]

/-- The ledger of a run that is paused behind `T1`. -/
private lemma stopped_ledger : ∃ L, Reached (fun _ => True) (fun _ _ => True) L ∧ L.Done "T1"
    ∧ (L.task? "T2").isSome ∧ ¬ L.Done "T2"
    ∧ (driveSession (flagHost true (some (stateText .paused)) (mockHost [] scriptNow)) scriptConfig
        stopTasks (completedIds L) ⟨L.setRunState .running,
          ⟨.fresh [], [.truncate, .write .paused, .truncate, .write .running], []⟩, []⟩).2.effects
      = [.execute "T2"] := by
  obtain ⟨L, hL, hchecks⟩ : ∃ L, playRun (fun _ _ => true) stopTasks [] [.running, .paused] []
      = some L ∧ decide (L.Done "T1" ∧ (L.task? "T2").isSome ∧ ¬ L.Done "T2"
        ∧ (driveSession (flagHost true (some (stateText .paused)) (mockHost [] scriptNow))
          scriptConfig stopTasks (completedIds L) ⟨L.setRunState .running,
            ⟨.fresh [], [.truncate, .write .paused, .truncate, .write .running], []⟩, []⟩).2.effects
          = [.execute "T2"]) = true := by
    refine (Option.any_eq_true _ _).mp ?_
    decide +kernel
  have hreached : Reached (fun _ => True) (fun _ _ => True) L :=
    (@playRun_reached _ (fun _ => True) _ _ trivial (scriptManifest_roots _) _ _ _ _ hL).mono
      (fun _ h => h) fun _ _ _ => trivial
  exact ⟨L, hreached, of_decide_eq_true hchecks⟩

private lemma stop_order : topoOrder stopTasks.taskGraph = .ok ["T1", "T2"] := by
  decide +kernel

/-- A resume that is paused before its first checkpoint starts nothing. -/
theorem stop_heeded_resumed : ∃ (L : Ledger) (s : Session (FlagWorld MockWorld)),
    Reached (fun _ => True) (fun _ _ => True) L
      ∧ (CliLoop.resume L [] []).ComesTo (mockHost [] scriptNow) scriptConfig stopTasks
          (some (stateText .paused)) (.fresh []) pauseNext "T2" s
      ∧ lastStop s.world.seen = some .paused
      ∧ (CliLoop.resume L [] []).HeedsStops (mockHost [] scriptNow) scriptConfig stopTasks
          (some (stateText .paused)) (.fresh []) pauseNext := by
  obtain ⟨L, hreached, hdone, hsome, hnot, -⟩ := stopped_ledger
  have hcheck : Checkpoint (flagHost true (some (stateText .paused)) (mockHost [] scriptNow))
      scriptConfig stopTasks.taskGraph ["T1", "T2"] (completedIds L)
      ⟨L.setRunState .running, ⟨.fresh [], (CliLoop.resume L [] []).past, pauseNext⟩, []⟩ "T2"
      ⟨L.setRunState .running, ⟨.fresh [], (CliLoop.resume L [] []).past, pauseNext⟩, []⟩ :=
    .skip hdone (.here hsome hnot)
  refine ⟨L, _, hreached, ⟨_, _, _, rfl, stop_order, hcheck⟩, rfl, ?_⟩
  refine stop_heeded ?_
  rintro t s ⟨completed, L', order, hbegins, horder, hcomes⟩ -
  cases hbegins
  rw [stop_order] at horder
  cases horder
  -- the only checkpoint is the one before `T2`
  cases hcomes with
  | here _ hnotDone => exact absurd hdone hnotDone
  | later _ hnotDone => exact absurd hdone hnotDone
  | skip _ hrest =>
      cases hrest with
      | here => exact ⟨rfl, [.truncate, .write .running], .paused, by decide, rfl⟩
      | skip hdone' => exact absurd hdone' hnot
      | later _ _ hrunning =>
          have hpaused : ControlAnswer.paused = .running := hrunning
          cases hpaused

/-- **Stops that are not heeded**: `run` does not read the flag, and `resume` overwrites a stop that
is written behind its start. -/
theorem stop_missed :
    ¬ CliLoop.run.HeedsStops (mockHost [] scriptNow) scriptConfig stopTasks none (.fresh [])
        pauseNext
      ∧ ∃ L, Reached (fun _ => True) (fun _ _ => True) L
        ∧ ¬ (CliLoop.resume L [.truncate, .write .paused] []).HeedsStops (mockHost [] scriptNow)
          scriptConfig stopTasks (some (stateText .paused)) (.fresh []) [] := by
  constructor
  · obtain ⟨L, hstart, hchecks⟩ : ∃ L, (startLedger stopTasks).toOption = some L
        ∧ decide ((L.task? "T1").isSome ∧ ¬ L.Done "T1"
          ∧ (driveSession (flagHost false none (mockHost [] scriptNow)) scriptConfig stopTasks []
            ⟨L, ⟨.fresh [], [], pauseNext⟩, []⟩).2.effects ≠ []) = true := by
      refine (Option.any_eq_true _ _).mp ?_
      decide +kernel
    obtain ⟨hsome, hnot, heffects⟩ := of_decide_eq_true hchecks
    have hbegins : CliLoop.run.begins stopTasks = .ok ([], L) := by
      rw [CliLoop.begins, eq_ok_of_toOption hstart]
      rfl
    intro hheeds
    obtain ⟨state, -, hnone, -⟩ := hheeds "T1" _ ⟨_, _, _, hbegins, stop_order, .here hsome hnot⟩
      (Option.some_ne_none ControlAnswer.paused)
    rw [CliLoop.perform_eq hbegins] at hnone
    refine heffects ?_
    rw [← drive_snd]
    exact hnone
  · obtain ⟨L, hreached, hdone, hsome, hnot, heffects⟩ := stopped_ledger
    refine ⟨L, hreached, fun hheeds => ?_⟩
    obtain ⟨state, -, hnone, -⟩ := hheeds "T2" _
      ⟨_, _, _, rfl, stop_order, .skip hdone (.here hsome hnot)⟩
      (Option.some_ne_none ControlAnswer.paused)
    rw [CliLoop.perform_eq rfl] at hnone
    rw [← drive_snd] at heffects
    have hsame := heffects.symm.trans hnone
    cases hsame

end Example

end IplanRunner
