import IplanRunner.Foundation.Plays
import IplanRunner.Runs.Contained

/-!
What can still happen to an aborted run.

* `LedgerOp`: the operations on a ledger there is, `LedgerRun`: any sequence of them.
* `AbortsAtOnce`: a resume comes to a checkpoint before any task, and is told to abort there.
* `aborted_terminal`: an aborted ledger stays aborted and no task of it is started, as long as every
  resume of it is told to abort at once.
-/

namespace IplanRunner

open Foundation

section Runtime

variable [PyRuntime]

/-! ### Operations -/

/-- An operation on a ledger: a `resume`, under any host, or a decision on a blocker. -/
inductive LedgerOp : Type 1 where
  | resume {W : Type} (h : Host W) (cfg : RunConfig) (manifest : Manifest) (w : W)
  | resolve (blockerId decision atTime : String) (actor : Actor)

/-- The ledger an operation leaves: what a resume changed stays when it raises, and a decision that
is refused changes nothing. -/
def LedgerOp.after : LedgerOp → Ledger → Ledger
  | .resume h cfg manifest w, L => (IplanRunner.resume h cfg manifest ⟨L, w, []⟩).2.ledger
  | .resolve blockerId decision atTime actor, L =>
      match resolveBlocker L blockerId decision actor atTime with
      | .ok L' => L'
      | .error _ => L

/-- What an operation causes outside the ledger. -/
def LedgerOp.effects : LedgerOp → Ledger → List Effect
  | .resume h cfg manifest w, L => (IplanRunner.resume h cfg manifest ⟨L, w, []⟩).2.effects
  | .resolve .., _ => []

/-- Operations one after the other, each recorded with the ledger it is done to. -/
def LedgerRun (L₀ : Ledger) (moves : List (Ledger × LedgerOp)) (L : Ledger) : Prop :=
  Plays (fun L op L' => op.after L = L') L₀ moves L

/-! ### A resume that is told to abort -/

/-- The loop of a resume comes to a task that is not completed, and control tells it to abort. -/
def AbortsAtOnce {W : Type} (h : Host W) (manifest : Manifest) (w : W) (L : Ledger) : Prop :=
  ∃ done taskId rest, topoOrder manifest.taskGraph = .ok (done ++ taskId :: rest)
    ∧ (∀ t ∈ done, L.Done t) ∧ (L.task? taskId).isSome ∧ ¬ L.Done taskId
    ∧ (h.control w).1 = .aborted

/-- An operation on an aborted ledger is no resume, or one that is told to abort at once. -/
def LedgerOp.HeedsAbort : LedgerOp → Ledger → Prop
  | .resume h _ manifest w, L => L.control.runState = .aborted → AbortsAtOnce h manifest w L
  | .resolve .., _ => True

variable {W : Type} {h : Host W} {cfg : RunConfig}

/-- A loop that comes past completed tasks to one control tells it to abort at. -/
lemma driveLoop_past_done {graph : List TaskNode} {done : List String} {taskId : String}
    {rest completed : List String} {s : Session W} (hdone : ∀ t ∈ done, s.ledger.Done t)
    (hsome : (s.ledger.task? taskId).isSome) (hnot : ¬ s.ledger.Done taskId)
    (habort : (h.control s.world).1 = .aborted) :
    driveLoop h cfg graph (done ++ taskId :: rest) completed s
      = (.ok .aborted, { s with world := (h.control s.world).2 }) := by
  induction done generalizing completed with
  | nil => rw [List.nil_append, driveLoop_aborted hsome hnot habort]
  | cons t done ih =>
      rw [List.cons_append, driveLoop_done (hdone t List.mem_cons_self)]
      exact ih fun t ht => hdone t (List.mem_cons_of_mem _ ht)

variable (cfg) in
/-- **A resume that is told to abort at once** starts nothing and leaves the run aborted. -/
lemma resume_aborted {manifest : Manifest} {w : W} {L : Ledger}
    (habort : AbortsAtOnce h manifest w L) :
    (resume h cfg manifest ⟨L, w, []⟩).2.effects = []
      ∧ (resume h cfg manifest ⟨L, w, []⟩).2.ledger = reconcile (L.setRunState .aborted) := by
  obtain ⟨done, taskId, rest, horder, hdone, hsome, hnot, hctl⟩ := habort
  have hloop : driveLoop h cfg manifest.taskGraph (done ++ taskId :: rest) (completedIds L)
      ⟨L.setRunState .running, w, []⟩
        = (.ok .aborted, ⟨L.setRunState .running, (h.control w).2, []⟩) :=
    driveLoop_past_done hdone hsome hnot hctl
  rw [resume_snd, driveSession, horder]
  dsimp only
  rw [hloop]
  exact ⟨rfl, rfl⟩

/-- A decision logs its own event only. -/
lemma resolve_bodies {L L' : Ledger} {blockerId decision atTime : String} {actor : Actor}
    (hres : resolveBlocker L blockerId decision actor atTime = .ok L') :
    L'.control = L.control ∧ ∃ e, L'.bodies = L.bodies ++ [e] ∧ e.kind = .resolution := by
  obtain ⟨resolution, subject, ⟨rfl, -⟩ | ⟨-, b, -, rfl⟩⟩ := resolveBlocker_cases hres
  · exact ⟨rfl, _, bodies_recordResolution L resolution subject, rfl⟩
  · exact ⟨rfl, _, bodies_recordResolution (L.override b) resolution subject, rfl⟩

/-! ### Main results -/

/-- What stays of an aborted ledger: it is aborted, and no task has been logged as started since. -/
structure StaysAborted (L₀ L : Ledger) : Prop where
  state : L.control.runState = .aborted
  log : ∃ events, L.bodies = L₀.bodies ++ events ∧ ∀ e ∈ events, e.kind ≠ .taskStarted

/-- **One operation** keeps an aborted ledger aborted, if it heeds the abort. -/
lemma LedgerOp.staysAborted {L₀ L : Ledger} {op : LedgerOp} (h : StaysAborted L₀ L)
    (hheeds : op.HeedsAbort L) : op.effects L = [] ∧ StaysAborted L₀ (op.after L) := by
  obtain ⟨hstate, events, hlog, hquiet⟩ := h
  cases op with
  | resume h cfg manifest w =>
      obtain ⟨heffects, hledger⟩ := resume_aborted cfg (hheeds hstate)
      refine ⟨heffects, ?_, events, ?_, hquiet⟩
      · rw [LedgerOp.after, hledger, reconcile_runState]
        rfl
      · rw [LedgerOp.after, hledger]
        exact hlog
  | resolve blockerId decision atTime actor =>
      refine ⟨rfl, ?_⟩
      rw [LedgerOp.after]
      split
      · rename_i L' hres
        obtain ⟨hcontrol, e, hbodies, hkind⟩ := resolve_bodies hres
        refine ⟨by rw [hcontrol, hstate], events ++ [e], ?_, fun e' he' => ?_⟩
        · rw [hbodies, hlog, List.append_assoc]
        · rcases List.mem_append.mp he' with he' | he'
          · exact hquiet e' he'
          · rw [List.mem_singleton.mp he', hkind]
            decide
      · exact ⟨hstate, events, hlog, hquiet⟩

/-- **Aborted is terminal, where it is heeded.**  Take any operations on an aborted ledger, resumes
and decisions in any order, in which every resume of an aborted ledger is told to abort at its first
checkpoint.  No operation calls the executor, the ledger is aborted before and after each of them,
and no event of a started task is logged. -/
theorem aborted_terminal {L₀ L : Ledger} {moves : List (Ledger × LedgerOp)}
    (hrun : LedgerRun L₀ moves L) (haborted : L₀.control.runState = .aborted)
    (hheeds : ∀ m ∈ moves, m.2.HeedsAbort m.1) :
    (∀ m ∈ moves, m.2.effects m.1 = [] ∧ StaysAborted L₀ m.1) ∧ StaysAborted L₀ L := by
  have hstart : StaysAborted L₀ L₀ := ⟨haborted, [], by rw [List.append_nil], by simp⟩
  have hall := hrun.invariant_of hstart fun L op L' hmem hL hstep => by
    subst hstep
    exact (LedgerOp.staysAborted hL (hheeds _ hmem)).2
  exact ⟨fun m hm => ⟨(LedgerOp.staysAborted (hall.1 m hm) (hheeds m hm)).1, hall.1 m hm⟩, hall.2⟩

end Runtime

section Example

attribute [local instance] cpython

/-- A host whose executor succeeds, and whose control answers as scripted. -/
private def abortingHost : Host MockWorld := mockHost [] scriptNow

/-- The independent tasks `T1` and `T2`. -/
private def twoTasks : Manifest := scriptManifest [("T1", []), ("T2", [])]

/-- The ledger of a run that is aborted between its tasks. -/
private def abortedRun : Option Ledger :=
  playRun (fun _ _ => true) twoTasks [] [.running, .aborted] []

private lemma abortedRun_reached {L : Ledger} (h : abortedRun = some L) :
    Reached (fun _ => True) (fun _ _ => True) L :=
  (@playRun_reached _ (fun _ => True) _ _ trivial (scriptManifest_roots _) _ _ _ _ h).mono
    (fun _ h => h) fun _ _ _ => trivial

/-- Resumes that are told to abort leave the run aborted. -/
theorem aborted_terminal_heeded :
    ∃ (L : Ledger) (op : LedgerOp), Reached (fun _ => True) (fun _ _ => True) L
      ∧ L.control.runState = .aborted
      ∧ op = .resume abortingHost scriptConfig twoTasks (.fresh [.aborted])
      ∧ op.effects L = [] ∧ StaysAborted L (op.after L) := by
  obtain ⟨L, hL, hchecks⟩ : ∃ L, abortedRun = some L ∧ decide (L.control.runState = .aborted
      ∧ L.Done "T1" ∧ (L.task? "T2").isSome ∧ ¬ L.Done "T2") = true := by
    refine (Option.any_eq_true _ _).mp ?_
    decide +kernel
  obtain ⟨hstate, hdone, hsome, hnot⟩ := of_decide_eq_true hchecks
  have hstops : AbortsAtOnce abortingHost twoTasks (.fresh [.aborted]) L :=
    ⟨["T1"], "T2", [], by decide +kernel, by simpa using hdone, hsome, hnot, rfl⟩
  let op : LedgerOp := .resume abortingHost scriptConfig twoTasks (.fresh [.aborted])
  have hrun : LedgerRun L [(L, op)] (op.after L) := Plays.start.move rfl
  obtain ⟨hmoves, hfinal⟩ := aborted_terminal hrun hstate fun m hm => by
    rw [List.mem_singleton.mp hm]
    exact fun _ => hstops
  exact ⟨L, op, abortedRun_reached hL, hstate, rfl, (hmoves _ (List.mem_singleton_self _)).1,
    hfinal⟩

/-- **An aborted run that goes on**: it is aborted behind `T1`, and a resume runs `T2`. -/
theorem aborted_resumed :
    ∃ (L : Ledger) (op : LedgerOp), Reached (fun _ => True) (fun _ _ => True) L
      ∧ L.control.runState = .aborted ∧ op = .resume abortingHost scriptConfig twoTasks (.fresh [])
      ∧ op.effects L = [.execute "T2"] ∧ (op.after L).control.runState = .completed
      ∧ startedEvents "T2" L.bodies = 0 ∧ startedEvents "T2" (op.after L).bodies = 1 := by
  obtain ⟨L, hL, hchecks⟩ : ∃ L, abortedRun = some L ∧ decide (L.control.runState = .aborted
      ∧ startedEvents "T2" L.bodies = 0 ∧ (driveSession abortingHost scriptConfig twoTasks
        (completedIds L) ⟨L.setRunState .running, .fresh [], []⟩).2.effects = [.execute "T2"]
      ∧ (driveSession abortingHost scriptConfig twoTasks (completedIds L)
        ⟨L.setRunState .running, .fresh [], []⟩).2.ledger.control.runState = .completed
      ∧ startedEvents "T2" (driveSession abortingHost scriptConfig twoTasks (completedIds L)
        ⟨L.setRunState .running, .fresh [], []⟩).2.ledger.bodies = 1) = true := by
    refine (Option.any_eq_true _ _).mp ?_
    decide +kernel
  obtain ⟨hstate, hbefore, heffects, hend, hafter⟩ := of_decide_eq_true hchecks
  refine ⟨L, _, abortedRun_reached hL, hstate, rfl, ?_, ?_, hbefore, ?_⟩
  · rw [LedgerOp.effects, resume_snd]
    exact heffects
  · rw [LedgerOp.after, resume_snd]
    exact hend
  · rw [LedgerOp.after, resume_snd]
    exact hafter

end Example

end IplanRunner
