import IplanRunner.Foundation.Calls
import IplanRunner.Intake.Manifest
import IplanRunner.Ledger.Types

/-!
The executor seam (`executor/base.py`) and everything else the run loop calls outside itself.

* `ExecutorResult`, `Effect`, `Host`: what an executor answers, what the loop causes in the world,
  and the world itself: executor, clock, id source, `sleep` and control, over a state `W` of their
  own.
* `Session`, `Loop`: the ledger a loop works on, the world, and the calls made so far.
* `idSource`: the counters of `IdSource`.
-/

namespace IplanRunner

open Foundation

/-- `ExecutorResult.outcome`: whatever is not `"success"` counts as a failure. -/
inductive Outcome where
  | success
  | failure
  deriving DecidableEq, Repr

/-- `ExecutorResult`. -/
structure ExecutorResult where
  outcome : Outcome
  touchedPaths : List String
  evidence : Option Dict
  reason : Option String
  retriable : Bool
  deriving DecidableEq

/-- What the loop causes outside the ledger. -/
inductive Effect where
  | execute (taskId : String)
  | sleep (seconds : ℚ)
  | compensate (paths : List String)
  deriving DecidableEq

/-- The answers of `control()` the loop tells apart; any other text lets it run. -/
inductive ControlAnswer where
  | running
  | paused
  | aborted
  deriving DecidableEq, Repr

/-- What a run is driven with.  The executor and its compensation may raise; both read the task
node, and `execute` the isolation scope of its context. -/
structure Host (W : Type) where
  clock : W → String × W
  ids : String → W → String × W
  sleep : ℚ → W → W
  execute : TaskNode → Dict → W → Except PyErr ExecutorResult × W
  compensate : List String → W → Except PyErr Unit × W
  control : W → ControlAnswer × W

/-- The state of a loop. -/
structure Session (W : Type) where
  ledger : Ledger
  world : W
  effects : List Effect

/-- A call the loop makes. -/
abbrev Loop (W : Type) (α : Type) := Call PyErr (Session W) α

namespace Loop

variable {W : Type} (h : Host W)

/-- The ledger. -/
def ledger : Loop W Ledger := fun s => (.ok s.ledger, s)

/-- Changes the ledger. -/
def update (f : Ledger → Ledger) : Loop W Unit := fun s => (.ok (), { s with ledger := f s.ledger })

/-- `clock()`. -/
def clock : Loop W String := fun s =>
  (.ok (h.clock s.world).1, { s with world := (h.clock s.world).2 })

/-- `ids(prefix)`. -/
def ids (kind : String) : Loop W String := fun s =>
  (.ok (h.ids kind s.world).1, { s with world := (h.ids kind s.world).2 })

/-- `control()`. -/
def control : Loop W ControlAnswer := fun s =>
  (.ok (h.control s.world).1, { s with world := (h.control s.world).2 })

/-- `sleep(seconds)`. -/
def sleep (seconds : ℚ) : Loop W Unit := fun s =>
  (.ok (), { s with world := h.sleep seconds s.world, effects := s.effects ++ [.sleep seconds] })

variable [PyRuntime]

/-- `executor.execute(task, ctx)`. -/
def execute (node : TaskNode) (scope : Dict) : Loop W ExecutorResult := fun s =>
  ((h.execute node scope s.world).1,
    { s with
      world := (h.execute node scope s.world).2
      effects := s.effects ++ [.execute node.taskId.pyStr] })

omit [PyRuntime] in
/-- `executor.compensate(touched_paths)`. -/
def compensate (paths : List String) : Loop W Unit := fun s =>
  ((h.compensate paths s.world).1,
    { s with
      world := (h.compensate paths s.world).2
      effects := s.effects ++ [.compensate paths] })

section Bind

variable {α : Type}

omit [PyRuntime]

@[simp] lemma bind_ledger (k : Ledger → Loop W α) (s : Session W) :
    (ledger >>= k) s = k s.ledger s := rfl

@[simp] lemma bind_update (f : Ledger → Ledger) (k : Unit → Loop W α) (s : Session W) :
    (update f >>= k) s = k () { s with ledger := f s.ledger } := rfl

@[simp] lemma update_apply (f : Ledger → Ledger) (s : Session W) :
    (update f : Loop W Unit) s = (.ok (), { s with ledger := f s.ledger }) := rfl

@[simp] lemma bind_clock (k : String → Loop W α) (s : Session W) :
    (clock h >>= k) s
      = k (h.clock s.world).1 { s with world := (h.clock s.world).2 } := rfl

@[simp] lemma bind_ids (kind : String) (k : String → Loop W α) (s : Session W) :
    (ids h kind >>= k) s
      = k (h.ids kind s.world).1 { s with world := (h.ids kind s.world).2 } := rfl

@[simp] lemma bind_control (k : ControlAnswer → Loop W α) (s : Session W) :
    (control h >>= k) s
      = k (h.control s.world).1 { s with world := (h.control s.world).2 } := rfl

end Bind

end Loop

/-! ### `IdSource` -/

/-- The counters of an `IdSource`, one for each prefix used. -/
abbrev IdCounters := List (String × ℕ)

/-- `IdSource.__call__`. -/
def idSource (kind : String) (counters : IdCounters) : String × IdCounters :=
  let n := (counters.lookup kind).getD 0 + 1
  (s!"{kind}{n}", (kind, n) :: counters.filter (·.1 != kind))

end IplanRunner
