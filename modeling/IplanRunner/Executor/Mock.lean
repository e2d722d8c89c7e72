import IplanRunner.Executor.Base

/-!
The deterministic executor of the test suite (`executor/mock.py`), with the clock, the ids and the
control a run is scripted with.

* `MockSpec`, `mockExecute`: the outcomes of a task, one for every call or one after the other.
* `MockWorld`, `mockHost`: a fresh `MockExecutor`, a fresh `IdSource`, a clock that stands still and
  the answers `control` gives before it lets the loop run.
-/

namespace IplanRunner

open Foundation

/-- The outcomes of a task: always the same, or the `attempts` in turn, the last one repeated. -/
inductive MockSpec where
  | always (chosen : ExecutorResult)
  | attempts (sequence : List ExecutorResult)

/-- `ExecutorResult()` of a specification that says nothing. -/
def mockSuccess : ExecutorResult := ⟨.success, [], none, none, false⟩

/-- The outcome `{"outcome": "failure"}`. -/
def mockFailure : ExecutorResult := ⟨.failure, [], none, none, false⟩

/-- What scripted calls remember. -/
structure MockWorld where
  calls : List (String × ℕ)
  counters : IdCounters
  answers : List ControlAnswer

/-- A world in which nothing has been called. -/
def MockWorld.fresh (answers : List ControlAnswer) : MockWorld := ⟨[], [], answers⟩

variable [PyRuntime]

/-- `MockExecutor.execute`. -/
def mockExecute (outcomes : List (String × MockSpec)) (node : TaskNode) (w : MockWorld) :
    Except PyErr ExecutorResult × MockWorld :=
  let taskId := node.taskId.pyStr
  match outcomes.lookup taskId with
  | none => (.ok mockSuccess, w)
  | some (.always chosen) => (.ok chosen, w)
  | some (.attempts sequence) =>
      let index := (w.calls.lookup taskId).getD 0
      match sequence[min index (sequence.length - 1)]? with
      | none => (.error (.other "IndexError"), w)
      | some chosen =>
          (.ok chosen,
            { w with calls := (taskId, index + 1) :: w.calls.filter (·.1 != taskId) })

/-- A scripted host: `control` gives the answers of the world, then `"running"`. -/
def mockHost (outcomes : List (String × MockSpec)) (now : String) : Host MockWorld where
  clock := fun w => (now, w)
  ids := fun kind w =>
    ((idSource kind w.counters).1, { w with counters := (idSource kind w.counters).2 })
  sleep := fun _ w => w
  execute := fun node _ w => mockExecute outcomes node w
  compensate := fun _ w => (.ok (), w)
  control := fun w => (w.answers.headD .running, { w with answers := w.answers.tail })

end IplanRunner
