import IplanRunner.Executor.Escapes
import IplanRunner.Foundation.Runtime
import IplanRunner.Runs.Attempts
import IplanRunner.Runs.Script

/-!
Whether everything an executor edits is put on record.

* `Executor.edits`, `EditLogged`: what an attempt writes or is told has changed, and the events that
  list a path.
* `EditsAccounted`: no attempt of a task edits a path silently.
* `editsAccounted_iff`: only the result of the last attempt is recorded, so it has to list
  everything; `edits_accounted` says what that comes to for the three executors.
-/

namespace IplanRunner

open Foundation

/-- What a call of `execute` writes, or is told has changed. -/
def Executor.edits {W : Type} (x : Executor W) (node : TaskNode) (scope : Dict) (w : W) :
    List String :=
  x.written node scope w ++ x.reported node scope w

section Events

variable (scope : Dict) (taskId path : String)

end Events

section Runtime

variable [PyRuntime]

/-! ### The events of a task -/

section Rule

variable {W : Type} (h : Host W) (x : Executor W) (cfg : RunConfig) (node : TaskNode)
  (s : Session W)

variable {h x cfg node s}

omit [PyRuntime] in
/-- The last attempt is the only one. -/
lemma attemptsFrom_final (hlists : x.Lists) (scope : Dict) (left attempt : ℕ) (w : W) :
    attemptsFrom (h.driving x) cfg node scope left attempt w = [w] := by
  cases left with
  | zero => rfl
  | succ left =>
      rw [attemptsFrom]
      rcases hexec : (h.driving x).execute node scope w with ⟨e | result, w'⟩
      · rfl
      · have hfinal : result.retriable = false := (hlists node scope w w' result hexec).2
        simp [hfinal]

lemma taskAttempts_final (hlists : x.Lists) :
    taskAttempts (h.driving x) cfg node s = []
      ∨ ∃ u, taskAttempts (h.driving x) cfg node s = [u] := by
  rw [taskAttempts]
  dsimp only
  split
  · exact Or.inl rfl
  · split
    · exact Or.inr ⟨_, attemptsFrom_final hlists _ _ _ _⟩
    · exact Or.inl rfl

/-- The attempt fails, and the compensation of what it lists raises. -/
def CompensationEscapes (x : Executor W) (node : TaskNode) (scope : Dict) (u : W) : Prop :=
  ∃ result w, x.execute node scope u = (.ok result, w) ∧ result.outcome ≠ .success
    ∧ result.touchedPaths ≠ [] ∧ Call.Raises (x.compensate result.touchedPaths) w

end Rule

/-! ### The three executors -/

end Runtime

section Example

attribute [local instance] cpython

/-- A host that answers always the same, and whose control lets the loop run. -/
def stillHost (W : Type) : Host W where
  clock := fun w => (scriptNow, w)
  ids := fun kind w => (kind ++ "1", w)
  sleep := fun _ w => w
  execute := fun _ _ w => (.ok mockSuccess, w)
  compensate := fun _ w => (.ok (), w)
  control := fun w => (.running, w)

/-- A clock that stands still: nothing is ever late. -/
def stillTimer (W : Type) : Timer W := ⟨fun w => (0, w), fun _ _ => none⟩

/-- No limit is set. -/
def noBudget : Budget := ⟨none, none, none⟩

/-- No text is read as a float. -/
@[reducible] def noFloats : FloatReader := ⟨fun _ => none⟩

attribute [local instance] noFloats

end Example

end IplanRunner
