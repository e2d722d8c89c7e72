import IplanRunner.Foundation.Calls
import IplanRunner.Foundation.Python

/-!
Acceptance checks and their redacted output (`evidence/runner.py`, `redaction.py`).

* `redact`: the secrets are replaced one after the other, longer ones first.
* `runChecks`: every check is run, also behind one that failed; what it raises ends the loop.
-/

namespace IplanRunner

open Foundation

/-! ### Redaction -/

/-- `str.replace` on characters, `skip` of which belong to an occurrence that has been replaced. -/
def replaceGo (old new : List Char) : ℕ → List Char → List Char
  | _, [] => []
  | skip + 1, _ :: rest => replaceGo old new skip rest
  | 0, c :: rest =>
      if old.isPrefixOf (c :: rest) then new ++ replaceGo old new (old.length - 1) rest
      else c :: replaceGo old new 0 rest

/-- `value.replace(old, new)`, for a text `old` that is not empty. -/
def replaceText (value old new : String) : String :=
  String.ofList (replaceGo old.toList new.toList 0 value.toList)

/-- `sorted((s for s in secrets if s), key=len, reverse=True)`. -/
def bySize (secrets : List String) : List String :=
  (secrets.filter (· != "")).mergeSort fun a b => decide (b.length ≤ a.length)

/-- `redact`. -/
def redact (value : String) (secrets : List String) : String :=
  (bySize secrets).foldl (fun result secret => replaceText result secret "***") value

/-! ### Checks -/

/-- What `run_command` returns. -/
structure CommandOutcome where
  exitCode : ℤ
  output : String
  deriving DecidableEq, Repr

/-- An entry of the results of `run_checks`. -/
structure CheckResult where
  name : Val
  exitCode : ℤ
  output : String
  deriving DecidableEq

/-- What `run_checks` returns. -/
structure CheckReport where
  passed : Bool
  results : List CheckResult
  deriving DecidableEq

section Checks

variable {W : Type} (runCommand : Val → Call PyErr W CommandOutcome) (secrets : List String)

/-- One check. -/
def runCheck (check : Val) : Call PyErr W CheckResult := do
  let command ← Call.ofExcept (check.item "command")
  let outcome ← runCommand command
  let name ← Call.ofExcept (check.get "name")
  return ⟨name, outcome.exitCode, redact outcome.output secrets⟩

/-- The loop of `run_checks`. -/
def runCheckList : List Val → CheckReport → Call PyErr W CheckReport
  | [], report => pure report
  | check :: rest, report => do
      let result ← runCheck runCommand secrets check
      runCheckList rest
        ⟨report.passed && result.exitCode == 0, report.results ++ [result]⟩

/-- `run_checks`. -/
def runChecks (checks : List Val) : Call PyErr W CheckReport :=
  runCheckList runCommand secrets checks ⟨true, []⟩

/-! ### What the commands keep -/

variable {runCommand secrets} {R : W → W → Prop}

/-- A check moves the world as its command does. -/
lemma runCheck_moves (hrefl : ∀ w, R w w) (htrans : ∀ {u v w}, R u v → R v w → R u w) {check : Val}
    (hrun : ∀ cmd, check.item "command" = .ok cmd → Call.Moves R (runCommand cmd)) :
    Call.Moves R (runCheck runCommand secrets check) := by
  have hpure : ∀ {α : Type} (x : Except PyErr α), Call.Moves R (Call.ofExcept x : Call PyErr W α) :=
    fun x => Call.moves_of_keep hrefl fun _ => rfl
  rw [runCheck]
  cases hcommand : check.item "command" with
  | error e => exact hpure (.error e)
  | ok cmd =>
      have hbind : ∀ f : Val → Call PyErr W CheckResult,
          (Call.ofExcept (.ok cmd) >>= f) = f cmd := fun _ => rfl
      rw [hbind]
      refine Call.Moves.bind (R := R) htrans (hrun cmd hcommand) fun outcome => ?_
      exact Call.Moves.bind (R := R) htrans (hpure _) fun name => hpure (.ok _)

/-- **The checks move the world as their commands do.** -/
theorem runCheckList_moves (hrefl : ∀ w, R w w) (htrans : ∀ {u v w}, R u v → R v w → R u w)
    {checks : List Val} (hrun : ∀ check ∈ checks, ∀ cmd, check.item "command" = .ok cmd →
      Call.Moves R (runCommand cmd)) (report : CheckReport) :
    Call.Moves R (runCheckList runCommand secrets checks report) := by
  induction checks generalizing report with
  | nil => exact Call.moves_of_keep hrefl fun _ => rfl
  | cons check checks ih =>
      obtain ⟨hone, hrest⟩ := List.forall_mem_cons.mp hrun
      rw [runCheckList]
      exact Call.Moves.bind (R := R) htrans (runCheck_moves hrefl htrans hone) fun _ => ih hrest _

end Checks

end IplanRunner
