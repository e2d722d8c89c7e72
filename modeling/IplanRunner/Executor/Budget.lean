import IplanRunner.Effectors.Sandbox
import IplanRunner.Executor.Actions

/-!
Resource budgets (`budget.py`), and the way `ApiExecutor` and `HostRuntimeExecutor` hold a client to
one.

* `Budget`, `Usage`, `checkBudget`: the limits, what has been used, and the decision; amounts are
  exact numbers.
* `Timer`, `runWithDeadline`: the clock, and a call that is given up when it takes too long.
* `consult`, `account`: what both executors do before they look at what the client answered.
-/

namespace IplanRunner

open Foundation

/-- `Budget`. -/
structure Budget where
  maxTokens : Option ℤ
  maxCostUsd : Option ℚ
  maxWallS : Option ℚ
  deriving DecidableEq

/-- The counters `_usage` of an executor. -/
structure Usage where
  tokens : ℤ
  costUsd : ℚ
  wallS : ℚ
  deriving DecidableEq

/-- The counters of a new executor. -/
def Usage.zero : Usage := ⟨0, 0, 0⟩

/-- A limit that is set has been exceeded. -/
def exceeds {α : Type} [LT α] [DecidableLT α] (limit : Option α) (used : α) : Bool :=
  limit.any fun most => most < used

/-- `check`. -/
def checkBudget (budget : Budget) (usage : Usage) : Decision :=
  if exceeds budget.maxTokens usage.tokens then ⟨false, "BUDGET.TOKENS_EXCEEDED"⟩
  else if exceeds budget.maxCostUsd usage.costUsd then ⟨false, "BUDGET.COST_EXCEEDED"⟩
  else if exceeds budget.maxWallS usage.wallS then ⟨false, "BUDGET.TIME_EXCEEDED"⟩
  else ⟨true, "BUDGET.OK"⟩

/-- `float()` of a text. -/
class FloatReader where
  floatOfText : String → Option ℚ

/-- `float(v)`. -/
def pyFloat [FloatReader] : Val → Except PyErr ℚ
  | .bool b => .ok (if b then 1 else 0)
  | .int n => .ok n
  | .float q _ => .ok q
  | .str s =>
      match FloatReader.floatOfText s with
      | some q => .ok q
      | none => .error (.valueError "could not convert string to float")
  | _ => .error .typeError

/-! ### Time -/

/-- `time.monotonic()`, and whether a call that may take so long does not finish in time: the world
the caller goes on in then. -/
structure Timer (W : Type) where
  monotonic : W → ℚ × W
  late : ℚ → W → Option W

/-- `DeadlineExceeded`. -/
def deadlineExceeded : PyErr := .other "DeadlineExceeded"

section Client

variable {W : Type} (timer : Timer W) (budget : Budget) {α : Type}

/-- `run_with_deadline`. -/
def runWithDeadline (fn : Call PyErr W α) : Option ℚ → Call PyErr W α
  | none => fn
  | some limit => fun w =>
      match timer.late limit w with
      | some w' => (.error deadlineExceeded, w')
      | none => fn w

/-- `time.monotonic()`. -/
def readTimer : Call PyErr (W × Usage) ℚ := fun s =>
  (.ok (timer.monotonic s.1).1, ((timer.monotonic s.1).2, s.2))

/-- `self._usage["wall_s"] += time.monotonic() - started`. -/
def spendWall (started : ℚ) : Call PyErr (W × Usage) Unit := do
  let now ← readTimer timer
  Call.modify fun s => (s.1, { s.2 with wallS := s.2.wallS + (now - started) })

/-- `except DeadlineExceeded`: `none` when the call was given up. -/
def catchDeadline (call : Call PyErr (W × Usage) α) : Call PyErr (W × Usage) (Option α) := fun s =>
  match call s with
  | (.ok a, s') => (.ok (some a), s')
  | (.error e, s') => (if e = deadlineExceeded then .ok none else .error e, s')

/-- The call of the client under the wall limit, and the time it took. -/
def timedCall (call : Call PyErr W α) : Call PyErr (W × Usage) (Option α) := do
  let started ← readTimer timer
  let answer ← catchDeadline (Call.onFst (runWithDeadline timer call budget.maxWallS))
  spendWall timer started
  return answer

/-- `ExecutorResult(outcome="failure", reason=f"budget: ...")`. -/
def budgetFailure (reason : String) : ExecutorResult :=
  ⟨.failure, [], none, some s!"budget: {reason}", false⟩

/-- The beginning of `execute`, up to the answer of the client: a result that ends it, or the
answer. -/
def consult (call : Call PyErr W α) : Call PyErr (W × Usage) (ExecutorResult ⊕ α) := do
  let pre := checkBudget budget (← Call.get).2
  if !pre.allowed then return .inl (budgetFailure pre.reason)
  match ← timedCall timer budget call with
  | none => return .inl (budgetFailure "BUDGET.TIME_EXCEEDED")
  | some answer => return .inr answer

/-- The usage the client reports is added up, and checked again: a result that ends `execute`. -/
def account [FloatReader] (reported : Dict) : Call PyErr (W × Usage) (Option ExecutorResult) := do
  let tokens ← Call.ofExcept ((reported.lookup "tokens").getD (.int 0)).pyInt
  Call.modify fun s => (s.1, { s.2 with tokens := s.2.tokens + tokens })
  let cost ← Call.ofExcept (pyFloat ((reported.lookup "cost_usd").getD (.float 0 "0.0")))
  Call.modify fun s => (s.1, { s.2 with costUsd := s.2.costUsd + cost })
  let post := checkBudget budget (← Call.get).2
  if !post.allowed then return some (budgetFailure post.reason)
  return none

/-! ### Results that end a call early -/

/-- What ends `execute` before the actions lists nothing and is final. -/
def Early (result : ExecutorResult) : Prop :=
  result.outcome = .failure ∧ result.touchedPaths = [] ∧ result.retriable = false

lemma early_budgetFailure (reason : String) : Early (budgetFailure reason) := ⟨rfl, rfl, rfl⟩

variable {timer budget}

lemma consult_early {call : Call PyErr W α} {s s' : W × Usage} {result : ExecutorResult}
    (h : consult timer budget call s = (.ok (.inl result), s')) : Early result := by
  rw [consult] at h
  obtain ⟨usage, s₁, -, h⟩ := Call.bind_eq_ok.mp h
  split at h
  · cases h
    exact early_budgetFailure _
  · obtain ⟨answer, s₂, -, h⟩ := Call.bind_eq_ok.mp h
    cases answer with
    | none =>
        cases h
        exact early_budgetFailure _
    | some answer => cases h

lemma account_early [FloatReader] {reported : Dict} {s s' : W × Usage} {result : ExecutorResult}
    (h : account budget reported s = (.ok (some result), s')) : Early result := by
  rw [account] at h
  obtain ⟨tokens, s₁, -, h⟩ := Call.bind_eq_ok.mp h
  obtain ⟨-, s₂, -, h⟩ := Call.bind_eq_ok.mp h
  obtain ⟨cost, s₃, -, h⟩ := Call.bind_eq_ok.mp h
  obtain ⟨-, s₄, -, h⟩ := Call.bind_eq_ok.mp h
  obtain ⟨usage, s₅, -, h⟩ := Call.bind_eq_ok.mp h
  split at h
  · cases h
    exact early_budgetFailure _
  · cases h

/-! ### When a call raises -/

/-- The client raises, and not because it was given up. -/
def ClientRaises (timer : Timer W) (budget : Budget) (call : Call PyErr W α) (w : W) : Prop :=
  ∃ e, (runWithDeadline timer call budget.maxWallS (timer.monotonic w).2).1 = .error e
    ∧ e ≠ deadlineExceeded

lemma timedCall_raises_iff {call : Call PyErr W α} {s : W × Usage} :
    (timedCall timer budget call).Raises s ↔ ClientRaises timer budget call s.1 := by
  have hread : readTimer timer s = (.ok (timer.monotonic s.1).1, ((timer.monotonic s.1).2, s.2)) :=
    rfl
  rw [timedCall, Call.Raises, Call.bind_ok hread, ClientRaises]
  rcases hrun : runWithDeadline timer call budget.maxWallS (timer.monotonic s.1).2 with ⟨e | a, w⟩
  · have hcatch : catchDeadline (Call.onFst (runWithDeadline timer call budget.maxWallS))
        ((timer.monotonic s.1).2, s.2)
          = (if e = deadlineExceeded then .ok none else .error e, (w, s.2)) := by
      rw [catchDeadline, Call.onFst_apply, hrun]
    by_cases hlate : e = deadlineExceeded
    · rw [if_pos hlate] at hcatch
      rw [Call.bind_ok hcatch]
      simp [Call.bind_apply, readTimer, spendWall, hlate]
    · rw [if_neg hlate] at hcatch
      rw [Call.bind_error hcatch]
      simp [hlate]
  · have hcatch : catchDeadline (Call.onFst (runWithDeadline timer call budget.maxWallS))
        ((timer.monotonic s.1).2, s.2) = (.ok (some a), (w, s.2)) := by
      rw [catchDeadline, Call.onFst_apply, hrun]
    rw [Call.bind_ok hcatch]
    simp [Call.bind_apply, readTimer, spendWall]

lemma consult_raises_iff {call : Call PyErr W α} {s : W × Usage} :
    (consult timer budget call).Raises s
      ↔ (checkBudget budget s.2).allowed = true ∧ ClientRaises timer budget call s.1 := by
  rw [consult, Call.Raises, Call.bind_ok (Call.get_apply s)]
  by_cases hpre : (checkBudget budget s.2).allowed = true
  · rw [if_neg (by simpa using hpre)]
    constructor
    · intro h
      obtain h | ⟨answer, s', -, h⟩ := Call.raises_bind_iff.mp h
      · exact ⟨hpre, timedCall_raises_iff.mp h⟩
      · cases answer <;> exact absurd h (Call.not_raises_pure _ _)
    · rintro ⟨-, h⟩
      exact Call.raises_bind_iff.mpr (Or.inl (timedCall_raises_iff.mpr h))
  · rw [if_pos (by simpa using hpre)]
    simp [hpre]

/-- The usage the client reports is no numbers. -/
def UsageUnreadable [FloatReader] (reported : Dict) : Prop :=
  (∃ e, ((reported.lookup "tokens").getD (.int 0)).pyInt = .error e)
    ∨ ∃ e, pyFloat ((reported.lookup "cost_usd").getD (.float 0 "0.0")) = .error e

lemma account_raises_iff [FloatReader] {reported : Dict} {s : W × Usage} :
    (account budget reported).Raises s ↔ UsageUnreadable reported := by
  rw [account, UsageUnreadable, Call.Raises]
  cases htokens : ((reported.lookup "tokens").getD (.int 0)).pyInt with
  | error e => simp [Call.bind_apply]
  | ok tokens =>
      cases hcost : pyFloat ((reported.lookup "cost_usd").getD (.float 0 "0.0")) with
      | error e => simp [Call.bind_apply]
      | ok cost =>
          simp only [Call.bind_apply, Call.ofExcept_apply, Call.modify_apply, Call.get_apply]
          split <;> simp

end Client

end IplanRunner
