import Mathlib.Algebra.Order.Ring.Unbundled.Rat
import Mathlib.Algebra.Order.Group.Int
import IplanRunner.Executor.Api
import IplanRunner.Executor.HostRuntime

/-!
What a budget is for: over any row of calls of an executor, a blown budget stops the spending.

* `underBudget`: how both executors hold a client to a budget, with what they make of its answer;
  `hostRuntimeExecute_eq` and `apiExecute_eq` say that they are instances of it.
* `outlay`: what a call of the client uses: the time it takes and what it reports.
* `counted`: the calls of the client, counted in the world; `underBudget_spends` says what one call
  of `execute` does to the count and the counters.
* `MeteredCall`, `meteredCalls`, `BudgetLaw`: a row of calls, and what holds of it;
  `budget_stops` says that it holds of both executors.
-/

namespace IplanRunner

open Foundation

/-! ### Usage -/

/-- The counters of two parts together. -/
def Usage.add (a b : Usage) : Usage :=
  ⟨a.tokens + b.tokens, a.costUsd + b.costUsd, a.wallS + b.wallS⟩

@[simp] lemma Usage.add_zero (u : Usage) : u.add Usage.zero = u := by
  simp [Usage.add, Usage.zero]

lemma Usage.add_assoc (u v w : Usage) : (u.add v).add w = u.add (v.add w) := by
  simp [Usage.add, Int.add_assoc, Rat.add_assoc]

/-- The usage is within every limit that is set. -/
structure Within (budget : Budget) (usage : Usage) : Prop where
  tokens : ∀ most, budget.maxTokens = some most → usage.tokens ≤ most
  costUsd : ∀ most, budget.maxCostUsd = some most → usage.costUsd ≤ most
  wallS : ∀ most, budget.maxWallS = some most → usage.wallS ≤ most

lemma exceeds_eq_false_iff {α : Type} [LT α] [DecidableLT α] {limit : Option α} {used : α} :
    exceeds limit used = false ↔ ∀ most, limit = some most → ¬ most < used := by
  cases limit <;> simp [exceeds]

/-- **The check allows** what is within every limit. -/
theorem checkBudget_allowed_iff {budget : Budget} {usage : Usage} :
    (checkBudget budget usage).allowed = true ↔ Within budget usage := by
  have hfields : Within budget usage ↔ exceeds budget.maxTokens usage.tokens = false
      ∧ exceeds budget.maxCostUsd usage.costUsd = false
      ∧ exceeds budget.maxWallS usage.wallS = false := by
    simp only [exceeds_eq_false_iff, not_lt]
    exact ⟨fun h => ⟨h.tokens, h.costUsd, h.wallS⟩, fun h => ⟨h.1, h.2.1, h.2.2⟩⟩
  rw [hfields, checkBudget]
  split_ifs <;> simp_all

/-! ### Both executors -/

section Both

variable [FloatReader] {W α : Type} (timer : Timer W) (budget : Budget)

/-- An `execute` that holds a client to a budget, with what it makes of an answer. -/
def underBudget (call : Call PyErr W α) (usageOf : α → Dict)
    (finish : α → Call PyErr (W × Usage) ExecutorResult) :
    Call PyErr (W × Usage) ExecutorResult := do
  match ← consult timer budget call with
  | .inl result => return result
  | .inr answer =>
      match ← account budget (usageOf answer) with
      | some refused => return refused
      | none => finish answer

/-- `HostRuntimeExecutor.execute` governs what the runtime answers. -/
lemma hostRuntimeExecute_eq (client : TaskNode → Call PyErr W RuntimeResult) (node : TaskNode)
    (scope : Dict) : hostRuntimeExecute timer client budget node scope
      = underBudget timer budget (client node) RuntimeResult.usage fun result =>
        Call.ofExcept (governResult result scope) := by
  unfold hostRuntimeExecute underBudget
  refine bind_congr fun consulted => ?_
  cases consulted with
  | inl result => rfl
  | inr answer =>
      refine bind_congr fun refused => ?_
      cases refused with
      | none => rfl
      | some refused => rfl

/-- What `ApiExecutor.execute` makes of an answer. -/
def applyProposed [PyRuntime] [JsonReader] (eff : Effectors W) (secrets : List String)
    (scope : Dict) (response : ModelResponse) : Call PyErr (W × Usage) ExecutorResult := do
  match ← Call.ofExcept (parseActions response.text) with
  | none => return ⟨.failure, [], none, some "unparseable model output", false⟩
  | some spec =>
      let roots ← Call.ofExcept (scopeRoots scope)
      Call.onFst (applyTaskSpec eff roots secrets (.dict spec))

/-- `ApiExecutor.execute` applies what the model proposes. -/
lemma apiExecute_eq [PyRuntime] [JsonReader] (client : String → Call PyErr W ModelResponse)
    (eff : Effectors W) (secrets : List String) (node : TaskNode) (scope : Dict) :
    apiExecute timer client budget eff secrets node scope
      = underBudget timer budget (client (buildPrompt node)) ModelResponse.usage
        (applyProposed eff secrets scope) := by
  funext s
  rw [apiExecute, proposeActions, underBudget, Call.bind_apply, Call.bind_apply, Call.bind_apply]
  rcases consult timer budget (client (buildPrompt node)) s with ⟨e | result | response, s₁⟩
  · rfl
  · rfl
  · dsimp only
    rw [Call.bind_apply, Call.bind_apply]
    rcases account budget response.usage s₁ with ⟨e | _ | refused, s₂⟩
    · rfl
    · dsimp only
      rw [applyProposed, Call.bind_apply, Call.bind_apply, Call.ofExcept_apply]
      rcases parseActions response.text with e | _ | spec
      · rfl
      · rfl
      · dsimp only
        rw [Call.bind_apply, Call.bind_apply, Call.ofExcept_apply]
        rcases scopeRoots scope with e | roots
        · rfl
        · rfl
    · rfl

end Both

/-! ### What a call of the client uses -/

section Outlay

variable [FloatReader] {W α : Type} (timer : Timer W)

/-- What a report adds to the counters, up to a number that cannot be read. -/
def reportedUsage (reported : Dict) : Usage :=
  match ((reported.lookup "tokens").getD (.int 0)).pyInt with
  | .error _ => Usage.zero
  | .ok tokens =>
      ⟨tokens, (pyFloat ((reported.lookup "cost_usd").getD (.float 0 "0.0"))).toOption.getD 0, 0⟩

/-- The time that has passed when a call begun in one world has ended in another. -/
def elapsed (w w' : W) : Usage := ⟨0, 0, (timer.monotonic w').1 - (timer.monotonic w).1⟩

/-- What a call of the client uses in a world: the time until it answers or is given up, and what it
reports.  One that raises uses nothing. -/
def outlay (limit : Option ℚ) (call : Call PyErr W α) (usageOf : α → Dict) (w : W) : Usage :=
  match runWithDeadline timer call limit (timer.monotonic w).2 with
  | (.ok answer, w') => (elapsed timer w w').add (reportedUsage (usageOf answer))
  | (.error e, w') => if e = deadlineExceeded then elapsed timer w w' else Usage.zero

lemma outlay_of_answer {limit : Option ℚ} {call : Call PyErr W α} {usageOf : α → Dict} {w w' : W}
    {answer : α} (h : runWithDeadline timer call limit (timer.monotonic w).2 = (.ok answer, w')) :
    outlay timer limit call usageOf w
      = (elapsed timer w w').add (reportedUsage (usageOf answer)) := by
  rw [outlay, h]

lemma outlay_of_error {limit : Option ℚ} {call : Call PyErr W α} {usageOf : α → Dict} {w w' : W}
    {e : PyErr} (h : runWithDeadline timer call limit (timer.monotonic w).2 = (.error e, w')) :
    outlay timer limit call usageOf w
      = if e = deadlineExceeded then elapsed timer w w' else Usage.zero := by
  rw [outlay, h]

/-- The counters after a report. -/
lemma account_usage (budget : Budget) (reported : Dict) (s : W × Usage) :
    (account budget reported s).2 = (s.1, s.2.add (reportedUsage reported)) := by
  rw [account, reportedUsage]
  cases htokens : ((reported.lookup "tokens").getD (.int 0)).pyInt with
  | error e => simp [Call.bind_apply]
  | ok tokens =>
      cases hcost : pyFloat ((reported.lookup "cost_usd").getD (.float 0 "0.0")) with
      | error e => simp [Call.bind_apply, Usage.add, Except.toOption]
      | ok cost =>
          simp only [Call.bind_apply, Call.ofExcept_apply, Call.modify_apply, Call.get_apply]
          split <;> simp [Usage.add, Except.toOption]

/-- A report that is not refused leaves the usage within the budget. -/
lemma account_within {budget : Budget} {reported : Dict} {s s' : W × Usage}
    (h : account budget reported s = (.ok none, s')) : Within budget s'.2 := by
  rw [account] at h
  obtain ⟨tokens, s₁, -, h⟩ := Call.bind_eq_ok.mp h
  obtain ⟨-, s₂, -, h⟩ := Call.bind_eq_ok.mp h
  obtain ⟨cost, s₃, -, h⟩ := Call.bind_eq_ok.mp h
  obtain ⟨-, s₄, -, h⟩ := Call.bind_eq_ok.mp h
  rw [Call.bind_ok (Call.get_apply s₄)] at h
  split at h
  · cases h
  · rename_i hallowed
    cases h
    exact checkBudget_allowed_iff.mp (by simpa using hallowed)

end Outlay

/-! ### Counting the calls of the client -/

section Counted

variable {W α : Type}

/-- A call that is counted. -/
def counted (call : Call PyErr W α) : Call PyErr (W × ℕ) α := fun s =>
  ((call s.1).1, ((call s.1).2, s.2 + 1))

/-- The clock beside a count: a call that is given up has been made. -/
def Timer.beside (timer : Timer W) : Timer (W × ℕ) where
  monotonic := fun s => ((timer.monotonic s.1).1, ((timer.monotonic s.1).2, s.2))
  late := fun limit s => (timer.late limit s.1).map fun w => (w, s.2 + 1)

/-- The effectors beside a count. -/
def Effectors.beside (eff : Effectors W) : Effectors (W × ℕ) where
  applyWrite := fun path content roots => Call.onFst (eff.applyWrite path content roots)
  runCommand := fun cmd => Call.onFst (eff.runCommand cmd)
  undoWrites := fun touched => Call.onFst (eff.undoWrites touched)

lemma runWithDeadline_counted (timer : Timer W) (call : Call PyErr W α) (limit : Option ℚ)
    (w : W) (n : ℕ) : runWithDeadline timer.beside (counted call) limit (w, n)
      = ((runWithDeadline timer call limit w).1,
          ((runWithDeadline timer call limit w).2, n + 1)) := by
  cases limit with
  | none => rfl
  | some limit =>
      rw [runWithDeadline, runWithDeadline, Timer.beside]
      dsimp only
      cases timer.late limit w with
      | none => rfl
      | some w' => rfl

variable (timer : Timer W) (budget : Budget)

/-- **A call beyond the budget** is refused before the client is called. -/
lemma underBudget_refuses [FloatReader] {call : Call PyErr W α} {usageOf : α → Dict}
    {finish : α → Call PyErr (W × Usage) ExecutorResult} {s : W × Usage}
    (h : ¬ Within budget s.2) : underBudget timer budget call usageOf finish s
      = (.ok (budgetFailure (checkBudget budget s.2).reason), s) := by
  have hpre : (checkBudget budget s.2).allowed = false := by
    rw [← checkBudget_allowed_iff] at h
    simpa using h
  have hconsult : consult timer budget call s
      = (.ok (.inl (budgetFailure (checkBudget budget s.2).reason)), s) := by
    rw [consult, Call.bind_ok (Call.get_apply s), if_pos (by simp [hpre])]
    rfl
  rw [underBudget, Call.bind_ok hconsult]
  rfl

section Consult

variable {timer budget} {call : Call PyErr W α} {w w' : W} {n : ℕ} {u : Usage}

/-- The time of a call is added to the counters. -/
lemma spendWall_beside : spendWall timer.beside (timer.monotonic w).1 ((w', n), u)
    = (.ok (), (((timer.monotonic w').2, n), u.add (elapsed timer w w'))) := by
  simp [spendWall, readTimer, Call.bind_apply, Timer.beside, Usage.add, elapsed]

/-- A call that answers or is given up takes its time. -/
lemma timedCall_returns {answer : Option α}
    (hcatch : catchDeadline (Call.onFst (runWithDeadline timer.beside (counted call)
      budget.maxWallS)) (((timer.monotonic w).2, n), u) = (.ok answer, ((w', n + 1), u))) :
    timedCall timer.beside budget (counted call) ((w, n), u)
      = (.ok answer, (((timer.monotonic w').2, n + 1), u.add (elapsed timer w w'))) := by
  have hread : readTimer timer.beside ((w, n), u)
      = (.ok (timer.monotonic w).1, (((timer.monotonic w).2, n), u)) := rfl
  rw [timedCall, Call.bind_ok hread, Call.bind_ok hcatch, Call.bind_ok spendWall_beside]
  rfl

/-- A call that raises takes none. -/
lemma timedCall_raises {e : PyErr}
    (hcatch : catchDeadline (Call.onFst (runWithDeadline timer.beside (counted call)
      budget.maxWallS)) (((timer.monotonic w).2, n), u) = (.error e, ((w', n + 1), u))) :
    timedCall timer.beside budget (counted call) ((w, n), u) = (.error e, ((w', n + 1), u)) := by
  have hread : readTimer timer.beside ((w, n), u)
      = (.ok (timer.monotonic w).1, (((timer.monotonic w).2, n), u)) := rfl
  rw [timedCall, Call.bind_ok hread, Call.bind_error hcatch]

lemma catchDeadline_answer {answer : α}
    (hended : runWithDeadline timer call budget.maxWallS (timer.monotonic w).2
      = (.ok answer, w')) :
    catchDeadline (Call.onFst (runWithDeadline timer.beside (counted call) budget.maxWallS))
      (((timer.monotonic w).2, n), u) = (.ok (some answer), ((w', n + 1), u)) := by
  rw [catchDeadline, Call.onFst_apply, runWithDeadline_counted, hended]

lemma catchDeadline_error {e : PyErr}
    (hended : runWithDeadline timer call budget.maxWallS (timer.monotonic w).2
      = (.error e, w')) :
    catchDeadline (Call.onFst (runWithDeadline timer.beside (counted call) budget.maxWallS))
      (((timer.monotonic w).2, n), u)
        = (if e = deadlineExceeded then .ok none else .error e, ((w', n + 1), u)) := by
  rw [catchDeadline, Call.onFst_apply, runWithDeadline_counted, hended]

lemma consult_of_within (h : Within budget u) (call : Call PyErr W α) :
    consult timer.beside budget (counted call) ((w, n), u)
      = (timedCall timer.beside budget (counted call) >>= fun answer => match answer with
        | none => return .inl (budgetFailure "BUDGET.TIME_EXCEEDED")
        | some answer => return .inr answer) ((w, n), u) := by
  have hpre : (checkBudget budget u).allowed = true := checkBudget_allowed_iff.mpr h
  rw [consult, Call.bind_ok (Call.get_apply _)]
  exact congrFun (if_neg (by simp [hpre])) _

/-- **A client that answers** is called once, and its time is added. -/
lemma consult_answers {answer : α} (h : Within budget u)
    (hended : runWithDeadline timer call budget.maxWallS (timer.monotonic w).2
      = (.ok answer, w')) : consult timer.beside budget (counted call) ((w, n), u)
        = (.ok (.inr answer),
            (((timer.monotonic w').2, n + 1), u.add (elapsed timer w w'))) := by
  rw [consult_of_within h, Call.bind_ok (timedCall_returns (catchDeadline_answer hended))]
  rfl

/-- **A client that is given up** is called once, and its time is added. -/
lemma consult_gives_up (h : Within budget u)
    (hended : runWithDeadline timer call budget.maxWallS (timer.monotonic w).2
      = (.error deadlineExceeded, w')) : consult timer.beside budget (counted call) ((w, n), u)
        = (.ok (.inl (budgetFailure "BUDGET.TIME_EXCEEDED")),
            (((timer.monotonic w').2, n + 1), u.add (elapsed timer w w'))) := by
  have hcatch := @catchDeadline_error W α timer budget call w w' n u _ hended
  rw [if_pos rfl] at hcatch
  rw [consult_of_within h, Call.bind_ok (timedCall_returns hcatch)]
  rfl

/-- **A client that raises** is called once, and adds nothing. -/
lemma consult_raises {e : PyErr} (h : Within budget u) (hne : e ≠ deadlineExceeded)
    (hended : runWithDeadline timer call budget.maxWallS (timer.monotonic w).2
      = (.error e, w')) : consult timer.beside budget (counted call) ((w, n), u)
        = (.error e, ((w', n + 1), u)) := by
  have hcatch := @catchDeadline_error W α timer budget call w w' n u _ hended
  rw [if_neg hne] at hcatch
  rw [consult_of_within h, Call.bind_error (timedCall_raises hcatch)]

end Consult

variable [FloatReader]

/-- **A call within the budget** calls the client once and adds what that uses; it succeeds only if
the usage is still within the budget. -/
theorem underBudget_spends {call : Call PyErr W α} {usageOf : α → Dict}
    {finish : α → Call PyErr ((W × ℕ) × Usage) ExecutorResult}
    (hfinish : ∀ answer s, (finish answer s).2.1.2 = s.1.2 ∧ (finish answer s).2.2 = s.2)
    {w : W} {n : ℕ} {u : Usage} {out : Except PyErr ExecutorResult} {s' : (W × ℕ) × Usage}
    (h : Within budget u)
    (hrun : underBudget timer.beside budget (counted call) usageOf finish ((w, n), u) = (out, s')) :
    s'.1.2 = n + 1 ∧ s'.2 = u.add (outlay timer budget.maxWallS call usageOf w)
      ∧ ∀ result, out = .ok result → result.outcome = .success → Within budget s'.2 := by
  rw [underBudget] at hrun
  rcases hended : runWithDeadline timer call budget.maxWallS (timer.monotonic w).2
    with ⟨e | answer, w'⟩
  · rw [outlay_of_error timer hended]
    by_cases hlate : e = deadlineExceeded
    · rw [if_pos hlate]
      rw [hlate] at hended
      rw [Call.bind_ok (consult_gives_up h hended)] at hrun
      cases hrun
      refine ⟨rfl, rfl, fun result hresult hsuccess => ?_⟩
      cases hresult
      cases hsuccess
    · rw [if_neg hlate, Usage.add_zero]
      rw [Call.bind_error (consult_raises h hlate hended)] at hrun
      cases hrun
      refine ⟨rfl, rfl, fun result hresult => ?_⟩
      cases hresult
  · rw [outlay_of_answer timer hended]
    rw [Call.bind_ok (consult_answers h hended)] at hrun
    dsimp only at hrun
    have husage := account_usage budget (usageOf answer)
      (((timer.monotonic w').2, n + 1), u.add (elapsed timer w w'))
    rw [Usage.add_assoc] at husage
    rcases haccount : account budget (usageOf answer)
      (((timer.monotonic w').2, n + 1), u.add (elapsed timer w w')) with ⟨e | _ | refused, s₂⟩
    · rw [Call.bind_error haccount] at hrun
      rw [haccount] at husage
      cases hrun
      rw [show s' = _ from husage]
      exact ⟨rfl, rfl, fun result hresult => by cases hresult⟩
    · rw [Call.bind_ok haccount] at hrun
      obtain ⟨hcount, hkept⟩ := hfinish answer s₂
      rw [show finish answer s₂ = _ from hrun] at hcount hkept
      rw [haccount] at husage
      rw [hcount, hkept, show s₂ = _ from husage]
      refine ⟨rfl, rfl, fun _ _ _ => ?_⟩
      exact (show s₂ = _ from husage) ▸ account_within haccount
    · have hearly := account_early haccount
      rw [Call.bind_ok haccount] at hrun
      rw [haccount] at husage
      cases hrun
      rw [show s' = _ from husage]
      refine ⟨rfl, rfl, fun result hresult hsuccess => ?_⟩
      cases hresult
      rw [hearly.1] at hsuccess
      cases hsuccess

end Counted

/-! ### Rows of calls -/

/-- A call of `execute`: the counters before and after it, the calls of the client in it, what these
use, and what it returns or raises. -/
structure MeteredCall where
  before : Usage
  invocations : ℕ
  spent : Usage
  result : Except PyErr ExecutorResult
  after : Usage

/-- The call returns a success. -/
def MeteredCall.Succeeds (c : MeteredCall) : Prop :=
  ∃ result, c.result = .ok result ∧ result.outcome = .success

/-- The call returns a failure. -/
def MeteredCall.Fails (c : MeteredCall) : Prop :=
  ∃ result, c.result = .ok result ∧ result.outcome = .failure

section Rows

variable {W : Type} (execute : TaskNode → Dict → Call PyErr ((W × ℕ) × Usage) ExecutorResult)
  (used : TaskNode → W → Usage)

/-- One call of `execute`; `used` is what a call of the client uses in a world. -/
def meteredCall (node : TaskNode) (scope : Dict) (s : (W × ℕ) × Usage) : MeteredCall where
  before := s.2
  invocations := (execute node scope s).2.1.2 - s.1.2
  spent := if (execute node scope s).2.1.2 = s.1.2 then Usage.zero else used node s.1.1
  result := (execute node scope s).1
  after := (execute node scope s).2.2

/-- The calls of one executor, one after the other. -/
def meteredCalls : List (TaskNode × Dict) → (W × ℕ) × Usage → List MeteredCall
  | [], _ => []
  | (node, scope) :: rest, s =>
      meteredCall execute used node scope s :: meteredCalls rest (execute node scope s).2

/-- What a row of calls uses, added to what has been used before. -/
def totalSpent (start : Usage) (calls : List MeteredCall) : Usage :=
  calls.foldl (fun u c => u.add c.spent) start

/-- What a budget is for: the counters are what the calls of the client have used so far; a call
makes one of the client exactly when they are within the budget; once a call ends beyond it, every
later one fails without the client; and a call succeeds only if it ends within the budget. -/
structure BudgetLaw (budget : Budget) (start : Usage) (calls : List MeteredCall) : Prop where
  accumulated : ∀ pre c post, calls = pre ++ c :: post →
    c.before = totalSpent start pre ∧ c.after = c.before.add c.spent
  invoked : ∀ c ∈ calls, (c.invocations = 1 ↔ Within budget c.before)
    ∧ (c.invocations = 0 ↔ ¬ Within budget c.before)
  stops : calls.Pairwise fun c d => ¬ Within budget c.after → d.invocations = 0 ∧ d.Fails
  success : ∀ c ∈ calls, c.Succeeds → Within budget c.after

/-- What each single call does. -/
structure HeldTo (budget : Budget) : Prop where
  refuses : ∀ node scope s, ¬ Within budget s.2 →
    ∃ reason, execute node scope s = (.ok (budgetFailure reason), s)
  spends : ∀ node scope w n u out s', Within budget u →
    execute node scope ((w, n), u) = (out, s') →
      s'.1.2 = n + 1 ∧ s'.2 = u.add (used node w)
        ∧ ∀ result, out = .ok result → result.outcome = .success → Within budget s'.2

variable {execute used} {budget : Budget} {s : (W × ℕ) × Usage}

/-- A call within the budget: the client is called once, and what it uses is spent. -/
lemma HeldTo.within_call (h : HeldTo execute used budget) (node : TaskNode) (scope : Dict)
    (hin : Within budget s.2) :
    (meteredCall execute used node scope s).invocations = 1
      ∧ (meteredCall execute used node scope s).after
        = s.2.add (meteredCall execute used node scope s).spent
      ∧ ((meteredCall execute used node scope s).Succeeds
        → Within budget (meteredCall execute used node scope s).after) := by
  obtain ⟨hcount, husage, hsuccess⟩ := h.spends node scope s.1.1 s.1.2 s.2 _ _ hin rfl
  have hspent : (meteredCall execute used node scope s).spent = used node s.1.1 :=
    if_neg (by rw [hcount]; omega)
  have hinvoked : (meteredCall execute used node scope s).invocations = s.1.2 + 1 - s.1.2 :=
    congrArg (· - s.1.2) hcount
  refine ⟨by omega, ?_, ?_⟩
  · rw [hspent]
    exact husage
  · rintro ⟨result, hresult, hdone⟩
    exact hsuccess result hresult hdone

/-- A call beyond the budget: it fails without the client, and nothing is spent. -/
lemma HeldTo.refused_call (h : HeldTo execute used budget) (node : TaskNode) (scope : Dict)
    (hover : ¬ Within budget s.2) :
    (execute node scope s).2 = s ∧ (meteredCall execute used node scope s).invocations = 0
      ∧ (meteredCall execute used node scope s).after
        = s.2.add (meteredCall execute used node scope s).spent
      ∧ (meteredCall execute used node scope s).Fails := by
  obtain ⟨reason, hrun⟩ := h.refuses node scope s hover
  have hsame : (execute node scope s).2 = s := by rw [hrun]
  have hspent : (meteredCall execute used node scope s).spent = Usage.zero :=
    if_pos (by rw [hsame])
  have hinvoked : (meteredCall execute used node scope s).invocations = s.1.2 - s.1.2 :=
    congrArg (fun t : (W × ℕ) × Usage => t.1.2 - s.1.2) hsame
  refine ⟨hsame, by omega, ?_, budgetFailure reason, by rw [meteredCall, hrun], rfl⟩
  rw [hspent, Usage.add_zero]
  exact congrArg Prod.snd hsame

/-- Beyond the budget, every call fails without the client. -/
lemma HeldTo.refused (h : HeldTo execute used budget) (hover : ¬ Within budget s.2)
    (requests : List (TaskNode × Dict)) :
    ∀ d ∈ meteredCalls execute used requests s, d.invocations = 0 ∧ d.Fails := by
  induction requests with
  | nil => simp [meteredCalls]
  | cons request rest ih =>
      obtain ⟨node, scope⟩ := request
      obtain ⟨hsame, hinvoked, -, hfails⟩ := h.refused_call node scope hover
      rw [meteredCalls, hsame]
      exact List.forall_mem_cons.mpr ⟨⟨hinvoked, hfails⟩, ih⟩

/-- What one call does by itself. -/
lemma HeldTo.call (h : HeldTo execute used budget) (node : TaskNode) (scope : Dict)
    (s : (W × ℕ) × Usage) :
    let c := meteredCall execute used node scope s
    c.after = s.2.add c.spent
      ∧ ((c.invocations = 1 ↔ Within budget s.2) ∧ (c.invocations = 0 ↔ ¬ Within budget s.2))
      ∧ (c.Succeeds → Within budget c.after) := by
  intro c
  by_cases hin : Within budget s.2
  · obtain ⟨hinvoked, hafter, hsuccess⟩ := h.within_call node scope hin
    exact ⟨hafter, by simp [c, hinvoked, hin], hsuccess⟩
  · obtain ⟨-, hinvoked, hafter, failed, hfailed, houtcome⟩ :=
      h.refused_call node scope hin
    refine ⟨hafter, by simp [c, hinvoked, hin], ?_⟩
    rintro ⟨result, hresult, hdone⟩
    rw [hfailed] at hresult
    cases hresult
    rw [houtcome] at hdone
    cases hdone

/-- **From single calls to rows of calls.** -/
theorem HeldTo.law (h : HeldTo execute used budget) (requests : List (TaskNode × Dict))
    (s : (W × ℕ) × Usage) : BudgetLaw budget s.2 (meteredCalls execute used requests s) := by
  induction requests generalizing s with
  | nil => exact ⟨by simp [meteredCalls], by simp [meteredCalls], .nil, by simp [meteredCalls]⟩
  | cons request rest ih =>
      obtain ⟨node, scope⟩ := request
      obtain ⟨hafter, hinvoked, hsuccess⟩ := h.call node scope s
      have hrest := ih (execute node scope s).2
      rw [meteredCalls]
      refine ⟨fun pre c post hsplit => ?_, List.forall_mem_cons.mpr ⟨hinvoked, hrest.invoked⟩,
        List.pairwise_cons.mpr ⟨fun d hd hover => ?_, hrest.stops⟩,
        List.forall_mem_cons.mpr ⟨hsuccess, hrest.success⟩⟩
      · cases pre with
        | nil =>
            obtain ⟨rfl, -⟩ := List.cons.inj hsplit
            exact ⟨rfl, hafter⟩
        | cons first pre =>
            obtain ⟨rfl, htail⟩ := List.cons.inj hsplit
            have hstart : totalSpent s.2 (meteredCall execute used node scope s :: pre)
                = totalSpent (execute node scope s).2.2 pre :=
              congrArg (fun start => totalSpent start pre) hafter.symm
            rw [hstart]
            exact hrest.accumulated pre c post htail
      · exact h.refused hover rest d hd

end Rows

/-! ### The two executors -/

section Executors

variable [FloatReader] {W : Type} (timer : Timer W) (budget : Budget)

/-- `HostRuntimeExecutor` is held to its budget. -/
lemma hostRuntimeExecute_heldTo (client : TaskNode → Call PyErr W RuntimeResult) :
    HeldTo (hostRuntimeExecute timer.beside (fun node => counted (client node)) budget)
      (fun node => outlay timer budget.maxWallS (client node) RuntimeResult.usage) budget := by
  constructor
  · intro node scope s hover
    rw [hostRuntimeExecute_eq, underBudget_refuses _ _ hover]
    exact ⟨_, rfl⟩
  · intro node scope w n u out s' hin hrun
    rw [hostRuntimeExecute_eq] at hrun
    exact underBudget_spends timer budget (fun answer s => ⟨rfl, rfl⟩) hin hrun

omit [FloatReader] in
/-- What the model proposes is carried out without the client. -/
lemma applyProposed_keeps [PyRuntime] [JsonReader] (eff : Effectors W) (secrets : List String)
    (scope : Dict) (response : ModelResponse) (s : (W × ℕ) × Usage) :
    (applyProposed eff.beside secrets scope response s).2.1.2 = s.1.2
      ∧ (applyProposed eff.beside secrets scope response s).2.2 = s.2 := by
  have hcount : ∀ {α : Type} (call : Call PyErr W α),
      Call.Moves (fun w w' : W × ℕ => w'.2 = w.2) (Call.onFst call) := fun call _ => rfl
  have hspec : ∀ spec roots, (applyTaskSpec eff.beside roots secrets spec s.1).2.2 = s.1.2 := by
    intro spec roots
    have hmoves : Call.Moves (fun w w' : W × ℕ => w'.2 = w.2)
        (applyTaskSpec eff.beside roots secrets spec) :=
      applyTaskSpec_moves (R := fun w w' : W × ℕ => w'.2 = w.2) (fun _ => rfl)
        (fun h h' => h'.trans h) (fun _ _ => hcount _) (fun _ => hcount _) secrets spec
    exact hmoves s.1
  rw [applyProposed, Call.bind_apply, Call.ofExcept_apply]
  rcases parseActions response.text with e | _ | spec
  · exact ⟨rfl, rfl⟩
  · exact ⟨rfl, rfl⟩
  · dsimp only
    rw [Call.bind_apply, Call.ofExcept_apply]
    rcases scopeRoots scope with e | roots
    · exact ⟨rfl, rfl⟩
    · exact ⟨hspec _ _, rfl⟩

/-- `ApiExecutor` is held to its budget. -/
lemma apiExecute_heldTo [PyRuntime] [JsonReader] (client : String → Call PyErr W ModelResponse)
    (eff : Effectors W) (secrets : List String) :
    HeldTo
      (apiExecute timer.beside (fun prompt => counted (client prompt)) budget eff.beside secrets)
      (fun node => outlay timer budget.maxWallS (client (buildPrompt node)) ModelResponse.usage)
      budget := by
  constructor
  · intro node scope s hover
    rw [apiExecute_eq, underBudget_refuses _ _ hover]
    exact ⟨_, rfl⟩
  · intro node scope w n u out s' hin hrun
    rw [apiExecute_eq] at hrun
    exact underBudget_spends timer budget (applyProposed_keeps eff secrets scope) hin hrun

/-- **A blown budget stops the spending**, of either executor and over any row of calls: the client
is called exactly while what its calls have used so far is within every limit; once a call ends
beyond one, every later call fails without the client; and a success has stayed within all of
them. -/
theorem budget_stops [PyRuntime] [JsonReader] (requests : List (TaskNode × Dict)) (w : W) :
    (∀ client : TaskNode → Call PyErr W RuntimeResult, BudgetLaw budget Usage.zero
      (meteredCalls (hostRuntimeExecute timer.beside (fun node => counted (client node)) budget)
        (fun node => outlay timer budget.maxWallS (client node) RuntimeResult.usage)
        requests ((w, 0), Usage.zero)))
    ∧ ∀ (client : String → Call PyErr W ModelResponse) (eff : Effectors W) (secrets : List String),
      BudgetLaw budget Usage.zero
        (meteredCalls (apiExecute timer.beside (fun prompt => counted (client prompt)) budget
            eff.beside secrets)
          (fun node => outlay timer budget.maxWallS (client (buildPrompt node)) ModelResponse.usage)
          requests ((w, 0), Usage.zero)) :=
  ⟨fun client => (hostRuntimeExecute_heldTo timer budget client).law requests ((w, 0), Usage.zero),
    fun client eff secrets =>
      (apiExecute_heldTo timer budget client eff secrets).law requests ((w, 0), Usage.zero)⟩

end Executors

end IplanRunner
