import IplanRunner.Executor.Escapes

/-!
The texts of a result, traced to what an executor was given.

* `Mentions`, `Discreet`: a secret occurs in a text; texts in which none does.
* `ActionTells`, `SpecTells`: what `apply_task_spec` says, by the branch it comes to: of a failed
  command its line, of a denied one the message, of the checks their number.
* `BudgetTells`, `ApiTells`, `RuntimeTells`: the same of a call under a budget, of a proposal, and
  of what a host runtime answers.
* `EngineExecutor`: the executors an engine builds; `EngineExecutor.tells_iff` says that their
  results say this and nothing else.
-/

namespace IplanRunner

open Foundation

/-! ### Secrets in texts -/

/-- The secret occurs in the text. -/
def Mentions (text secret : String) : Prop := secret.toList <:+: text.toList

instance (text secret : String) : Decidable (Mentions text secret) :=
  inferInstanceAs (Decidable (_ <:+: _))

/-- None of the secrets occurs in any of the texts. -/
def Discreet (secrets texts : List String) : Prop :=
  ∀ text ∈ texts, ∀ secret ∈ secrets, ¬ Mentions text secret

instance (secrets texts : List String) : Decidable (Discreet secrets texts) :=
  inferInstanceAs (Decidable (∀ _ ∈ _, _))

variable [PyRuntime]

/-- The keys of evidence, and `str` of its values. -/
def evidenceTexts (evidence : Dict) : List String := evidence.flatMap fun p => [p.1, p.2.pyStr]

/-- The reason of a result and its evidence. -/
def ExecutorResult.texts (result : ExecutorResult) : List String :=
  result.reason.toList ++ (result.evidence.map evidenceTexts).getD []

/-! ### Actions -/

/-- `f"command failed: {action['cmd']}"`. -/
def commandFailed (cmd : Val) : String :=
  let text := cmd.pyStr
  s!"command failed: {text}"

section Spec

variable {W : Type} (eff : Effectors W) (roots : List Val)

/-- What is said of an action that fails: the line of a command, or the message of a
`PermissionError`. -/
inductive ActionTells (action : Val) (w : W) : String → Prop
  | command {cmd : Val} {outcome : CommandOutcome} {w' : W} :
      action.item "type" = .ok (.str "command") → action.item "cmd" = .ok cmd →
      eff.runCommand cmd w = (.ok outcome, w') → outcome.exitCode ≠ 0 →
      ActionTells action w (commandFailed cmd)
  | commandDenied {cmd : Val} {message : String} : action.item "type" = .ok (.str "command") →
      action.item "cmd" = .ok cmd → (eff.runCommand cmd w).1 = .error (.permissionError message) →
      ActionTells action w message
  | writeDenied {path content : Val} {message : String} :
      action.item "type" = .ok (.str "write") → action.item "path" = .ok path →
      action.get "content" (.str "") = .ok content →
      (eff.applyWrite path content roots w).1 = .error (.permissionError message) →
      ActionTells action w message

/-- The two ways to fail. -/
lemma attemptAction_failed {action : Val} {w : W} {reason : String} :
    (attemptAction eff roots action w).1 = .ok (.failed reason)
      ↔ (performAction eff roots action w).1 = .ok (.failed reason)
        ∨ (performAction eff roots action w).1 = .error (.permissionError reason) := by
  rw [attemptAction]
  rcases performAction eff roots action w with ⟨e | p, w'⟩
  · cases e <;> simp
  · simp

/-- **An action fails with what is said of it.** -/
theorem attemptAction_failed_iff {action : Val} {w : W} {reason : String} :
    (attemptAction eff roots action w).1 = .ok (.failed reason)
      ↔ ActionTells eff roots action w reason := by
  have hcommand : ¬ (Val.str "command").pyEq (.str "write") = true := by
    rw [Val.pyEq_str_iff]
    simp
  rw [attemptAction_failed]
  constructor
  · intro h
    rw [performAction] at h
    cases hkind : action.item "type" with
    | error e =>
        rw [hkind] at h
        rcases h with h | h
        · cases h
        · exact absurd (Except.error.inj h) (item_error hkind reason)
    | ok kind =>
        rw [hkind, Call.bind_ok (Call.ofExcept_apply _ _)] at h
        split at h
        · rename_i hwrite
          rw [Val.pyEq_str_iff] at hwrite
          rw [hwrite] at hkind
          cases hpath : action.item "path" with
          | error e =>
              rw [hpath] at h
              rcases h with h | h
              · cases h
              · exact absurd (Except.error.inj h) (item_error hpath reason)
          | ok path =>
              obtain ⟨content, hcontent⟩ := get_of_item hkind "content" (.str "")
              rw [hpath, hcontent, Call.bind_ok (Call.ofExcept_apply _ _),
                Call.bind_ok (Call.ofExcept_apply _ _)] at h
              rcases hw : eff.applyWrite path content roots w with ⟨e | p, w'⟩
              · rw [Call.bind_error hw] at h
                rcases h with h | h
                · cases h
                · obtain rfl := Except.error.inj h
                  exact .writeDenied hkind hpath hcontent (by rw [hw])
              · rw [Call.bind_ok hw] at h
                rcases h with h | h
                · cases h
                · cases h
        · split at h
          · rename_i hcmdkind
            rw [Val.pyEq_str_iff] at hcmdkind
            rw [hcmdkind] at hkind
            cases hcmd : action.item "cmd" with
            | error e =>
                rw [hcmd] at h
                rcases h with h | h
                · cases h
                · exact absurd (Except.error.inj h) (item_error hcmd reason)
            | ok cmd =>
                rw [hcmd, Call.bind_ok (Call.ofExcept_apply _ _)] at h
                rcases hr : eff.runCommand cmd w with ⟨e | outcome, w'⟩
                · rw [Call.bind_error hr] at h
                  rcases h with h | h
                  · cases h
                  · obtain rfl := Except.error.inj h
                    exact .commandDenied hkind hcmd (by rw [hr])
                · rw [Call.bind_ok hr] at h
                  by_cases hcode : outcome.exitCode ≠ 0
                  · rw [if_pos hcode] at h
                    rcases h with h | h
                    · cases h
                      exact .command hkind hcmd hr hcode
                    · cases h
                  · rw [if_neg hcode] at h
                    rcases h with h | h
                    · cases h
                    · cases h
          · rcases h with h | h
            · cases h
            · cases h
  · intro h
    cases h with
    | @command cmd outcome w' hkind hcmd hr hcode =>
        left
        rw [performAction, hkind, Call.bind_ok (Call.ofExcept_apply _ _), if_neg hcommand,
          if_pos (Val.pyEq_refl _), hcmd, Call.bind_ok (Call.ofExcept_apply _ _), Call.bind_ok hr,
          if_pos hcode]
        rfl
    | @commandDenied cmd message hkind hcmd hr =>
        right
        rw [performAction, hkind, Call.bind_ok (Call.ofExcept_apply _ _), if_neg hcommand,
          if_pos (Val.pyEq_refl _), hcmd, Call.bind_ok (Call.ofExcept_apply _ _),
          Call.bind_error (Prod.ext hr rfl)]
    | @writeDenied path content message hkind hpath hcontent hw =>
        right
        rw [performAction, hkind, Call.bind_ok (Call.ofExcept_apply _ _), if_pos (Val.pyEq_refl _),
          hpath, hcontent, Call.bind_ok (Call.ofExcept_apply _ _),
          Call.bind_ok (Call.ofExcept_apply _ _), Call.bind_error (Prod.ext hw rfl)]

/-- A loop fails at an action it comes to. -/
lemma performActions_failed {actions : List Val} {touched : List String} {w : W} {reason : String} :
    (∃ touched' w', performActions eff roots actions touched w = (.ok (touched', some reason), w'))
      ↔ ∃ v ∈ reached eff roots actions w,
        (attemptAction eff roots v.1 v.2).1 = .ok (.failed reason) := by
  induction actions generalizing touched w with
  | nil => simp [performActions, reached, Call.visits]
  | cons action rest ih =>
      rcases hone : attemptAction eff roots action w with ⟨e | p, w₁⟩
      · rw [performActions_raised hone, reached_raised hone]
        simp [hone]
      · rw [performActions_cons hone, reached_cons hone]
        simp only [List.mem_cons, exists_eq_or_imp, hone]
        cases p with
        | wrote path => simpa [Performed.stops] using ih
        | passed => simpa [Performed.stops] using ih
        | failed message => simp [Performed.stops]

/-- **A loop fails** with what is said of an action it comes to. -/
theorem performActions_failed_iff {actions : List Val} {touched : List String} {w : W}
    {reason : String} :
    (∃ touched' w', performActions eff roots actions touched w = (.ok (touched', some reason), w'))
      ↔ ∃ v ∈ reached eff roots actions w, ActionTells eff roots v.1 v.2 reason := by
  rw [performActions_failed]
  exact exists_congr fun v => and_congr_right fun _ => attemptAction_failed_iff eff roots

/-! ### Checks -/

/-- What is said of checks that have been run, by their exit codes. -/
def checkTexts (codes : List ℤ) : List String :=
  let passed := codes.countP (· = 0)
  let total := codes.length
  (if passed = total then [] else ["checks failed"])
    ++ ["kind", "test", "summary", s!"{passed}/{total} checks passed", "location", "workspace"]

/-- A report says passed when all its checks have. -/
def CheckReport.Tallied (report : CheckReport) : Prop :=
  report.passed = report.results.all (·.exitCode == 0)

omit [PyRuntime] in
lemma runCheckList_tallied {runCommand : Val → Call PyErr W CommandOutcome} {secrets : List String}
    {checks : List Val} {report report' : CheckReport} {w w' : W} (htallied : report.Tallied)
    (h : runCheckList runCommand secrets checks report w = (.ok report', w')) :
    report'.Tallied := by
  induction checks generalizing report w with
  | nil =>
      cases h
      exact htallied
  | cons check rest ih =>
      rw [runCheckList] at h
      obtain ⟨result, w₁, -, h⟩ := Call.bind_eq_ok.mp h
      refine ih ?_ h
      rw [CheckReport.Tallied, List.all_append, ← htallied, List.all_cons, List.all_nil,
        Bool.and_true]

omit [PyRuntime] in
lemma runChecks_tallied {runCommand : Val → Call PyErr W CommandOutcome} {secrets : List String}
    {checks : List Val} {report : CheckReport} {w w' : W}
    (h : runChecks runCommand secrets checks w = (.ok report, w')) : report.Tallied :=
  have hempty : CheckReport.Tallied ⟨true, []⟩ := rfl
  runCheckList_tallied hempty h

/-- Only the exit codes of the checks are in their result. -/
lemma checkedResult_texts {touched : List String} {report : CheckReport}
    (htallied : report.Tallied) :
    (checkedResult touched report).texts = checkTexts (report.results.map (·.exitCode)) := by
  have hcount : (report.results.map (·.exitCode)).countP (· = 0)
      = report.results.countP (·.exitCode = 0) := List.countP_map ..
  have hall : report.passed = true ↔ report.results.countP (·.exitCode = 0)
      = report.results.length := by
    rw [htallied, List.all_eq_true, List.countP_eq_length]
    simp only [beq_iff_eq, decide_eq_true_eq]
  rw [checkTexts, hcount, List.length_map, checkedResult]
  by_cases hpassed : report.passed = true
  · rw [if_pos hpassed, if_pos (hall.mp hpassed)]
    simp [ExecutorResult.texts, evidenceTexts]
  · rw [if_neg hpassed, if_neg fun heq => hpassed (hall.mpr heq)]
    simp [ExecutorResult.texts, evidenceTexts]

variable (secrets : List String)

/-- What `apply_task_spec` says: of the first action that fails, or of the checks. -/
inductive SpecTells (spec : Val) (w : W) : List String → Prop
  | action {actions : List Val} {v : Val × W} {reason : String} : actionsOf spec = .ok actions →
      v ∈ reached eff roots actions w → ActionTells eff roots v.1 v.2 reason →
      SpecTells spec w [reason]
  | unchecked {actions : List Val} {touched : List String} {w₁ : W} {checks : Val} :
      actionsOf spec = .ok actions →
      performActions eff roots actions [] w = (.ok (touched, none), w₁) →
      spec.get "checks" (.list []) = .ok checks → checks.truthy = false → SpecTells spec w []
  | checked {actions : List Val} {touched : List String} {w₁ w₂ : W} {checks : Val}
      {checkList : List Val} {report : CheckReport} : actionsOf spec = .ok actions →
      performActions eff roots actions [] w = (.ok (touched, none), w₁) →
      spec.get "checks" (.list []) = .ok checks → checks.truthy = true →
      checks.iter = .ok checkList →
      runChecks eff.runCommand secrets checkList w₁ = (.ok report, w₂) →
      SpecTells spec w (checkTexts (report.results.map (·.exitCode)))

/-- **The result of `apply_task_spec` says this and nothing else.** -/
theorem applyTaskSpec_tells_iff {spec : Val} {w : W} {texts : List String} :
    (∃ result w', applyTaskSpec eff roots secrets spec w = (.ok result, w')
        ∧ result.texts = texts) ↔ SpecTells eff roots secrets spec w texts := by
  constructor
  · rintro ⟨result, w', h, rfl⟩
    rw [applyTaskSpec] at h
    obtain ⟨actions, w₀, hactions, h⟩ := Call.bind_eq_ok.mp h
    rw [Call.ofExcept_apply, Prod.mk.injEq] at hactions
    obtain ⟨hactions, rfl⟩ := hactions
    obtain ⟨⟨touched, failure⟩, w₁, hloop, h⟩ := Call.bind_eq_ok.mp h
    cases failure with
    | some reason =>
        cases h
        obtain ⟨v, hv, htells⟩ := (performActions_failed_iff eff roots).mp ⟨_, _, hloop⟩
        exact .action hactions hv htells
    | none =>
        change applyChecks eff secrets spec touched w₁ = _ at h
        rw [applyChecks] at h
        obtain ⟨checks, w₁', hchecks, h⟩ := Call.bind_eq_ok.mp h
        rw [Call.ofExcept_apply, Prod.mk.injEq] at hchecks
        obtain ⟨hchecks, rfl⟩ := hchecks
        by_cases htruthy : checks.truthy = true
        · rw [if_neg (by simpa using htruthy)] at h
          obtain ⟨checkList, w₂, hiter, h⟩ := Call.bind_eq_ok.mp h
          rw [Call.ofExcept_apply, Prod.mk.injEq] at hiter
          obtain ⟨hiter, rfl⟩ := hiter
          obtain ⟨report, w₃, hrun, h⟩ := Call.bind_eq_ok.mp h
          cases h
          rw [checkedResult_texts (runChecks_tallied hrun)]
          exact .checked hactions hloop hchecks htruthy hiter hrun
        · rw [if_pos (by simpa using htruthy)] at h
          cases h
          exact .unchecked hactions hloop hchecks (by simpa using htruthy)
  · intro h
    cases h with
    | @action actions v reason hactions hv htells =>
        obtain ⟨touched, w', hloop⟩ := (performActions_failed_iff eff roots).mpr ⟨v, hv, htells⟩
        refine ⟨⟨.failure, touched, none, some reason, false⟩, w', ?_, rfl⟩
        rw [applyTaskSpec, hactions, Call.bind_ok (Call.ofExcept_apply _ _), Call.bind_ok hloop]
        rfl
    | @unchecked actions touched w₁ checks hactions hloop hchecks htruthy =>
        refine ⟨⟨.success, touched, none, none, false⟩, w₁, ?_, rfl⟩
        rw [applyTaskSpec, hactions, Call.bind_ok (Call.ofExcept_apply _ _), Call.bind_ok hloop]
        change applyChecks eff secrets spec touched w₁ = _
        rw [applyChecks, hchecks, Call.bind_ok (Call.ofExcept_apply _ _), htruthy]
        rfl
    | @checked actions touched w₁ w₂ checks checkList report hactions hloop hchecks htruthy hiter
        hrun =>
        refine ⟨checkedResult touched report, w₂, ?_,
          checkedResult_texts (runChecks_tallied hrun)⟩
        rw [applyTaskSpec, hactions, Call.bind_ok (Call.ofExcept_apply _ _), Call.bind_ok hloop]
        change applyChecks eff secrets spec touched w₁ = _
        rw [applyChecks, hchecks, Call.bind_ok (Call.ofExcept_apply _ _),
          if_neg (by simp [htruthy]), hiter, Call.bind_ok (Call.ofExcept_apply _ _),
          Call.bind_ok hrun]
        rfl

/-- What `ScriptedExecutor.execute` says: what its script says of the task. -/
def ScriptTells (script : Val) (node : TaskNode) (scope : Dict) (w : W) (texts : List String) :
    Prop :=
  ∃ spec roots, taskSpecOf script node = .ok spec ∧ scopeRoots scope = .ok roots
    ∧ SpecTells eff roots secrets spec w texts

omit roots in
lemma scriptedExecute_tells_iff {script : Val} {node : TaskNode} {scope : Dict} {w : W}
    {texts : List String} :
    (∃ result w', scriptedExecute eff secrets script node scope w = (.ok result, w')
        ∧ result.texts = texts) ↔ ScriptTells eff secrets script node scope w texts := by
  rw [scriptedExecute]
  constructor
  · rintro ⟨result, w', h, htexts⟩
    obtain ⟨spec, w₁, hspec, h⟩ := Call.bind_eq_ok.mp h
    obtain ⟨roots, w₂, hroots, h⟩ := Call.bind_eq_ok.mp h
    rw [Call.ofExcept_apply, Prod.mk.injEq] at hspec hroots
    obtain ⟨hspec, rfl⟩ := hspec
    obtain ⟨hroots, rfl⟩ := hroots
    exact ⟨spec, roots, hspec, hroots,
      (applyTaskSpec_tells_iff eff roots secrets).mp ⟨result, w', h, htexts⟩⟩
  · rintro ⟨spec, roots, hspec, hroots, htells⟩
    rw [hspec, hroots, Call.bind_ok (Call.ofExcept_apply _ _),
      Call.bind_ok (Call.ofExcept_apply _ _)]
    exact (applyTaskSpec_tells_iff eff roots secrets).mpr htells

end Spec

/-! ### Budgets -/

section Budgets

variable {W : Type} (timer : Timer W) (budget : Budget) {α : Type}

/-- The code a budget ends a call with: it was spent before, the client took too long, or what the
client reports goes over it. -/
inductive BudgetTells [FloatReader] (call : Call PyErr W α) (reported : α → Dict) (s : W × Usage) :
    String → Prop
  | before : (checkBudget budget s.2).allowed = false →
      BudgetTells call reported s (checkBudget budget s.2).reason
  | late {s' : W × Usage} : (checkBudget budget s.2).allowed = true →
      timedCall timer budget call s = (.ok none, s') →
      BudgetTells call reported s "BUDGET.TIME_EXCEEDED"
  | after {answer : α} {refused : ExecutorResult} {s' s'' : W × Usage} :
      consult timer budget call s = (.ok (.inr answer), s') →
      account budget (reported answer) s' = (.ok (some refused), s'') →
      BudgetTells call reported s (checkBudget budget s''.2).reason

variable {timer budget}

omit [PyRuntime] in
/-- A call that is not answered is ended by the budget. -/
lemma consult_ended [FloatReader] {call : Call PyErr W α} (reported : α → Dict) {s s' : W × Usage}
    {result : ExecutorResult} (h : consult timer budget call s = (.ok (.inl result), s')) :
    ∃ code, BudgetTells timer budget call reported s code ∧ result = budgetFailure code := by
  rw [consult, Call.bind_ok (Call.get_apply s)] at h
  by_cases hpre : (checkBudget budget s.2).allowed = true
  · rw [if_neg (by simpa using hpre)] at h
    obtain ⟨answer, s₁, hanswer, h⟩ := Call.bind_eq_ok.mp h
    cases answer with
    | none =>
        cases h
        exact ⟨_, .late hpre hanswer, rfl⟩
    | some answer => cases h
  · rw [if_pos (by simpa using hpre)] at h
    cases h
    exact ⟨_, .before (by simpa using hpre), rfl⟩

omit [PyRuntime] in
/-- A report that is refused goes over the budget. -/
lemma account_refused [FloatReader] {reported : Dict} {s s' : W × Usage} {result : ExecutorResult}
    (h : account budget reported s = (.ok (some result), s')) :
    result = budgetFailure (checkBudget budget s'.2).reason := by
  rw [account] at h
  obtain ⟨tokens, s₁, -, h⟩ := Call.bind_eq_ok.mp h
  obtain ⟨-, s₂, -, h⟩ := Call.bind_eq_ok.mp h
  obtain ⟨cost, s₃, -, h⟩ := Call.bind_eq_ok.mp h
  obtain ⟨-, s₄, -, h⟩ := Call.bind_eq_ok.mp h
  rw [Call.bind_ok (Call.get_apply s₄)] at h
  split at h
  · cases h
    rfl
  · cases h

omit [PyRuntime] in
/-- **A code of the budget** is the failure the call is not answered with, or is refused with. -/
theorem budgetTells_iff [FloatReader] {call : Call PyErr W α} {reported : α → Dict} {s : W × Usage}
    {code : String} :
    BudgetTells timer budget call reported s code
      ↔ (∃ s', consult timer budget call s = (.ok (.inl (budgetFailure code)), s'))
        ∨ ∃ answer s' s'', consult timer budget call s = (.ok (.inr answer), s')
          ∧ account budget (reported answer) s' = (.ok (some (budgetFailure code)), s'') := by
  have hcode : ∀ {code other : String}, budgetFailure code = budgetFailure other →
      code = other := by
    intro code other heq
    have hreason : (some s!"budget: {code}" : Option String) = some s!"budget: {other}" :=
      congrArg ExecutorResult.reason heq
    have htext : toString code = toString other := by simpa using hreason
    exact htext
  constructor
  · intro h
    cases h with
    | before hpre =>
        refine Or.inl ⟨s, ?_⟩
        rw [consult, Call.bind_ok (Call.get_apply s), if_pos (by simp [hpre])]
        rfl
    | @late s' hpre hlate =>
        refine Or.inl ⟨s', ?_⟩
        rw [consult, Call.bind_ok (Call.get_apply s), if_neg (by simp [hpre]), Call.bind_ok hlate]
        rfl
    | @after answer refused s' s'' hanswer haccount =>
        exact Or.inr ⟨answer, s', s'', hanswer, account_refused haccount ▸ haccount⟩
  · rintro (⟨s', h⟩ | ⟨answer, s', s'', hanswer, haccount⟩)
    · obtain ⟨told, htells, heq⟩ := consult_ended reported h
      rwa [hcode heq]
    · rw [hcode (account_refused haccount)]
      exact .after hanswer haccount

end Budgets

/-! ### Clients -/

section Clients

variable [FloatReader] {W : Type} (timer : Timer W) (budget : Budget)

/-- What `HostRuntimeExecutor.execute` says. -/
inductive RuntimeTells (client : TaskNode → Call PyErr W RuntimeResult) (node : TaskNode)
    (scope : Dict) (s : W × Usage) : List String → Prop
  | budget {code : String} : BudgetTells timer budget (client node) RuntimeResult.usage s code →
      RuntimeTells client node scope s [s!"budget: {code}"]
  | outside {result : RuntimeResult} {s' s'' : W × Usage} {roots : List Val} {path : String} :
      consult timer budget (client node) s = (.ok (.inr result), s') →
      account budget result.usage s' = (.ok none, s'') → scopeRoots scope = .ok roots →
      firstOutside roots result.changedFiles = .ok (some path) →
      RuntimeTells client node scope s [s!"host runtime touched out-of-scope path: {path}"]
  | failed {result : RuntimeResult} {s' s'' : W × Usage} {roots : List Val} :
      consult timer budget (client node) s = (.ok (.inr result), s') →
      account budget result.usage s' = (.ok none, s'') → scopeRoots scope = .ok roots →
      firstOutside roots result.changedFiles = .ok none → result.success = false →
      RuntimeTells client node scope s ["host runtime reported failure"]
  | done {result : RuntimeResult} {s' s'' : W × Usage} {roots : List Val} :
      consult timer budget (client node) s = (.ok (.inr result), s') →
      account budget result.usage s' = (.ok none, s'') → scopeRoots scope = .ok roots →
      firstOutside roots result.changedFiles = .ok none → result.success = true →
      RuntimeTells client node scope s ["kind", "runtime", "summary",
        String.ofList (result.output.toList.take 200), "location", "workspace"]

variable {timer budget}

lemma hostRuntimeExecute_tells_iff {client : TaskNode → Call PyErr W RuntimeResult}
    {node : TaskNode} {scope : Dict} {s : W × Usage} {texts : List String} :
    (∃ result s', hostRuntimeExecute timer client budget node scope s = (.ok result, s')
        ∧ result.texts = texts) ↔ RuntimeTells timer budget client node scope s texts := by
  rw [hostRuntimeExecute]
  constructor
  · rintro ⟨governed, s', h, rfl⟩
    obtain ⟨answer, s₁, hanswer, h⟩ := Call.bind_eq_ok.mp h
    cases answer with
    | inl early =>
        cases h
        obtain ⟨code, htells, rfl⟩ := consult_ended RuntimeResult.usage hanswer
        exact .budget htells
    | inr result =>
        obtain ⟨refused, s₂, haccount, h⟩ := Call.bind_eq_ok.mp h
        cases refused with
        | some refused =>
            cases h
            rw [account_refused haccount]
            exact .budget (.after hanswer haccount)
        | none =>
            have hgoverned : governResult result scope = .ok governed := congrArg Prod.fst h
            rw [governResult] at hgoverned
            obtain ⟨roots, hroots, hgoverned⟩ := except_bind_eq_ok.mp hgoverned
            obtain ⟨outside, houtside, hgoverned⟩ := except_bind_eq_ok.mp hgoverned
            cases outside with
            | some path =>
                cases hgoverned
                exact .outside hanswer haccount hroots houtside
            | none =>
                cases hsuccess : result.success with
                | false =>
                    dsimp only at hgoverned
                    rw [hsuccess] at hgoverned
                    cases hgoverned
                    exact .failed hanswer haccount hroots houtside hsuccess
                | true =>
                    dsimp only at hgoverned
                    rw [hsuccess] at hgoverned
                    cases hgoverned
                    exact .done hanswer haccount hroots houtside hsuccess
  · have hgovern : ∀ {result : RuntimeResult} {governed : ExecutorResult} {s' s'' : W × Usage},
        consult timer budget (client node) s = (.ok (.inr result), s') →
        account budget result.usage s' = (.ok none, s'') →
        governResult result scope = .ok governed →
        hostRuntimeExecute timer client budget node scope s = (.ok governed, s'') := by
      intro result governed s' s'' hanswer haccount hgoverned
      rw [hostRuntimeExecute, Call.bind_ok hanswer]
      dsimp only
      rw [Call.bind_ok haccount]
      exact Prod.ext hgoverned rfl
    intro h
    cases h with
    | @budget code htells =>
        obtain ⟨s', h⟩ | ⟨answer, s', s'', hanswer, haccount⟩ := budgetTells_iff.mp htells
        · exact ⟨budgetFailure code, s', by rw [Call.bind_ok h]; rfl, rfl⟩
        · refine ⟨budgetFailure code, s'', ?_, rfl⟩
          rw [Call.bind_ok hanswer]
          dsimp only
          rw [Call.bind_ok haccount]
          rfl
    | @outside result s' s'' roots path hanswer haccount hroots houtside =>
        have hgoverned : governResult result scope = .ok ⟨.failure, [], none,
            some s!"host runtime touched out-of-scope path: {path}", false⟩ := by
          rw [governResult, hroots, ok_bind, houtside]
          rfl
        exact ⟨_, s'', hgovern hanswer haccount hgoverned, rfl⟩
    | @failed result s' s'' roots hanswer haccount hroots houtside hsuccess =>
        have hgoverned : governResult result scope = .ok ⟨.failure, result.changedFiles, none,
            some "host runtime reported failure", false⟩ := by
          rw [governResult, hroots, ok_bind, houtside, ok_bind]
          dsimp only
          rw [hsuccess]
          rfl
        exact ⟨_, s'', hgovern hanswer haccount hgoverned, rfl⟩
    | @done result s' s'' roots hanswer haccount hroots houtside hsuccess =>
        have hgoverned : governResult result scope = .ok ⟨.success, result.changedFiles,
            some [("kind", .str "runtime"),
              ("summary", .str (String.ofList (result.output.toList.take 200))),
              ("location", .str "workspace")], none, false⟩ := by
          rw [governResult, hroots, ok_bind, houtside, ok_bind]
          dsimp only
          rw [hsuccess]
          rfl
        exact ⟨_, s'', hgovern hanswer haccount hgoverned, rfl⟩

variable [JsonReader] (timer budget) (eff : Effectors W) (secrets : List String)

/-- What `ApiExecutor.execute` says. -/
inductive ApiTells (client : String → Call PyErr W ModelResponse) (node : TaskNode) (scope : Dict)
    (s : W × Usage) : List String → Prop
  | budget {code : String} :
      BudgetTells timer budget (client (buildPrompt node)) ModelResponse.usage s code →
      ApiTells client node scope s [s!"budget: {code}"]
  | unparseable {response : ModelResponse} {s' s'' : W × Usage} :
      consult timer budget (client (buildPrompt node)) s = (.ok (.inr response), s') →
      account budget response.usage s' = (.ok none, s'') → parseActions response.text = .ok none →
      ApiTells client node scope s ["unparseable model output"]
  | proposed {response : ModelResponse} {s' s'' : W × Usage} {spec : Dict} {roots : List Val}
      {texts : List String} :
      consult timer budget (client (buildPrompt node)) s = (.ok (.inr response), s') →
      account budget response.usage s' = (.ok none, s'') →
      parseActions response.text = .ok (some spec) → scopeRoots scope = .ok roots →
      SpecTells eff roots secrets (.dict spec) s''.1 texts → ApiTells client node scope s texts

variable {timer budget}

lemma apiExecute_tells_iff {client : String → Call PyErr W ModelResponse} {node : TaskNode}
    {scope : Dict} {s : W × Usage} {texts : List String} :
    (∃ result s', apiExecute timer client budget eff secrets node scope s = (.ok result, s')
        ∧ result.texts = texts) ↔ ApiTells timer budget eff secrets client node scope s texts := by
  constructor
  · rintro ⟨result, s', h, rfl⟩
    rw [apiExecute] at h
    obtain ⟨proposed, s₁, hproposed, h⟩ := Call.bind_eq_ok.mp h
    rw [proposeActions] at hproposed
    obtain ⟨answer, s₂, hanswer, hproposed⟩ := Call.bind_eq_ok.mp hproposed
    cases answer with
    | inl early =>
        cases hproposed
        cases h
        obtain ⟨code, htells, rfl⟩ := consult_ended ModelResponse.usage hanswer
        exact .budget htells
    | inr response =>
        obtain ⟨refused, s₃, haccount, hproposed⟩ := Call.bind_eq_ok.mp hproposed
        cases refused with
        | some refused =>
            cases hproposed
            cases h
            rw [account_refused haccount]
            exact .budget (.after hanswer haccount)
        | none =>
            obtain ⟨parsed, s₄, hparsed, hproposed⟩ := Call.bind_eq_ok.mp hproposed
            rw [Call.ofExcept_apply, Prod.mk.injEq] at hparsed
            obtain ⟨hparsed, rfl⟩ := hparsed
            cases parsed with
            | none =>
                cases hproposed
                cases h
                exact .unparseable hanswer haccount hparsed
            | some spec =>
                obtain ⟨roots, s₅, hroots, hproposed⟩ := Call.bind_eq_ok.mp hproposed
                rw [Call.ofExcept_apply, Prod.mk.injEq] at hroots
                obtain ⟨hroots, rfl⟩ := hroots
                cases hproposed
                dsimp only at h
                rw [Call.onFst_apply, Prod.mk.injEq] at h
                have hspec : applyTaskSpec eff roots secrets (.dict spec) s₁.1
                    = (.ok result, (applyTaskSpec eff roots secrets (.dict spec) s₁.1).2) :=
                  Prod.ext h.1 rfl
                exact .proposed hanswer haccount hparsed hroots
                  ((applyTaskSpec_tells_iff eff roots secrets).mp ⟨result, _, hspec, rfl⟩)
  · have hearly : ∀ {early : ExecutorResult} {s' : W × Usage},
        proposeActions timer client budget node scope s = (.ok (.inl early), s') →
        apiExecute timer client budget eff secrets node scope s = (.ok early, s') := by
      intro early s' h
      rw [apiExecute, Call.bind_ok h]
      rfl
    intro h
    cases h with
    | @budget code htells =>
        obtain ⟨s', h⟩ | ⟨answer, s', s'', hanswer, haccount⟩ := budgetTells_iff.mp htells
        · refine ⟨budgetFailure code, s', hearly ?_, rfl⟩
          rw [proposeActions, Call.bind_ok h]
          rfl
        · refine ⟨budgetFailure code, s'', hearly ?_, rfl⟩
          rw [proposeActions, Call.bind_ok hanswer]
          dsimp only
          rw [Call.bind_ok haccount]
          rfl
    | @unparseable response s' s'' hanswer haccount hparsed =>
        refine ⟨⟨.failure, [], none, some "unparseable model output", false⟩, s'', hearly ?_, rfl⟩
        rw [proposeActions, Call.bind_ok hanswer]
        dsimp only
        rw [Call.bind_ok haccount]
        dsimp only
        rw [hparsed]
        rfl
    | @proposed response s' s'' spec roots texts hanswer haccount hparsed hroots htells =>
        obtain ⟨result, w', hexec, htexts⟩ :=
          (applyTaskSpec_tells_iff eff roots secrets).mpr htells
        have hproposed : proposeActions timer client budget node scope s
            = (.ok (.inr (spec, roots)), s'') := by
          rw [proposeActions, Call.bind_ok hanswer]
          dsimp only
          rw [Call.bind_ok haccount]
          dsimp only
          rw [hparsed, hroots]
          rfl
        refine ⟨result, (w', s''.2), ?_, htexts⟩
        rw [apiExecute, Call.bind_ok hproposed]
        dsimp only
        rw [Call.onFst_apply, hexec]

end Clients

/-! ### The executors of an engine -/

/-- The executors an engine builds over its configured secrets, with what they say. -/
inductive EngineExecutor [FloatReader] [JsonReader] (secrets : List String) :
    {W : Type} → Executor W → (TaskNode → Dict → W → List String → Prop) → Prop
  | scripted {W : Type} (eff : Effectors W) (script : Val) :
      EngineExecutor secrets (scriptedExecutor eff secrets script) (ScriptTells eff secrets script)
  | api {W : Type} (eff : Effectors W) (timer : Timer W)
      (client : String → Call PyErr W ModelResponse) (budget : Budget) :
      EngineExecutor secrets (apiExecutor timer client budget eff secrets)
        (ApiTells timer budget eff secrets client)
  | hostRuntime {W : Type} (timer : Timer W) (client : TaskNode → Call PyErr W RuntimeResult)
      (budget : Budget) :
      EngineExecutor secrets (hostRuntimeExecutor timer client budget)
        (RuntimeTells timer budget client)

/-- **The results of an executor say what it is said to say, and nothing else.** -/
theorem EngineExecutor.tells_iff [FloatReader] [JsonReader] {secrets : List String} {W : Type}
    {x : Executor W} {tells : TaskNode → Dict → W → List String → Prop}
    (hx : EngineExecutor secrets x tells) {node : TaskNode} {scope : Dict} {w : W}
    {texts : List String} :
    (∃ result w', x.execute node scope w = (.ok result, w') ∧ result.texts = texts)
      ↔ tells node scope w texts := by
  cases hx with
  | scripted eff script => exact scriptedExecute_tells_iff eff secrets
  | api eff timer client budget => exact apiExecute_tells_iff eff secrets
  | hostRuntime timer client budget => exact hostRuntimeExecute_tells_iff

/-- A call keeps the secrets when what it says does. -/
lemma EngineExecutor.discreet_iff [FloatReader] [JsonReader] {secrets : List String} {W : Type}
    {x : Executor W} {tells : TaskNode → Dict → W → List String → Prop}
    (hx : EngineExecutor secrets x tells) (node : TaskNode) (scope : Dict) (w : W) :
    (∀ result w', x.execute node scope w = (.ok result, w') → Discreet secrets result.texts)
      ↔ ∀ texts, tells node scope w texts → Discreet secrets texts := by
  constructor
  · intro h texts htells
    obtain ⟨result, w', hexec, rfl⟩ := hx.tells_iff.mpr htells
    exact h result w' hexec
  · intro h result w' hexec
    exact h _ (hx.tells_iff.mp ⟨result, w', hexec, rfl⟩)

end IplanRunner
