import IplanRunner.Executor.Budget

/-!
The executor that drives a host runtime and governs its result (`executor/hostruntime.py`).

* `firstOutside`: the scope check on the files the runtime says it has changed.
* `hostRuntimeExecute`, `hostRuntimeExecutor`: a call under the budget, and what is made of its
  result; the runtime owns its workspace, so nothing is undone.
-/

namespace IplanRunner

open Foundation

/-- `RuntimeResult`. -/
structure RuntimeResult where
  success : Bool
  changedFiles : List String
  output : String
  usage : Dict

/-- The first of the changed files the jail refuses. -/
def firstOutside (roots : List Val) : List String → Except PyErr (Option String)
  | [] => .ok none
  | path :: rest => do
      if !(← classifyDoc path roots []).allowed then return some path
      else firstOutside roots rest

/-- `HostRuntimeExecutor.execute`, once the budget has let the result pass. -/
def governResult (result : RuntimeResult) (scope : Dict) : Except PyErr ExecutorResult := do
  let roots ← scopeRoots scope
  match ← firstOutside roots result.changedFiles with
  | some path =>
      return ⟨.failure, [], none, some s!"host runtime touched out-of-scope path: {path}", false⟩
  | none =>
      if !result.success then
        return ⟨.failure, result.changedFiles, none, some "host runtime reported failure", false⟩
      else
        let evidence : Dict := [("kind", .str "runtime"),
          ("summary", .str (String.ofList (result.output.toList.take 200))),
          ("location", .str "workspace")]
        return ⟨.success, result.changedFiles, some evidence, none, false⟩

variable [FloatReader] {W : Type} (timer : Timer W) (client : TaskNode → Call PyErr W RuntimeResult)
  (budget : Budget)

/-- `HostRuntimeExecutor.execute`. -/
def hostRuntimeExecute (node : TaskNode) (scope : Dict) : Call PyErr (W × Usage) ExecutorResult :=
  do
  match ← consult timer budget (client node) with
  | .inl result => return result
  | .inr result =>
      match ← account budget result.usage with
      | some refused => return refused
      | none => Call.ofExcept (governResult result scope)

/-- The files the runtime says it has changed in a call that answers. -/
def hostRuntimeReports (node : TaskNode) (s : W × Usage) : List String :=
  match consult timer budget (client node) s with
  | (.ok (.inr result), _) => result.changedFiles
  | _ => []

/-- `HostRuntimeExecutor`. -/
def hostRuntimeExecutor : Executor (W × Usage) where
  execute := hostRuntimeExecute timer client budget
  compensate := fun _ s => (.ok (), s)
  written := fun _ _ _ => []
  reported := fun node _ => hostRuntimeReports timer client budget node

/-! ### The scope check -/

omit [FloatReader] in
lemma firstOutside_none_iff {roots : List Val} {paths : List String} :
    firstOutside roots paths = .ok none
      ↔ ∀ path ∈ paths, ∃ reason, classifyDoc path roots [] = .ok ⟨true, reason⟩ := by
  induction paths with
  | nil => simp [firstOutside]
  | cons path rest ih =>
      rw [firstOutside, List.forall_mem_cons, ← ih]
      rcases classifyDoc path roots [] with e | ⟨allowed, reason⟩
      · simp [bind, Except.bind]
      · cases allowed <;> simp [bind, Except.bind, pure, Except.pure]

omit [FloatReader] in
lemma governResult_ok {result : RuntimeResult} {scope : Dict} {governed : ExecutorResult}
    (h : governResult result scope = .ok governed) : governed.retriable = false := by
  rw [governResult] at h
  obtain ⟨roots, -, h⟩ := except_bind_eq_ok.mp h
  obtain ⟨outside, -, h⟩ := except_bind_eq_ok.mp h
  cases outside with
  | some path =>
      cases h
      rfl
  | none =>
      dsimp only at h
      split at h <;> cases h <;> rfl

theorem hostRuntimeExecutor_lists : (hostRuntimeExecutor timer client budget).Lists := by
  intro node scope s s' result h
  change hostRuntimeExecute timer client budget node scope s = _ at h
  refine ⟨List.nil_subset _, ?_⟩
  rw [hostRuntimeExecute] at h
  obtain ⟨answer, s₁, hanswer, h⟩ := Call.bind_eq_ok.mp h
  cases answer with
  | inl early =>
      cases h
      exact (consult_early hanswer).2.2
  | inr answer =>
      obtain ⟨refused, s₂, hrefused, h⟩ := Call.bind_eq_ok.mp h
      cases refused with
      | some refused =>
          cases h
          exact (account_early hrefused).2.2
      | none =>
          exact governResult_ok (congrArg Prod.fst h)

omit [FloatReader] in
lemma governResult_success_iff {result : RuntimeResult} {scope : Dict} :
    (∃ governed, governResult result scope = .ok governed ∧ governed.outcome = .success)
      ↔ ∃ roots, scopeRoots scope = .ok roots
        ∧ (∀ path ∈ result.changedFiles, ∃ reason, classifyDoc path roots [] = .ok ⟨true, reason⟩)
        ∧ result.success = true := by
  constructor
  · rintro ⟨governed, h, hdone⟩
    rw [governResult] at h
    obtain ⟨roots, hroots, h⟩ := except_bind_eq_ok.mp h
    obtain ⟨outside, houtside, h⟩ := except_bind_eq_ok.mp h
    cases outside with
    | some path =>
        cases h
        cases hdone
    | none =>
        refine ⟨roots, hroots, firstOutside_none_iff.mp houtside, ?_⟩
        by_contra hfail
        dsimp only at h
        rw [if_pos (by simpa using hfail)] at h
        cases h
        cases hdone
  · rintro ⟨roots, hroots, hall, hsuccess⟩
    rw [governResult, hroots, ok_bind, firstOutside_none_iff.mpr hall, ok_bind]
    dsimp only
    rw [if_neg (by simp [hsuccess])]
    exact ⟨_, rfl, rfl⟩

/-- **A call succeeds** when the runtime is accepted and reports success. -/
theorem hostRuntimeExecute_success_iff {node : TaskNode} {scope : Dict} {s : W × Usage} :
    (∃ governed s'', hostRuntimeExecute timer client budget node scope s = (.ok governed, s'')
        ∧ governed.outcome = .success)
      ↔ ∃ result s' s'' roots, consult timer budget (client node) s = (.ok (.inr result), s')
        ∧ account budget result.usage s' = (.ok none, s'') ∧ scopeRoots scope = .ok roots
        ∧ (∀ path ∈ result.changedFiles, ∃ reason, classifyDoc path roots [] = .ok ⟨true, reason⟩)
        ∧ result.success = true := by
  rw [hostRuntimeExecute]
  constructor
  · rintro ⟨governed, s₁, h, hdone⟩
    obtain ⟨answer, s', hanswer, h⟩ := Call.bind_eq_ok.mp h
    cases answer with
    | inl early =>
        cases h
        rw [(consult_early hanswer).1] at hdone
        cases hdone
    | inr result =>
        obtain ⟨refused, s'', hrefused, h⟩ := Call.bind_eq_ok.mp h
        cases refused with
        | some refused =>
            cases h
            rw [(account_early hrefused).1] at hdone
            cases hdone
        | none =>
            obtain ⟨roots, hroots⟩ :=
              governResult_success_iff.mp ⟨governed, congrArg Prod.fst h, hdone⟩
            exact ⟨result, s', s'', roots, hanswer, hrefused, hroots⟩
  · rintro ⟨result, s', s'', roots, hanswer, haccount, hgoverned⟩
    obtain ⟨governed, hok, hdone⟩ := governResult_success_iff.mpr ⟨roots, hgoverned⟩
    refine ⟨governed, s'', ?_, hdone⟩
    rw [Call.bind_ok hanswer]
    dsimp only
    rw [Call.bind_ok haccount]
    exact Prod.ext hok rfl

end IplanRunner
