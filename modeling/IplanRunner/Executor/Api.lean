import IplanRunner.Executor.Budget

/-!
The executor a model proposes the actions for (`executor/api.py` of hermes).

* `buildPrompt`, `parseActions`: the request, and the reading of its answer.
* `apiExecute`, `apiExecutor`: a call under the budget, and `apply_task_spec` on what it answers.
-/

namespace IplanRunner

open Foundation

/-- `ModelResponse`. -/
structure ModelResponse where
  text : String
  usage : Dict

/-- `json.loads`. -/
class JsonReader where
  loads : String → Except PyErr Val

/-- `build_prompt`. -/
def buildPrompt [PyRuntime] (node : TaskNode) : String :=
  "Task " ++ node.taskId.pyStr ++ ": " ++ node.title.pyStr ++ "\n"
    ++ "Acceptance: " ++ node.acceptance.pyStr ++ "\n"
    ++ "Respond with JSON \x7b\"actions\": [...], \"checks\": [...]\x7d."

/-- `parse_actions`: of what `json.loads` raises a `ValueError` and a `TypeError` are caught. -/
def parseActions [JsonReader] (text : String) : Except PyErr (Option Dict) :=
  match JsonReader.loads text with
  | .ok (.dict kvs) => .ok (some kvs)
  | .ok _ => .ok none
  | .error (.valueError _) => .ok none
  | .error .typeError => .ok none
  | .error e => .error e

variable [PyRuntime] [FloatReader] [JsonReader] {W : Type} (timer : Timer W)
  (client : String → Call PyErr W ModelResponse) (budget : Budget) (eff : Effectors W)
  (secrets : List String)

/-- `ApiExecutor.execute` up to the actions: a result that ends it, or the specification and the
roots they are carried out with. -/
def proposeActions (node : TaskNode) (scope : Dict) :
    Call PyErr (W × Usage) (ExecutorResult ⊕ Dict × List Val) := do
  match ← consult timer budget (client (buildPrompt node)) with
  | .inl result => return .inl result
  | .inr response =>
      match ← account budget response.usage with
      | some result => return .inl result
      | none =>
          match ← Call.ofExcept (parseActions response.text) with
          | none => return .inl ⟨.failure, [], none, some "unparseable model output", false⟩
          | some spec => return .inr (spec, ← Call.ofExcept (scopeRoots scope))

/-- `ApiExecutor.execute`. -/
def apiExecute (node : TaskNode) (scope : Dict) : Call PyErr (W × Usage) ExecutorResult := do
  match ← proposeActions timer client budget node scope with
  | .inl result => return result
  | .inr (spec, roots) => Call.onFst (applyTaskSpec eff roots secrets (.dict spec))

/-- What `ApiExecutor.execute` writes. -/
def apiWrites (node : TaskNode) (scope : Dict) (s : W × Usage) : List String :=
  match proposeActions timer client budget node scope s with
  | (.ok (.inr (spec, roots)), s') => specWrites eff roots (.dict spec) s'.1
  | _ => []

/-- `ApiExecutor`. -/
def apiExecutor : Executor (W × Usage) where
  execute := apiExecute timer client budget eff secrets
  compensate := fun paths => Call.onFst (undoTouched eff paths)
  written := apiWrites timer client budget eff
  reported := fun _ _ _ => []

/-! ### What a result lists -/

variable {timer client budget} in
lemma proposeActions_early {node : TaskNode} {scope : Dict} {s s' : W × Usage}
    {result : ExecutorResult}
    (h : proposeActions timer client budget node scope s = (.ok (.inl result), s')) :
    Early result := by
  rw [proposeActions] at h
  obtain ⟨answer, s₁, hanswer, h⟩ := Call.bind_eq_ok.mp h
  cases answer with
  | inl early =>
      cases h
      exact consult_early hanswer
  | inr response =>
      obtain ⟨refused, s₂, hrefused, h⟩ := Call.bind_eq_ok.mp h
      cases refused with
      | some early =>
          cases h
          exact account_early hrefused
      | none =>
          obtain ⟨spec, s₃, -, h⟩ := Call.bind_eq_ok.mp h
          cases spec with
          | none =>
              cases h
              exact ⟨rfl, rfl, rfl⟩
          | some spec =>
              obtain ⟨roots, s₄, -, h⟩ := Call.bind_eq_ok.mp h
              cases h

theorem apiExecutor_lists : (apiExecutor timer client budget eff secrets).Lists := by
  intro node scope s s' result h
  change apiExecute timer client budget eff secrets node scope s = _ at h
  show apiWrites timer client budget eff node scope s ⊆ _ ∧ _
  rw [apiExecute] at h
  obtain ⟨proposed, s₁, hproposed, h⟩ := Call.bind_eq_ok.mp h
  rw [apiWrites, hproposed]
  cases proposed with
  | inl early =>
      cases h
      exact ⟨List.nil_subset _, (proposeActions_early hproposed).2.2⟩
  | inr proposed =>
      obtain ⟨spec, roots⟩ := proposed
      dsimp only at h ⊢
      rw [Call.onFst_apply, Prod.mk.injEq] at h
      have hspec : applyTaskSpec eff roots secrets (.dict spec) s₁.1
          = (.ok result, (applyTaskSpec eff roots secrets (.dict spec) s₁.1).2) := Prod.ext h.1 rfl
      obtain ⟨htouched, hretry⟩ := applyTaskSpec_ok hspec
      rw [htouched]
      exact ⟨List.Subset.refl _, hretry⟩

end IplanRunner
