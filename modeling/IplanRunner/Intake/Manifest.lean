import IplanRunner.Foundation.Calls
import IplanRunner.Foundation.Python
import IplanRunner.Validation.Base

/-!
The intake manifest (`framework/intake`) and its validation (`validation/intake_rules.py`).

* `TaskNode`, `Manifest`: the manifest the run loop consumes.  Its sections have their shape, what
  they hold is any document value.
* `validateIntake`, `Manifest.Accepted`: the validator, and the manifests `run` does not refuse.
* `accepted_deps`: in an accepted manifest every dependency is a task of the graph.
* `Manifest.Dispatched`, `accepted_iff_complete`: of a manifest that counts as approved, with no
  dependencies, the validator asks that it is complete.
-/

namespace IplanRunner

open Foundation

/-- A node of `task_graph`. -/
structure TaskNode where
  taskId : Val
  title : Val
  dependsOn : List Val
  acceptance : Val
  deriving DecidableEq

/-- `intake_control`. -/
structure IntakeControl where
  sourceIplan : Val
  sourceIplanVersion : Val
  sourceIplanChecksum : Val
  approved : Val
  execReadyScore : Val
  deriving DecidableEq

/-- An `iplan-intake` manifest. -/
structure Manifest where
  schemaVersion : Val
  control : IntakeControl
  isolationScope : Dict
  taskGraph : List TaskNode
  deriving DecidableEq

/-- `EXEC_READY_MIN`. -/
def execReadyMin : ℤ := 90

/-- `x in {...}` for a set of values: an unhashable value raises. -/
def inSet (v : Val) (members : List Val) : Except PyErr Bool :=
  if v.hashable then .ok (members.any v.pyEq) else .error .typeError

/-- `INTAKE.APPROVAL_INSUFFICIENT`: the score is only read once the plan is approved. -/
def approvalInsufficient (control : IntakeControl) : Except PyErr Bool := do
  if !control.approved.truthy then return true
  return decide ((← (control.execReadyScore.orElse (.int 0)).pyInt) < execReadyMin)

/-- A task that lacks its id, title or acceptance. -/
def fieldsMissing (t : TaskNode) : Bool :=
  !(t.taskId.truthy && t.title.truthy && t.acceptance.truthy)

/-- Some `depends_on` of the task names no task: the first unknown one does not end the loop, so
every dependency is hashed. -/
def depUnresolved (ids : List Val) (t : TaskNode) : Except PyErr Bool := do
  let unknown ←
    collect (fun dep => do if ← inSet dep ids then return [] else return [()]) t.dependsOn
  return !unknown.isEmpty

/-- `validate_intake`. -/
def validateIntake (document : Manifest) : Except PyErr (List Finding) := do
  let schema := if ← inSet document.schemaVersion [.str "1.0"] then [] else
    [finding .intakeSchemaUnsupported "unsupported intake schema_version"]
  let control := document.control
  let source := if control.sourceIplan.truthy && control.sourceIplanVersion.truthy
      && control.sourceIplanChecksum.truthy then [] else
    [finding .intakeSourceMissing "source IPLAN id/version/checksum missing"]
  let approval := if ← approvalInsufficient control then
    [finding .intakeApprovalInsufficient "IPLAN not approved or exec_ready_score below minimum"]
    else []
  let scope := document.isolationScope
  let scopeMissing := if (Dict.get scope "client_id").truthy && (Dict.get scope "project_id").truthy
      && (Dict.get scope "allowed_roots").truthy then [] else
    [finding .intakeScopeMissing "isolation_scope is incomplete"]
  let tasks := document.taskGraph
  let noTasks := if tasks.isEmpty then [finding .intakeNoTasks "task_graph is empty"] else []
  if tasks.any (fun t => !t.taskId.hashable) then throw .typeError
  let ids := tasks.map (·.taskId)
  let unresolved ←
    collect (fun t => do if ← depUnresolved ids t then return [()] else return []) tasks
  let fields := if tasks.any fieldsMissing then
    [finding .intakeTaskFieldsMissing "a task lacks id/title/acceptance"] else []
  let deps := if unresolved.isEmpty then [] else
    [finding .intakeDepUnresolved "a depends_on references an unknown task"]
  return schema ++ source ++ approval ++ scopeMissing ++ noTasks ++ fields ++ deps

/-- The manifest passes validation: `run` does not refuse it. -/
def Manifest.Accepted (m : Manifest) : Prop :=
  ∃ fs, validateIntake m = .ok fs ∧ statusOf fs ≠ .fail

lemma depUnresolved_eq_false {ids : List Val} {t : TaskNode} (h : depUnresolved ids t = .ok false) :
    ∀ d ∈ t.dependsOn, ∃ i ∈ ids, d.pyEq i = true := by
  intro d hd
  rw [depUnresolved] at h
  obtain ⟨unknown, hunknown, h⟩ := except_bind_eq_ok.mp h
  obtain rfl : unknown = [] := by simpa [pure, Except.pure] using h
  obtain ⟨hall, hmem⟩ := collect_eq_ok hunknown
  obtain ⟨zs, hzs⟩ := hall d hd
  obtain ⟨known, hknown, hrest⟩ := except_bind_eq_ok.mp hzs
  cases known with
  | true =>
      rw [inSet] at hknown
      split at hknown
      · simpa [List.any_eq_true] using hknown
      · simp at hknown
  | false =>
      have hone : zs = [()] := by simpa [pure, Except.pure, eq_comm] using hrest
      exact absurd ((hmem ()).mpr ⟨d, hd, zs, hzs, by simp [hone]⟩) (by simp)

/-- **In an accepted manifest every dependency is a task of the graph.** -/
theorem accepted_deps {m : Manifest} (h : m.Accepted) :
    ∀ t ∈ m.taskGraph, ∀ d ∈ t.dependsOn, ∃ t' ∈ m.taskGraph, d.pyEq t'.taskId = true := by
  obtain ⟨fs, hfs, hst⟩ := h
  rw [statusOf_ne_fail_iff] at hst
  rw [validateIntake] at hfs
  obtain ⟨_, -, hfs⟩ := except_bind_eq_ok.mp hfs
  obtain ⟨_, -, hfs⟩ := except_bind_eq_ok.mp hfs
  dsimp only at hfs
  by_cases hhash : (m.taskGraph.any fun t => !t.taskId.hashable) = true
  · rw [if_pos hhash] at hfs
    simp [throw, throwThe, MonadExceptOf.throw, bind, Except.bind] at hfs
  rw [if_neg hhash] at hfs
  obtain ⟨unresolved, hun, hfs⟩ := except_bind_eq_ok.mp hfs
  intro t ht d hd
  obtain ⟨hall, hmem⟩ := collect_eq_ok hun
  obtain ⟨zs, hzs⟩ := hall t ht
  obtain ⟨bad, hbad, hrest⟩ := except_bind_eq_ok.mp hzs
  cases bad with
  | false =>
      obtain ⟨i, hi, heq⟩ := depUnresolved_eq_false hbad d hd
      obtain ⟨t', ht', rfl⟩ := List.mem_map.mp hi
      exact ⟨t', ht', heq⟩
  | true =>
      -- the finding about dependencies is an error
      have hone : zs = [()] := by simpa [pure, Except.pure, eq_comm] using hrest
      have hne : unresolved.isEmpty = false := by
        have hin : () ∈ unresolved := (hmem ()).mpr ⟨t, ht, zs, hzs, by simp [hone]⟩
        cases unresolved with
        | nil => simp at hin
        | cons => rfl
      have hfind : finding .intakeDepUnresolved "a depends_on references an unknown task" ∈ fs := by
        cases hfs
        simp [hne]
      exact absurd rfl (hst _ hfind)

/-- **An accepted manifest has a complete scope, and its tasks have their fields.** -/
theorem accepted_fields {m : Manifest} (h : m.Accepted) :
    ((Dict.get m.isolationScope "client_id").truthy = true
      ∧ (Dict.get m.isolationScope "project_id").truthy = true
      ∧ (Dict.get m.isolationScope "allowed_roots").truthy = true)
    ∧ ∀ t ∈ m.taskGraph, fieldsMissing t = false := by
  obtain ⟨fs, hfs, hst⟩ := h
  rw [statusOf_ne_fail_iff] at hst
  rw [validateIntake] at hfs
  obtain ⟨_, -, hfs⟩ := except_bind_eq_ok.mp hfs
  obtain ⟨_, -, hfs⟩ := except_bind_eq_ok.mp hfs
  dsimp only at hfs
  by_cases hhash : (m.taskGraph.any fun t => !t.taskId.hashable) = true
  · rw [if_pos hhash] at hfs
    simp [throw, throwThe, MonadExceptOf.throw, bind, Except.bind] at hfs
  rw [if_neg hhash] at hfs
  obtain ⟨_, -, hfs⟩ := except_bind_eq_ok.mp hfs
  constructor
  · by_contra hmissing
    have hcond : ¬ ((Dict.get m.isolationScope "client_id").truthy
        && (Dict.get m.isolationScope "project_id").truthy
        && (Dict.get m.isolationScope "allowed_roots").truthy) = true := by
      simpa [and_assoc] using hmissing
    rw [if_neg hcond] at hfs
    have hfind : finding .intakeScopeMissing "isolation_scope is incomplete" ∈ fs := by
      cases hfs
      simp
    exact absurd rfl (hst _ hfind)
  · intro t ht
    by_contra hmissing
    have hcond : m.taskGraph.any fieldsMissing = true :=
      List.any_eq_true.mpr ⟨t, ht, by simpa using hmissing⟩
    rw [if_pos hcond] at hfs
    have hfind : finding .intakeTaskFieldsMissing "a task lacks id/title/acceptance" ∈ fs := by
      cases hfs
      simp
    exact absurd rfl (hst _ hfind)

/-! ### Manifests of dispatched tasks -/

/-- The schema is the supported one, the plan counts as approved, and no task waits for another. -/
structure Manifest.Dispatched (m : Manifest) : Prop where
  schema : m.schemaVersion = .str "1.0"
  approved : m.control.approved = .bool true
  score : m.control.execReadyScore = .int execReadyMin
  unordered : ∀ t ∈ m.taskGraph, t.dependsOn = []

/-- The source, the scope and the tasks have all the validator reads of them. -/
structure Manifest.Complete (m : Manifest) : Prop where
  source : m.control.sourceIplan.truthy = true ∧ m.control.sourceIplanVersion.truthy = true
    ∧ m.control.sourceIplanChecksum.truthy = true
  scope : (Dict.get m.isolationScope "client_id").truthy = true
    ∧ (Dict.get m.isolationScope "project_id").truthy = true
    ∧ (Dict.get m.isolationScope "allowed_roots").truthy = true
  tasks : m.taskGraph ≠ []
  fields : ∀ t ∈ m.taskGraph, t.taskId.hashable = true ∧ fieldsMissing t = false

/-- Without dependencies none is unknown. -/
lemma collect_unordered {ids : List Val} {tasks : List TaskNode}
    (h : ∀ t ∈ tasks, t.dependsOn = []) :
    collect (fun t => do if ← depUnresolved ids t then return [()] else return []) tasks
      = .ok [] := by
  induction tasks with
  | nil => rfl
  | cons t tasks ih =>
      have hnone : depUnresolved ids t = .ok false := by
        rw [depUnresolved, h t List.mem_cons_self]
        rfl
      refine (collect_cons _ t tasks []).mpr ⟨[], [], ?_, ih fun s hs => ?_, rfl⟩
      · rw [hnone]
        rfl
      · exact h s (List.mem_cons_of_mem _ hs)

/-- The findings on a dispatched manifest. -/
lemma validateIntake_dispatched {m : Manifest} (h : m.Dispatched) :
    validateIntake m = if m.taskGraph.any (fun t => !t.taskId.hashable) then .error .typeError
      else .ok ((if m.control.sourceIplan.truthy && m.control.sourceIplanVersion.truthy
          && m.control.sourceIplanChecksum.truthy then [] else
          [finding .intakeSourceMissing "source IPLAN id/version/checksum missing"])
        ++ (if (Dict.get m.isolationScope "client_id").truthy
          && (Dict.get m.isolationScope "project_id").truthy
          && (Dict.get m.isolationScope "allowed_roots").truthy then [] else
          [finding .intakeScopeMissing "isolation_scope is incomplete"])
        ++ (if m.taskGraph.isEmpty then [finding .intakeNoTasks "task_graph is empty"] else [])
        ++ if m.taskGraph.any fieldsMissing then
          [finding .intakeTaskFieldsMissing "a task lacks id/title/acceptance"] else []) := by
  have hschema : inSet m.schemaVersion [.str "1.0"] = .ok true := by
    rw [h.schema]
    rfl
  have happroval : approvalInsufficient m.control = .ok false := by
    rw [approvalInsufficient, h.approved, h.score]
    rfl
  rw [validateIntake, hschema, ok_bind]
  simp only [happroval, ok_bind]
  by_cases hhash : (m.taskGraph.any fun t => !t.taskId.hashable) = true
  · rw [if_pos hhash, if_pos hhash]
    rfl
  · rw [if_neg hhash, if_neg hhash, collect_unordered h.unordered]
    simp [pure, Except.pure]

/-- **A dispatched manifest is accepted exactly when it is complete.** -/
theorem accepted_iff_complete {m : Manifest} (h : m.Dispatched) : m.Accepted ↔ m.Complete := by
  rw [Manifest.Accepted, validateIntake_dispatched h]
  by_cases hhash : (m.taskGraph.any fun t => !t.taskId.hashable) = true
  · -- an id that cannot be hashed raises
    rw [if_pos hhash]
    constructor
    · rintro ⟨fs, hfs, -⟩
      cases hfs
    · intro hcomplete
      obtain ⟨t, ht, hbad⟩ := List.any_eq_true.mp hhash
      rw [(hcomplete.fields t ht).1] at hbad
      cases hbad
  · have hhashable : ∀ t ∈ m.taskGraph, t.taskId.hashable = true := by simpa using hhash
    rw [if_neg hhash]
    simp only [Except.ok.injEq, exists_eq_left', statusOf_ne_fail_iff, List.forall_mem_append]
    rw [errorless_iff rfl, errorless_iff rfl, errorless_iff_not rfl, errorless_iff_not rfl]
    simp only [Bool.and_eq_true, and_assoc]
    constructor
    · rintro ⟨hiplan, hversion, hchecksum, hclient, hproject, hroots, htasks, hfields⟩
      refine ⟨⟨hiplan, hversion, hchecksum⟩, ⟨hclient, hproject, hroots⟩, ?_, fun t ht => ?_⟩
      · simpa using htasks
      · refine ⟨hhashable t ht, ?_⟩
        simpa using fun hbad => hfields (List.any_eq_true.mpr ⟨t, ht, hbad⟩)
    · rintro ⟨⟨hiplan, hversion, hchecksum⟩, ⟨hclient, hproject, hroots⟩, htasks, hfields⟩
      refine ⟨hiplan, hversion, hchecksum, hclient, hproject, hroots, by simpa using htasks, ?_⟩
      intro hbad
      obtain ⟨t, ht, hmissing⟩ := List.any_eq_true.mp hbad
      rw [(hfields t ht).2] at hmissing
      cases hmissing

end IplanRunner
