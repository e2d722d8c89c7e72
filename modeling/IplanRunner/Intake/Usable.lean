import IplanRunner.Effectors.Sandbox
import IplanRunner.Intake.Payload
import IplanRunner.Validation.PayloadRules

/-!
What a task may edit under the scope of its payload.

* `Manifest.Allows`: the jail allows a path under the scope of a manifest.
* `usable_iff`: through the file door, with the repository `.`, the workspace itself and nothing in
  it; through the receiver, with an absolute workspace, nothing at all.
-/

namespace IplanRunner

open Foundation

/-- `classify_path` allows the path under the roots and forbidden paths of the manifest. -/
def Manifest.Allows (m : Manifest) (path : String) : Prop :=
  ∃ roots forbidden, Dict.get m.isolationScope "allowed_roots" = strList roots
    ∧ Dict.get m.isolationScope "forbidden_paths" = strList forbidden
    ∧ (classifyPath path roots forbidden).allowed = true

/-- `context.get("repository", ".")`. -/
def repositoryRoot (payload : Dict) : Except PyErr Val :=
  ((payload.get "context_package").orElse (.dict [])).get "repository" (.str ".")

/-- The manifest of a payload has the repository for its only root. -/
lemma buildManifest_roots {payload : Dict} {checksum : String} {manifest : RemoteManifest}
    (h : buildManifest payload checksum = .ok manifest) :
    ∃ repository, repositoryRoot payload = .ok repository
      ∧ Dict.get manifest.isolationScope "allowed_roots" = .list [repository] := by
  rw [buildManifest] at h
  obtain ⟨todos, -, h⟩ := except_bind_eq_ok.mp h
  obtain ⟨repository, hrepository, h⟩ := except_bind_eq_ok.mp h
  obtain ⟨forbidden, -, h⟩ := except_bind_eq_ok.mp h
  obtain ⟨items, -, h⟩ := except_bind_eq_ok.mp h
  obtain ⟨graph, -, h⟩ := except_bind_eq_ok.mp h
  obtain ⟨workOrderId, -, h⟩ := except_bind_eq_ok.mp h
  cases h
  exact ⟨repository, hrepository, rfl⟩

/-- The manifest of an adapted payload has the workspace for its only root. -/
lemma adapted_root {payload adapted : Dict} {workspace : String}
    (h : adaptDispatchedTask payload workspace = .ok adapted) :
    repositoryRoot adapted = .ok (.str workspace) := by
  rw [adaptDispatchedTask] at h
  obtain ⟨context, -, h⟩ := except_bind_eq_ok.mp h
  cases h
  rw [repositoryRoot, Dict.get_set_self, Val.orElse, if_pos (Dict.truthy_set context _ _), Val.get,
    Dict.lookup_set_self, Option.getD_some]

/-- Under one root a path that is not barred is allowed when the root covers it. -/
lemma allows_iff_covers {m : Manifest} {root path : String} {forbidden : List String}
    (hroots : Dict.get m.isolationScope "allowed_roots" = .list [.str root])
    (hforbidden : Dict.get m.isolationScope "forbidden_paths" = strList forbidden)
    (hclear : ¬ Barred path forbidden) : m.Allows path ↔ Covers root path := by
  have hinj : Function.Injective strList := fun xs ys h =>
    List.map_injective_iff.mpr (fun _ _ h => Val.str.inj h) (Val.list.inj h)
  have hone : ∀ roots, (.list [.str root] : Val) = strList roots ↔ [root] = roots := fun roots =>
    ⟨fun h => hinj h, fun h => h ▸ rfl⟩
  have hjail : (classifyPath path [root] forbidden).allowed = true ↔ Covers root path := by
    rw [classifyPath_forbidden, if_neg fun h => hclear h.2, classifyPath_allowed_iff]
    simp
  rw [Manifest.Allows, hroots, hforbidden, ← hjail]
  constructor
  · rintro ⟨roots, fs, hr, hf, hallowed⟩
    rw [hone] at hr
    obtain rfl := hinj hf
    subst hr
    exact hallowed
  · intro hallowed
    exact ⟨[root], forbidden, rfl, rfl, hallowed⟩

/-- The root `.` covers the workspace itself only. -/
lemma covers_dot_iff {path : String} {loc : List Name} (hpath : location path = some loc) :
    Covers "." path ↔ loc = [] := by
  have hdot : location "." = some [] := by decide
  rw [Covers]
  simp [hdot, hpath, eq_comm]

/-- An absolute root covers nothing. -/
lemma not_covers_of_isabs {root path : String} (habs : isabs root.toList = true) :
    ¬ Covers root path := by
  rintro ⟨r, loc, hroot, -⟩
  rw [location, if_pos habs] at hroot
  cases hroot

section Runtime

variable [PyRuntime]

/-- **What the payload's repository lets a task edit.**  For a path that stays in the workspace and
is not barred: ingested from a file, with the repository `.`, the path is allowed exactly when it
leads to the workspace itself; dispatched to a receiver with an absolute workspace it is not
allowed. -/
theorem usable_iff [YamlReader] {payload : Dict} {path : String} {loc : List Name}
    (hpath : location path = some loc) {forbidden : List String}
      (hclear : ¬ Barred path forbidden) :
    (∀ (raw : String) (manifest : RemoteManifest), YamlReader.safeLoad raw = .ok (.dict payload) →
      repositoryRoot payload = .ok (.str ".") → ingestTaskPayload raw = .ok manifest →
      Dict.get manifest.isolationScope "forbidden_paths" = strList forbidden →
        (manifest.Allows path ↔ loc = []))
    ∧ ∀ (workspace : String) (adapted : Dict) (manifest : RemoteManifest),
      isabs workspace.toList = true → adaptDispatchedTask payload workspace = .ok adapted →
      ingestTaskPayloadDict adapted = .ok manifest →
      Dict.get manifest.isolationScope "forbidden_paths" = strList forbidden →
        ¬ manifest.Allows path := by
  constructor
  · intro raw manifest hload hdot hingest hforbidden
    rw [ingestTaskPayload, hload] at hingest
    obtain ⟨repository, hrepository, hroots⟩ := buildManifest_roots hingest
    rw [hdot] at hrepository
    cases hrepository
    rw [allows_iff_covers hroots hforbidden hclear, covers_dot_iff hpath]
  · intro workspace adapted manifest habs hadapt hingest hforbidden
    rw [ingestTaskPayloadDict] at hingest
    obtain ⟨hash, -, hingest⟩ := except_bind_eq_ok.mp hingest
    obtain ⟨repository, hrepository, hroots⟩ := buildManifest_roots hingest
    rw [adapted_root hadapt] at hrepository
    cases hrepository
    rw [allows_iff_covers hroots hforbidden hclear]
    exact not_covers_of_isabs habs

end Runtime

section Example

attribute [local instance] cpython

/-- A dispatched task over a repository. -/
def dispatchedTask (repository : Val) : Dict :=
  [("iplan_id", .str "IPLAN-01"), ("plan_version_id", .str "PV-01"), ("org_id", .str "org-a"),
    ("project_id", .str "proj-1"), ("run_id", .str "RUN-01"), ("step_id", .str "STEP-001"),
    ("task_id", .str "TASK-01"), ("executor_id", .str "exec:iopsremote2zqf7kx3a"),
    ("work_order", .dict [("work_order_id", .str "WORK-001"),
      ("todos", .list [.dict [("todo_id", .str "TODO-001"), ("description", .str "do it"),
        ("acceptance_criteria", .list [.str "tests pass"])]])]),
    ("context_package", .dict [("repository", repository),
      ("forbidden_paths", .list [.str ".git", .str "secrets"])])]

/-- The repository of a dispatched task. -/
def exampleRepository : Val :=
  .dict [("url", .str "https://github.com/example/repo.git"), ("default_branch", .str "main"),
    ("base_ref", .str "main")]

/-- A reader that knows one document. -/
def readsOnly (v : Val) : YamlReader := ⟨fun _ => .ok v⟩

/-- Of a task over the repository `.` the workspace itself may be edited, whatever the file holds
besides; of one dispatched to `/srv/ws` not even that. -/
theorem usable_iff_of_task :
    (∃ manifest, @ingestTaskPayload _ (readsOnly (.dict (dispatchedTask (.str ".")))) "..."
        = .ok manifest ∧ manifest.Allows ".")
    ∧ ∃ adapted manifest, adaptDispatchedTask (dispatchedTask (.str ".")) "/srv/ws" = .ok adapted
      ∧ ingestTaskPayloadDict adapted = .ok manifest ∧ ¬ manifest.Allows "." := by
  obtain ⟨hfile, hreceiver⟩ := @usable_iff _ (readsOnly (.dict (dispatchedTask (.str "."))))
    (dispatchedTask (.str ".")) "." [] (by decide) [".git", "secrets"] (by decide +kernel)
  refine ⟨⟨_, rfl, ?_⟩, _, _, rfl, rfl, ?_⟩
  · exact (hfile "..." _ rfl rfl rfl rfl).mpr rfl
  · exact hreceiver "/srv/ws" _ _ (by decide) rfl rfl rfl

/-- **A task may not edit a file of its repository**: of neither door, for a payload without
findings, and a path that is neither absolute nor barred. -/
theorem not_usable :
    validatePayload [] (dispatchedTask (.str ".")) = .ok []
    ∧ validatePayload [] (dispatchedTask exampleRepository) = .ok []
    ∧ (∃ loc, location "src/app.py" = some loc) ∧ ¬ Barred "src/app.py" [".git", "secrets"]
    ∧ (∃ manifest, @ingestTaskPayload _ (readsOnly (.dict (dispatchedTask (.str ".")))) "..."
        = .ok manifest ∧ ¬ manifest.Allows "src/app.py")
    ∧ ∃ adapted manifest, adaptDispatchedTask (dispatchedTask exampleRepository) "/srv/ws"
        = .ok adapted
      ∧ ingestTaskPayloadDict adapted = .ok manifest ∧ ¬ manifest.Allows "src/app.py" := by
  have hclear : ¬ Barred "src/app.py" [".git", "secrets"] := by decide +kernel
  refine ⟨by decide +kernel, by decide +kernel, ⟨_, rfl⟩, hclear, ⟨_, rfl, ?_⟩, _, _, rfl, rfl, ?_⟩
  · rw [@allows_iff_covers _ "." _ [".git", "secrets"] rfl rfl hclear, covers_dot_iff rfl]
    decide +kernel
  · rw [@allows_iff_covers _ "/srv/ws" _ [".git", "secrets"] rfl rfl hclear]
    exact not_covers_of_isabs (by decide)

end Example

end IplanRunner
