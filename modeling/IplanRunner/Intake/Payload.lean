import IplanRunner.Intake.Manifest
import IplanRunner.Security.Canonical

/-!
From a dispatched task payload to a manifest (`intake/payload.py`).

* `adaptDispatchedTask`: the workspace in the place of the repository.
* `buildManifest`, `ingestTaskPayloadDict`, `ingestTaskPayload`: the manifest of a payload, with its
  checksum.
* `buildManifest_eq_ok_iff`: the manifest of a payload that has one.
-/

namespace IplanRunner

open Foundation

/-- `_REMOTE_IDS`. -/
def remoteIds : List String :=
  ["task_id", "run_id", "step_id", "executor_id", "iplan_id", "plan_version_id", "org_id",
    "project_id", "protocol_plan_id", "protocol_agent_id"]

/-- A manifest with its `remote_execution` section, which the run loop does not read. -/
structure RemoteManifest extends Manifest where
  remoteExecution : Dict
  deriving DecidableEq

/-- A node of the `task_graph` of a payload's manifest. -/
def todoNode (t : Val) : Except PyErr TaskNode := do
  let taskId ← t.get "todo_id"
  let title ← t.get "description"
  let criteria := (← t.get "acceptance_criteria").orElse (.list [])
  return {
    taskId := taskId
    title := title
    dependsOn := []
    acceptance := .dict [("criteria", criteria)] }

/-- `_build_manifest`. -/
def buildManifest (payload : Dict) (checksum : String) : Except PyErr RemoteManifest := do
  let workOrder := (payload.get "work_order").orElse (.dict [])
  let todos := (← workOrder.get "todos").orElse (.list [])
  let context := (payload.get "context_package").orElse (.dict [])
  let repository ← context.get "repository" (.str ".")
  let forbidden ← context.get "forbidden_paths" (.list [])
  let taskGraph ← (← todos.iter).mapM todoNode
  let workOrderId ← workOrder.get "work_order_id"
  return {
    schemaVersion := .str "1.0"
    control := {
      sourceIplan := payload.get "iplan_id"
      sourceIplanVersion := payload.get "plan_version_id"
      sourceIplanChecksum := .str checksum
      approved := .bool true
      execReadyScore := .int 90 }
    isolationScope :=
      [("client_id", payload.get "org_id"), ("project_id", payload.get "project_id"),
        ("allowed_roots", .list [repository]), ("forbidden_paths", forbidden)]
    taskGraph := taskGraph
    remoteExecution := (remoteIds.map fun k => (k, payload.get k))
      ++ [("work_order_id", workOrderId)] }

/-! ### What a manifest is built from -/

/-- The manifest of a payload, of its sections and its graph. -/
def manifestOf (payload workOrder context : Dict) (graph : List TaskNode) (checksum : String) :
    RemoteManifest where
  schemaVersion := .str "1.0"
  control := {
    sourceIplan := payload.get "iplan_id"
    sourceIplanVersion := payload.get "plan_version_id"
    sourceIplanChecksum := .str checksum
    approved := .bool true
    execReadyScore := .int 90 }
  isolationScope := [("client_id", payload.get "org_id"), ("project_id", payload.get "project_id"),
    ("allowed_roots", .list [(context.lookup "repository").getD (.str ".")]),
    ("forbidden_paths", (context.lookup "forbidden_paths").getD (.list []))]
  taskGraph := graph
  remoteExecution := (remoteIds.map fun k => (k, payload.get k))
    ++ [("work_order_id", Dict.get workOrder "work_order_id")]

/-- The graph of a list of todos. -/
def graphOf (todos : Val) : Except PyErr (List TaskNode) := do
  (← (todos.orElse (.list [])).iter).mapM todoNode

/-- What has members to read is a dictionary. -/
lemma dict_of_get {v w : Val} {key : String} (h : v.get key = .ok w) : ∃ kvs, v = .dict kvs := by
  cases v with
  | dict kvs => exact ⟨kvs, rfl⟩
  | _ => cases h

/-- **A manifest is built** exactly from a work order and a context that are objects, when the todos
have a graph. -/
lemma buildManifest_eq_ok_iff {payload : Dict} {checksum : String} {m : RemoteManifest} :
    buildManifest payload checksum = .ok m ↔ ∃ workOrder context graph,
      (payload.get "work_order").orElse (.dict []) = .dict workOrder
      ∧ (payload.get "context_package").orElse (.dict []) = .dict context
      ∧ graphOf (Dict.get workOrder "todos") = .ok graph
      ∧ manifestOf payload workOrder context graph checksum = m := by
  rw [buildManifest]
  constructor
  · intro h
    simp only [except_bind_eq_ok] at h
    obtain ⟨todos, htodos, repository, hrepository, forbidden, hforbidden, items, hitems, graph,
      hgraph, workOrderId, hid, h⟩ := h
    obtain ⟨workOrder, hworkOrder⟩ := dict_of_get htodos
    obtain ⟨context, hcontext⟩ : ∃ kvs, (payload.get "context_package").orElse (.dict [])
      = .dict kvs := by
      cases hc : (payload.get "context_package").orElse (.dict []) with
      | dict kvs => exact ⟨kvs, rfl⟩
      | _ => rw [hc] at hrepository; cases hrepository
    rw [hworkOrder] at htodos hid
    rw [hcontext] at hrepository hforbidden
    obtain rfl := Except.ok.inj htodos
    obtain rfl := Except.ok.inj hid
    obtain rfl := Except.ok.inj hrepository
    obtain rfl := Except.ok.inj hforbidden
    exact ⟨workOrder, context, graph, hworkOrder, hcontext,
      except_bind_eq_ok.mpr ⟨items, hitems, hgraph⟩, Except.ok.inj h⟩
  · rintro ⟨workOrder, context, graph, hworkOrder, hcontext, hgraph, rfl⟩
    obtain ⟨items, hitems, hgraph⟩ := except_bind_eq_ok.mp hgraph
    have hget : ∀ (kvs : Dict) key default,
        (Val.dict kvs).get key default = .ok ((kvs.lookup key).getD default) := fun _ _ _ => rfl
    have hread : ∀ (kvs : Dict) key, (kvs.lookup key).getD .none = Dict.get kvs key :=
      fun _ _ => rfl
    rw [hworkOrder, hcontext]
    simp only [hget, ok_bind, hread, hitems, hgraph]
    rfl

/-! ### Ingestion -/

/-- A pair of a key and a value.  A key that is no string, which no later step takes, raises
here. -/
def pairOf (v : Val) : Except PyErr (String × Val) := do
  match ← v.iter with
  | [.str key, value] => return (key, value)
  | _ => throw (.valueError "dictionary update sequence element")

/-- `dict(v)`. -/
def dictOf (v : Val) : Except PyErr Dict :=
  match v with
  | .dict kvs => .ok kvs
  | v => do
      let pairs ← (← v.iter).mapM pairOf
      return Dict.update [] pairs

/-- `adapt_dispatched_task`. -/
def adaptDispatchedTask (payload : Dict) (workspace : String) : Except PyErr Dict := do
  let context ← dictOf ((payload.get "context_package").orElse (.dict []))
  return Dict.set payload "context_package" (.dict (Dict.set context "repository" (.str workspace)))

variable [PyRuntime]

/-- `canonical_hash`. -/
def canonicalHash (value : Val) : Except PyErr String := do
  return PyRuntime.sha256 (← canonicalize value)

/-- `ingest_task_payload_dict`. -/
def ingestTaskPayloadDict (payload : Dict) : Except PyErr RemoteManifest := do
  let hash ← canonicalHash (.dict payload)
  buildManifest payload ("sha256:" ++ hash)

/-- `yaml.safe_load`, on the text of a file. -/
class YamlReader where
  safeLoad : String → Except PyErr Val

/-- `ingest_task_payload`, on the text of the file: a document that is no dictionary counts as an
empty one. -/
def ingestTaskPayload [YamlReader] (raw : String) : Except PyErr RemoteManifest := do
  let checksum := "sha256:" ++ PyRuntime.sha256 raw
  match ← YamlReader.safeLoad raw with
  | .dict payload => buildManifest payload checksum
  | _ => buildManifest [] checksum

/-- The manifest is about the payload's IPLAN. -/
lemma ingest_sourceIplan {payload : Dict} {manifest : RemoteManifest}
    (h : ingestTaskPayloadDict payload = .ok manifest) :
    manifest.control.sourceIplan = payload.get "iplan_id" := by
  rw [ingestTaskPayloadDict] at h
  obtain ⟨hash, -, h⟩ := except_bind_eq_ok.mp h
  rw [buildManifest] at h
  obtain ⟨todos, -, h⟩ := except_bind_eq_ok.mp h
  obtain ⟨repository, -, h⟩ := except_bind_eq_ok.mp h
  obtain ⟨forbidden, -, h⟩ := except_bind_eq_ok.mp h
  obtain ⟨items, -, h⟩ := except_bind_eq_ok.mp h
  obtain ⟨graph, -, h⟩ := except_bind_eq_ok.mp h
  obtain ⟨workOrderId, -, h⟩ := except_bind_eq_ok.mp h
  cases h
  rfl

end IplanRunner
