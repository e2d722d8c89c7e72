import IplanRunner.Intake.Usable

/-!
What the door lets in and the worker turns away.

* `DoorAccepts`, `IntakeAccepts`: the receiver acknowledges the task; `run` does not refuse the
  manifest of the adapted payload.
* `IntakeReady`: what intake needs of a payload the door accepts.
* `intakeAccepts_iff`: an acknowledged task is accepted at intake exactly when it is ready.
-/

namespace IplanRunner

open Foundation

/-- The payload has no finding, and names its task. -/
def DoorAccepts (exempt : List String) (payload : Dict) : Prop :=
  validatePayload exempt payload = .ok [] ∧ (payload.get "task_id").truthy = true

/-- A todo is an object with a description and an id that can be a member of a set. -/
def TodoReady (t : Val) : Prop :=
  ∃ todo, t = .dict todo ∧ (Dict.get todo "todo_id").truthy = true
    ∧ (Dict.get todo "todo_id").hashable = true ∧ (Dict.get todo "description").truthy = true

/-- What intake needs of a payload: the plan and its version; a context `dict` takes; a canonical
text of all but the repository, which the workspace replaces; todos that are a list of objects. -/
structure IntakeReady (payload : Dict) : Prop where
  iplan : (payload.get "iplan_id").truthy = true
  version : (payload.get "plan_version_id").truthy = true
  context : ∃ context, dictOf (payload.get "context_package") = .ok context
    ∧ hasCanonicalText (.dict (context.erase "repository")) = true
  canonical : hasCanonicalText (.dict (payload.erase "context_package")) = true
  todos : ∃ workOrder todos, payload.get "work_order" = .dict workOrder
    ∧ Dict.get workOrder "todos" = .list todos ∧ ∀ t ∈ todos, TodoReady t

/-! ### What the door asks -/

/-- What a payload without findings has. -/
structure DoorPassed (payload : Dict) : Prop where
  ids : ∀ k ∈ requiredIds, (payload.get k).truthy = true
  context : (payload.get "context_package").truthy = true
  todos : ∃ workOrder, payload.get "work_order" = .dict workOrder ∧ workOrder ≠ []
    ∧ (Dict.get workOrder "todos").truthy = true

lemma orElse_of_truthy {v w : Val} (h : v.truthy = true) : v.orElse w = v := if_pos h

/-- A work order with todos is an object. -/
lemma workOrder_of_todos {v todos : Val} (h : (v.orElse (.dict [])).get "todos" = .ok todos)
    (htodos : todos.truthy = true) :
    ∃ workOrder, v = .dict workOrder ∧ workOrder ≠ [] ∧ Dict.get workOrder "todos" = todos := by
  by_cases hv : v.truthy = true
  · rw [orElse_of_truthy hv] at h
    cases v with
    | dict workOrder =>
        refine ⟨workOrder, rfl, ?_, by simpa [Val.get, Dict.get] using h⟩
        rintro rfl
        cases hv
    | _ => cases h
  · -- no work order has no todos
    rw [Val.orElse, if_neg hv] at h
    obtain rfl : Val.none = todos := by simpa [Val.get] using h
    cases htodos

lemma doorPassed {exempt : List String} {payload : Dict}
    (h : validatePayload exempt payload = .ok []) : DoorPassed payload := by
  rw [validatePayload] at h
  obtain ⟨todos, htodos, h⟩ := except_bind_eq_ok.mp h
  have hnone := Except.ok.inj h
  simp only [List.append_eq_nil_iff] at hnone
  obtain ⟨⟨⟨hids, -⟩, hsome⟩, hcontext⟩ := hnone
  have hrequired : ∀ k ∈ requiredIds, (payload.get k).truthy = true := by
    simpa using hids
  have htruthy : todos.truthy = true := by
    by_contra hfalse
    have hor : todos.orElse (.list []) = .list [] := if_neg hfalse
    rw [hor] at hsome
    cases hsome
  obtain ⟨workOrder, hworkOrder, hne, hget⟩ := workOrder_of_todos htodos htruthy
  refine ⟨hrequired, ?_, workOrder, hworkOrder, hne, by rw [hget, htruthy]⟩
  by_contra hfalse
  have hmissing : (payload.get "context_package").truthy = false := by simpa using hfalse
  rw [hmissing] at hcontext
  cases hcontext

/-! ### The todos -/

lemma todoNode_eq_ok {t : Val} {node : TaskNode} (h : todoNode t = .ok node) :
    ∃ todo, t = .dict todo ∧ node.taskId = Dict.get todo "todo_id"
      ∧ node.title = Dict.get todo "description" ∧ node.acceptance.truthy = true
      ∧ node.dependsOn = [] := by
  cases t with
  | dict todo =>
      cases h
      exact ⟨todo, rfl, rfl, rfl, rfl, rfl⟩
  | _ => cases h

/-- A todo is ready when its node has its fields. -/
lemma todoReady_iff {t : Val} : TodoReady t ↔ ∃ node, todoNode t = .ok node
    ∧ node.taskId.hashable = true ∧ fieldsMissing node = false := by
  constructor
  · rintro ⟨todo, rfl, hid, hhash, htitle⟩
    refine ⟨_, rfl, hhash, ?_⟩
    have hparts : ((Dict.get todo "todo_id").truthy && (Dict.get todo "description").truthy
        && true) = true := by simp [hid, htitle]
    exact congrArg (!·) hparts
  · rintro ⟨node, hnode, hhash, hfields⟩
    obtain ⟨todo, rfl, hid, htitle, hacceptance, -⟩ := todoNode_eq_ok hnode
    rw [fieldsMissing, hid, htitle, hacceptance] at hfields
    rw [hid] at hhash
    have hboth : (Dict.get todo "todo_id").truthy = true
        ∧ (Dict.get todo "description").truthy = true := by simpa using hfields
    exact ⟨todo, rfl, hboth.1, hhash, hboth.2⟩

/-- The todos are ready when their nodes have their fields. -/
lemma todosReady_iff {ts : List Val} : (∀ t ∈ ts, TodoReady t)
    ↔ ∃ graph, ts.mapM todoNode = .ok graph
      ∧ ∀ node ∈ graph, node.taskId.hashable = true ∧ fieldsMissing node = false := by
  constructor
  · intro h
    have hreturns : Returns (ts.mapM todoNode) := by
      refine returns_mapM fun t ht => ?_
      obtain ⟨node, hnode, -⟩ := todoReady_iff.mp (h t ht)
      exact ⟨node, hnode⟩
    obtain ⟨graph, hgraph⟩ := hreturns
    refine ⟨graph, hgraph, fun node hnode => ?_⟩
    obtain ⟨t, ht, hbuilt⟩ := exists_of_forall₂ (mapM_eq_ok hgraph) hnode
    obtain ⟨node', hbuilt', hready⟩ := todoReady_iff.mp (h t ht)
    rw [hbuilt] at hbuilt'
    cases hbuilt'
    exact hready
  · rintro ⟨graph, hgraph, hready⟩ t ht
    obtain ⟨node, hnode, hbuilt⟩ := exists_of_forall₂ (mapM_eq_ok hgraph).flip ht
    exact todoReady_iff.mpr ⟨node, hbuilt, hready node hnode⟩

/-- Only a list has ready elements: a text has characters, an object its keys. -/
lemma iter_ready_iff {v : Val} (hv : v.truthy = true) :
    (∃ ts, v.iter = .ok ts ∧ ∀ t ∈ ts, TodoReady t)
      ↔ ∃ ts, v = .list ts ∧ ∀ t ∈ ts, TodoReady t := by
  have hstr : ∀ s, ¬ TodoReady (.str s) := by
    rintro s ⟨todo, hs, -⟩
    cases hs
  constructor
  · rintro ⟨ts, hts, hready⟩
    cases v with
    | list xs =>
        cases hts
        exact ⟨_, rfl, hready⟩
    | str text =>
        cases hts
        cases htext : text.toList with
        | nil =>
            have hempty : text = "" := by simpa using htext
            rw [hempty] at hv
            cases hv
        | cons c cs => exact absurd (hready _ (by rw [htext]; exact List.mem_cons_self)) (hstr _)
    | dict kvs =>
        cases hts
        cases kvs with
        | nil => cases hv
        | cons p rest => exact absurd (hready _ List.mem_cons_self) (hstr _)
    | _ => cases hts
  · rintro ⟨ts, rfl, hready⟩
    exact ⟨ts, rfl, hready⟩

/-! ### The manifest -/

/-- What a manifest is built from. -/
lemma buildManifest_eq_ok {payload : Dict} {checksum : String} {manifest : RemoteManifest}
    (h : buildManifest payload checksum = .ok manifest) :
    ∃ todos items, ((payload.get "work_order").orElse (.dict [])).get "todos" = .ok todos
      ∧ (todos.orElse (.list [])).iter = .ok items
      ∧ items.mapM todoNode = .ok manifest.taskGraph
      ∧ manifest.toManifest.Dispatched
      ∧ manifest.control.sourceIplan = payload.get "iplan_id"
      ∧ manifest.control.sourceIplanVersion = payload.get "plan_version_id"
      ∧ manifest.control.sourceIplanChecksum = .str checksum
      ∧ Dict.get manifest.isolationScope "client_id" = payload.get "org_id"
      ∧ Dict.get manifest.isolationScope "project_id" = payload.get "project_id"
      ∧ (Dict.get manifest.isolationScope "allowed_roots").truthy = true := by
  obtain ⟨workOrder, context, graph, hworkOrder, -, hgraph, rfl⟩ := buildManifest_eq_ok_iff.mp h
  obtain ⟨items, hitems, hgraph⟩ := except_bind_eq_ok.mp hgraph
  rw [hworkOrder]
  refine ⟨Dict.get workOrder "todos", items, rfl, hitems, hgraph,
    ⟨rfl, rfl, rfl, fun node hnode => ?_⟩, rfl, rfl, rfl, rfl, rfl, rfl⟩
  obtain ⟨t, -, hbuilt⟩ := exists_of_forall₂ (mapM_eq_ok hgraph) hnode
  obtain ⟨todo, -, -, -, -, hdeps⟩ := todoNode_eq_ok hbuilt
  exact hdeps

/-- A manifest is built from a work order and a context that are objects, when the todos are. -/
lemma returns_buildManifest {payload workOrder context : Dict} {ts : List Val}
    (hwork : (payload.get "work_order").orElse (.dict []) = .dict workOrder)
    (hcontext : (payload.get "context_package").orElse (.dict []) = .dict context)
    (htodos : (Dict.get workOrder "todos").orElse (.list []) = .list ts)
    (hready : ∀ t ∈ ts, TodoReady t) (checksum : String) :
    Returns (buildManifest payload checksum) := by
  obtain ⟨graph, hgraph, -⟩ := todosReady_iff.mp hready
  have hbuilt : graphOf (Dict.get workOrder "todos") = .ok graph := by
    rw [graphOf, htodos]
    exact hgraph
  exact ⟨_, buildManifest_eq_ok_iff.mpr ⟨workOrder, context, graph, hwork, hcontext, hbuilt, rfl⟩⟩

/-- A manifest built over todos is accepted when the ids are there and every todo is ready. -/
lemma built_accepted_iff {payload workOrder : Dict} {checksum : String} {manifest : RemoteManifest}
    (hwork : (payload.get "work_order").orElse (.dict []) = .dict workOrder)
    (htodos : (Dict.get workOrder "todos").truthy = true) (hchecksum : checksum ≠ "")
    (h : buildManifest payload checksum = .ok manifest) :
    manifest.toManifest.Accepted ↔ (payload.get "iplan_id").truthy = true
      ∧ (payload.get "plan_version_id").truthy = true ∧ (payload.get "org_id").truthy = true
      ∧ (payload.get "project_id").truthy = true
      ∧ ∃ ts, Dict.get workOrder "todos" = .list ts ∧ ∀ t ∈ ts, TodoReady t := by
  obtain ⟨todos, items, hget, hitems, hgraph, hdispatched, hiplan, hversion, hsum, horg, hproject,
    hroots⟩ := buildManifest_eq_ok h
  rw [hwork] at hget
  obtain rfl : Dict.get workOrder "todos" = todos := Except.ok.inj hget
  rw [orElse_of_truthy htodos] at hitems
  rw [accepted_iff_complete hdispatched, ← iter_ready_iff htodos]
  constructor
  · intro hcomplete
    rw [← hiplan, ← hversion, ← horg, ← hproject]
    refine ⟨hcomplete.source.1, hcomplete.source.2.1, hcomplete.scope.1, hcomplete.scope.2.1, items,
      hitems, ?_⟩
    exact todosReady_iff.mpr ⟨manifest.taskGraph, hgraph, hcomplete.fields⟩
  · rintro ⟨hplan, hplanVersion, hclient, hclientProject, ts, hts, hready⟩
    obtain rfl : items = ts := Except.ok.inj (hitems.symm.trans hts)
    obtain ⟨graph, hgraph', hfields⟩ := todosReady_iff.mp hready
    obtain rfl : graph = manifest.taskGraph := Except.ok.inj (hgraph'.symm.trans hgraph)
    rw [← hiplan] at hplan
    rw [← hversion] at hplanVersion
    rw [← horg] at hclient
    rw [← hproject] at hclientProject
    refine ⟨⟨hplan, hplanVersion, ?_⟩, ⟨hclient, hclientProject, hroots⟩, ?_, hfields⟩
    · rw [hsum]
      simpa [Val.truthy] using hchecksum
    · -- todos that are ready are a list, and the list has an element
      intro hnone
      have hlen := (mapM_eq_ok hgraph).length_eq
      rw [hnone, List.length_nil, List.length_eq_zero_iff] at hlen
      subst hlen
      obtain ⟨xs, hlist, -⟩ := (iter_ready_iff htodos).mp ⟨[], hitems, hready⟩
      rw [hlist] at hitems
      cases hitems
      rw [hlist] at htodos
      cases htodos

/-- A dictionary has a canonical text when the member that is set has one, and all others. -/
lemma hasCanonicalText_set (d : Dict) (key : String) (v : Val) :
    hasCanonicalText (.dict (Dict.set d key v)) = true
      ↔ hasCanonicalText v = true ∧ hasCanonicalText (.dict (d.erase key)) = true := by
  rw [hasCanonicalText, hasCanonicalText, haveCanonicalTexts_iff, haveCanonicalTexts_iff]
  simp only [Dict.mem_set_iff, forall_eq_or_imp]

/-- The adapted payload has the workspace for the repository of its context. -/
lemma adaptDispatchedTask_eq_ok {payload adapted : Dict} {workspace : String}
    (hcontext : (payload.get "context_package").truthy = true) :
    adaptDispatchedTask payload workspace = .ok adapted
      ↔ ∃ context, dictOf (payload.get "context_package") = .ok context
        ∧ adapted = Dict.set payload "context_package"
          (.dict (Dict.set context "repository" (.str workspace))) := by
  rw [adaptDispatchedTask, orElse_of_truthy hcontext, except_bind_eq_ok]
  simp [pure, Except.pure, eq_comm]

section Runtime

variable [PyRuntime]

/-- `ingest_task_payload_dict(adapt_dispatched_task(payload))` returns, and `run` does not refuse
the manifest. -/
def IntakeAccepts (payload : Dict) (workspace : String) : Prop :=
  ∃ adapted manifest, adaptDispatchedTask payload workspace = .ok adapted
    ∧ ingestTaskPayloadDict adapted = .ok manifest ∧ manifest.toManifest.Accepted

lemma canonicalHash_returns_iff (v : Val) :
    Returns (canonicalHash v) ↔ hasCanonicalText v = true := by
  rw [canonicalHash, canonicalize, hasCanonicalText_dropNull]
  by_cases h : hasCanonicalText v = true
  · rw [if_pos h]
    exact iff_of_true (returns_pure _) h
  · rw [if_neg h]
    refine iff_of_false ?_ h
    rintro ⟨text, htext⟩
    cases htext

omit [PyRuntime] in
/-- An adapted payload has a canonical text when what it keeps of the payload has one. -/
lemma hasCanonicalText_adapted (payload context : Dict) (workspace : String) :
    hasCanonicalText (.dict (Dict.set payload "context_package"
        (.dict (Dict.set context "repository" (.str workspace))))) = true
      ↔ hasCanonicalText (.dict (context.erase "repository")) = true
        ∧ hasCanonicalText (.dict (payload.erase "context_package")) = true := by
  have hworkspace : hasCanonicalText (.str workspace) = true := rfl
  rw [hasCanonicalText_set, hasCanonicalText_set, and_iff_right hworkspace]

/-- **A payload the door accepts is accepted at intake exactly when it is ready for it.** -/
theorem intakeAccepts_iff {exempt : List String} {payload : Dict}
    (hdoor : DoorAccepts exempt payload) (workspace : String) :
    IntakeAccepts payload workspace ↔ IntakeReady payload := by
  obtain ⟨hids, hcontext, workOrder, hwork, hne, htodos⟩ := doorPassed hdoor.1
  have horg := hids "org_id" (by simp [requiredIds])
  have hproject := hids "project_id" (by simp [requiredIds])
  have hkept : ∀ v k, k ≠ "context_package" →
      Dict.get (Dict.set payload "context_package" v) k = payload.get k :=
    fun v k hk => Dict.get_set_of_ne payload hk v
  have hobject : ∀ v, (Dict.get (Dict.set payload "context_package" v) "work_order").orElse
      (.dict []) = .dict workOrder := by
    intro v
    rw [hkept v _ (by decide), hwork, orElse_of_truthy (by simpa [Val.truthy] using hne)]
  have hchecksum : ∀ hash, "sha256:" ++ hash ≠ "" := by simp
  constructor
  · rintro ⟨adapted, manifest, hadapt, hingest, haccepted⟩
    obtain ⟨context, hdict, rfl⟩ := (adaptDispatchedTask_eq_ok hcontext).mp hadapt
    rw [ingestTaskPayloadDict] at hingest
    obtain ⟨hash, hhash, hbuild⟩ := except_bind_eq_ok.mp hingest
    have htext := (canonicalHash_returns_iff _).mp ⟨hash, hhash⟩
    obtain ⟨hcontextText, hpayloadText⟩ :=
      (hasCanonicalText_adapted payload context workspace).mp htext
    obtain ⟨hiplan, hversion, -, -, ts, hts, hready⟩ :=
      (built_accepted_iff (hobject _) htodos (hchecksum hash) hbuild).mp haccepted
    rw [hkept _ _ (by decide)] at hiplan hversion
    exact ⟨hiplan, hversion, ⟨context, hdict, hcontextText⟩, hpayloadText, workOrder, ts, hwork,
      hts, hready⟩
  · rintro ⟨hiplan, hversion, ⟨context, hdict, hcontextText⟩, hpayloadText, workOrder', ts, hwork',
      hts, hready⟩
    obtain rfl : workOrder = workOrder' := Val.dict.inj (hwork.symm.trans hwork')
    have hadapt :=
      (@adaptDispatchedTask_eq_ok payload _ workspace hcontext).mpr ⟨context, hdict, rfl⟩
    have htext :=
      (hasCanonicalText_adapted payload context workspace).mpr ⟨hcontextText, hpayloadText⟩
    obtain ⟨hash, hhash⟩ := (canonicalHash_returns_iff _).mpr htext
    have hcontext' : (Dict.get (Dict.set payload "context_package" (.dict (Dict.set context
        "repository" (.str workspace)))) "context_package").orElse (.dict [])
          = .dict (Dict.set context "repository" (.str workspace)) := by
      rw [Dict.get_set_self, orElse_of_truthy (Dict.truthy_set context _ _)]
    have htodos' : (Dict.get workOrder "todos").orElse (.list []) = .list ts := by
      rw [orElse_of_truthy htodos, hts]
    obtain ⟨manifest, hbuild⟩ := returns_buildManifest (hobject _) hcontext' htodos' hready
      ("sha256:" ++ hash)
    refine ⟨_, manifest, hadapt, ?_, ?_⟩
    · rw [ingestTaskPayloadDict, hhash]
      exact hbuild
    · refine (built_accepted_iff (hobject _) htodos (hchecksum hash) hbuild).mpr ?_
      rw [hkept _ _ (by decide), hkept _ _ (by decide), hkept _ _ (by decide),
        hkept _ _ (by decide)]
      exact ⟨hiplan, hversion, horg, hproject, ts, hts, hready⟩

end Runtime

section Example

attribute [local instance] cpython

/-- A dispatched task over a repository is ready for intake, and accepted. -/
theorem intakeAccepts_of_task : DoorAccepts [] (dispatchedTask exampleRepository)
    ∧ IntakeAccepts (dispatchedTask exampleRepository) "/srv/ws" := by
  have hdoor : DoorAccepts [] (dispatchedTask exampleRepository) :=
    ⟨by decide +kernel, by decide +kernel⟩
  refine ⟨hdoor, (intakeAccepts_iff hdoor "/srv/ws").mpr
    ⟨rfl, rfl, ⟨_, rfl, rfl⟩, rfl, _, _, rfl, rfl, ?_⟩⟩
  intro t ht
  obtain rfl := List.mem_singleton.mp ht
  exact ⟨_, rfl, rfl, rfl, rfl⟩

/-- A dispatched task that names no plan. -/
def unplannedTask : Dict := Dict.erase (dispatchedTask exampleRepository) "iplan_id"

/-- **A task without `iplan_id` is acknowledged and refused**: the door does not ask for it, intake
does. -/
theorem not_intakeAccepts :
    DoorAccepts [] unplannedTask ∧ ¬ IntakeAccepts unplannedTask "/srv/ws" := by
  refine ⟨⟨by decide +kernel, by decide +kernel⟩, ?_⟩
  rintro ⟨adapted, manifest, hadapt, hingest, haccepted⟩
  have hplan := ingest_sourceIplan hingest
  rw [ingestTaskPayloadDict] at hingest
  obtain ⟨hash, -, hbuild⟩ := except_bind_eq_ok.mp hingest
  obtain ⟨-, -, -, -, -, hdispatched, -⟩ := buildManifest_eq_ok hbuild
  have hsource := ((accepted_iff_complete hdispatched).mp haccepted).source.1
  rw [hplan] at hsource
  cases hadapt
  exact absurd hsource (by decide +kernel)

end Example

end IplanRunner
