import Mathlib.Data.List.Nodup
import IplanRunner.Foundation.Calls
import IplanRunner.Foundation.Delimited
import IplanRunner.Ledger.Binding
import IplanRunner.Security.Canonical

/-!
The projection of a ledger into execution events (`ledger/events.py`).

* `identityOf`, `ident`, `buildEvent`: the identity of a run, the three ids of an event, one event.
* `toExecutionEvents`: the events of a ledger document, in the order of its log.
* `emittedTypes`, `projectEntry_emits`: what the loop makes of a log entry; `keys_nodup`: on a
  verified log no two projected events have the same key.
-/

namespace IplanRunner

open Foundation

/-- `_IDENTITY_FIELDS`. -/
def identityFields : List String :=
  ["org_id", "project_id", "iplan_id", "plan_version_id", "run_id", "task_id", "step_id",
    "executor_id"]

/-- `{k: payload.get(k) for k in _IDENTITY_FIELDS}`. -/
def identityOf (payload : Dict) : Dict := identityFields.map fun k => (k, payload.get k)

/-- `_EVENT_MAP`. -/
def eventMap : List (String × String × String) :=
  [("task_started", "task.started", "running"), ("file_edited", "file.changed", "running"),
    ("task_completed", "task.completed", "succeeded"), ("task_blocked", "task.blocked", "blocked"),
    ("commit", "artifact.created", "running")]

/-- The event type and the status a log entry of the kind is projected to; the kinds of `_SKIP` have
none, as any other kind. -/
def mappedKind : Val → Option (String × String)
  | .str kind => eventMap.lookup kind
  | _ => none

/-- The part of an event id that is taken of a digest. -/
def shortDigest (digest : String) : String := String.ofList (digest.toList.take 12)

section Runtime

variable [PyRuntime]

/-- `f"{run_id}:{event_hash}:{event_type}"`. -/
def idempotencyKey (runId eventHash : Val) (eventType : String) : String :=
  let run := runId.pyStr
  let hash := eventHash.pyStr
  s!"{run}:{hash}:{eventType}"

/-- `_ident`. -/
def ident (runId eventHash : Val) (eventType : String) : String × String × String :=
  let idem := idempotencyKey runId eventHash eventType
  let run := runId.pyStr
  let hash := eventHash.pyStr
  (idem, "EV-" ++ shortDigest (PyRuntime.sha256 idem),
    "TR-" ++ shortDigest (PyRuntime.sha256 s!"{run}:{hash}"))

/-- The members of an event before it is signed. -/
def eventBody (identity : Dict) (eventType status : String)
    (occurredAt artifactRefs eventHash : Val) :
    Dict :=
  let (idem, eventId, traceId) := ident (identity.get "run_id") eventHash eventType
  identity ++ [("trace_id", .str traceId), ("event_id", .str eventId),
    ("idempotency_key", .str idem), ("event_type", .str eventType), ("occurred_at", occurredAt),
    ("received_at", occurredAt), ("status", .str status), ("artifact_refs", artifactRefs)]

/-- `_build_event`: the members of the event do not meet those of the identity. -/
def buildEvent (identity : Dict) (eventType status : String) (occurredAt artifactRefs : Val)
    (key : String) (keyId eventHash : Val) : Except PyErr Dict := do
  let event := eventBody identity eventType status occurredAt artifactRefs eventHash
  let value ← sign (signingPayload event) key
  return event ++ [("signature", .dict
    [("key_id", keyId), ("algorithm", .str "hmac-sha256"), ("value", .str value)])]

/-- `results`: the acceptance results by task id, in the order of the ledger. -/
def acceptanceResults (ledger : Val) : Except PyErr (List (Val × Val)) := do
  let tasks ← (← ledger.get "task_ledger" (.list [])).iter
  tasks.mapM fun t => do
    let taskId ← t.get "task_id"
    if !taskId.hashable then throw .typeError
    let result ← ((← t.get "acceptance").orElse (.dict [])).get "result"
    return (taskId, result)

/-- `results.get(subject_id)`: the entry written last. -/
def resultOf (results : List (Val × Val)) (subjectId : Val) : Except PyErr Val :=
  if !subjectId.hashable then .error .typeError
  else .ok (((results.reverse.find? fun p => p.1.pyEq subjectId).map (·.2)).getD .none)

/-- The pass of the loop of `to_execution_events`. -/
def projectEntry (results : List (Val × Val)) (identity : Dict) (key : String) (keyId : Val)
    (logEvent : Val) : Except PyErr (List Dict) := do
  let kind ← logEvent.get "event_type"
  if !kind.hashable then throw .typeError
  match mappedKind kind with
  | none => return []
  | some (eventType, status) =>
      let eventHash ← logEvent.item "event_hash"
      let occurredAt ← logEvent.item "at"
      let paths ← logEvent.get "touched_paths"
      let event ←
        buildEvent identity eventType status occurredAt (paths.orElse (.list []))
          key keyId eventHash
      if kind = .str "task_completed" then
        let result ← resultOf results (← logEvent.get "subject_id")
        let passed := result.pyEq (.str "pass")
        let test ← buildEvent identity (if passed then "test.passed" else "test.failed") "running"
          occurredAt (.list []) key keyId eventHash
        return [event, test]
      else return [event]

/-- `to_execution_events`. -/
def toExecutionEvents (ledger : Val) (payload : Dict) (key : String) (keyId : Val) :
    Except PyErr (List Dict) := do
  let identity := identityOf payload
  let results ← acceptanceResults ledger
  let log ← (← ledger.get "execution_log" (.list [])).iter
  collect (projectEntry results identity key keyId) log

end Runtime

/-- `event["idempotency_key"]`, on a projected event. -/
def eventKey (event : Dict) : String :=
  match event.get "idempotency_key" with
  | .str key => key
  | _ => ""

/-! ### The keys -/

lemma lookup_identityOf (payload : Dict) {k : String} (h : k ∉ identityFields) :
    (identityOf payload).lookup k = none := by
  rw [List.lookup_eq_none_iff]
  intro p hp
  obtain ⟨field, hfield, rfl⟩ := List.mem_map.mp hp
  have hne : k ≠ field := fun heq => h (heq ▸ hfield)
  simpa using hne

lemma get_identityOf (payload : Dict) :
    (identityOf payload).get "run_id" = payload.get "run_id" := by
  simp [identityOf, identityFields, Dict.get, List.lookup_cons]

section Runtime

variable [PyRuntime]

/-- The key of an event that has been built. -/
lemma eventKey_of_build {payload event : Dict} {eventType status : String}
    {occurredAt refs keyId hash : Val} {key : String}
    (h : buildEvent (identityOf payload) eventType status occurredAt refs key keyId hash
      = .ok event) : eventKey event = idempotencyKey (payload.get "run_id") hash eventType := by
  rw [buildEvent] at h
  obtain ⟨value, -, h⟩ := except_bind_eq_ok.mp h
  cases h
  have hnone := lookup_identityOf payload (k := "idempotency_key") (by decide)
  have hget : Dict.get (eventBody (identityOf payload) eventType status occurredAt refs hash
      ++ [("signature", .dict [("key_id", keyId), ("algorithm", .str "hmac-sha256"),
        ("value", .str value)])]) "idempotency_key"
      = .str (idempotencyKey (payload.get "run_id") hash eventType) := by
    rw [← get_identityOf payload]
    simp [Dict.get, eventBody, ident, List.lookup_append, hnone, List.lookup_cons]
  rw [eventKey, hget]

/-- Event types hold no colon, so hash and type can be read back from a key. -/
lemma idempotencyKey_inj {run : Val} {h h' t t' : String} (ht : ':' ∉ t.toList)
    (ht' : ':' ∉ t'.toList)
    (heq : idempotencyKey run (.str h) t = idempotencyKey run (.str h') t') : h = h' ∧ t = t' := by
  have hlist := congrArg String.toList heq
  have hcolon : ":".toList = [':'] := rfl
  simp only [idempotencyKey, Val.pyStr_str, toString, String.toList_append, hcolon] at hlist
  rw [List.append_assoc _ _ t.toList, List.append_assoc _ _ t'.toList] at hlist
  obtain ⟨hfront, htypes⟩ := split_last ht ht' hlist
  refine ⟨?_, String.toList_inj.mp htypes⟩
  exact String.toList_inj.mp (List.append_cancel_left hfront)

/-- What the events of a log entry are about: two for a completed task, one for a start, an edit, a
blocked task and a commit, and none for any other kind. -/
def emittedTypes (kind : Val) (passed : Bool) : List String :=
  if kind = .str "task_started" then ["task.started"]
  else if kind = .str "file_edited" then ["file.changed"]
  else if kind = .str "task_blocked" then ["task.blocked"]
  else if kind = .str "commit" then ["artifact.created"]
  else if kind = .str "task_completed" then
    ["task.completed", if passed then "test.passed" else "test.failed"]
  else []

omit [PyRuntime] in
lemma emittedTypes_nodup (kind : Val) (passed : Bool) : (emittedTypes kind passed).Nodup := by
  rw [emittedTypes]
  split_ifs <;> cases passed <;> decide

omit [PyRuntime] in
lemma emittedTypes_colon (kind : Val) (passed : Bool) :
    ∀ t ∈ emittedTypes kind passed, ':' ∉ t.toList := by
  rw [emittedTypes]
  split_ifs <;> cases passed <;> decide

omit [PyRuntime] in
/-- The kinds of the event map are the ones that are projected. -/
lemma emittedTypes_eq (kind : Val) (passed : Bool) :
    emittedTypes kind passed = (mappedKind kind).elim [] fun p =>
      if kind = .str "task_completed" then
        [p.1, if passed then "test.passed" else "test.failed"] else [p.1] := by
  cases kind with
  | str kind =>
      rw [mappedKind]
      by_cases hstarted : kind = "task_started"
      · subst hstarted; rfl
      by_cases hedited : kind = "file_edited"
      · subst hedited; rfl
      by_cases hcompleted : kind = "task_completed"
      · subst hcompleted; rfl
      by_cases hblocked : kind = "task_blocked"
      · subst hblocked; rfl
      by_cases hcommit : kind = "commit"
      · subst hcommit; rfl
      have hnone : eventMap.lookup kind = none := by
        rw [List.lookup_eq_none_iff]
        simpa [eventMap] using ⟨hstarted, hedited, hcompleted, hblocked, hcommit⟩
      simp [emittedTypes, hnone, hstarted, hedited, hcompleted, hblocked, hcommit]
  | _ => simp [emittedTypes, mappedKind]

/-- The event has been built for the entry, about `eventType`. -/
def BuiltFrom (payload : Dict) (key : String) (keyId logEvent : Val) (eventType : String)
    (event : Dict) : Prop :=
  ∃ status hash occurredAt refs, logEvent.item "event_hash" = .ok hash
    ∧ logEvent.item "at" = .ok occurredAt
    ∧ buildEvent (identityOf payload) eventType status occurredAt refs key keyId hash = .ok event

/-- **What the loop makes of a log entry.** -/
theorem projectEntry_emits {results : List (Val × Val)} {payload : Dict} {key : String}
    {keyId logEvent : Val} {events : List Dict}
    (h : projectEntry results (identityOf payload) key keyId logEvent = .ok events) :
    ∃ kind passed, logEvent.get "event_type" = .ok kind
      ∧ (kind = .str "task_completed" → ∃ subject result, logEvent.get "subject_id" = .ok subject
        ∧ resultOf results subject = .ok result ∧ passed = result.pyEq (.str "pass"))
      ∧ List.Forall₂ (BuiltFrom payload key keyId logEvent) (emittedTypes kind passed) events := by
  rw [projectEntry] at h
  obtain ⟨kind, hget, h⟩ := except_bind_eq_ok.mp h
  by_cases hhash : kind.hashable = true
  swap
  · simp only [hhash, Bool.not_false, if_true] at h
    cases h
  simp only [hhash, Bool.not_true, Bool.false_eq_true, if_false] at h
  split at h
  · rename_i hkind
    cases h
    refine ⟨kind, false, hget, ?_, ?_⟩
    · rintro rfl
      cases hkind
    · rw [emittedTypes_eq, hkind]
      exact List.Forall₂.nil
  · rename_i eventType status hkind
    obtain ⟨hash, hhash, h⟩ := except_bind_eq_ok.mp h
    obtain ⟨occurredAt, hat, h⟩ := except_bind_eq_ok.mp h
    obtain ⟨paths, -, h⟩ := except_bind_eq_ok.mp h
    obtain ⟨event, hevent, h⟩ := except_bind_eq_ok.mp h
    have hbuilt : BuiltFrom payload key keyId logEvent eventType event :=
      ⟨status, hash, occurredAt, _, hhash, hat, hevent⟩
    split at h
    · rename_i hcompleted
      obtain ⟨subject, hsubject, h⟩ := except_bind_eq_ok.mp h
      obtain ⟨result, hresult, h⟩ := except_bind_eq_ok.mp h
      obtain ⟨test, htest, h⟩ := except_bind_eq_ok.mp h
      cases h
      refine ⟨kind, result.pyEq (.str "pass"), hget,
        fun _ => ⟨subject, result, hsubject, hresult, rfl⟩, ?_⟩
      rw [emittedTypes_eq, hkind, Option.elim_some, if_pos hcompleted]
      exact List.Forall₂.cons hbuilt
        (List.Forall₂.cons ⟨_, hash, occurredAt, _, hhash, hat, htest⟩ List.Forall₂.nil)
    · rename_i hcompleted
      cases h
      refine ⟨kind, false, hget, fun heq => absurd heq hcompleted, ?_⟩
      rw [emittedTypes_eq, hkind, Option.elim_some, if_neg hcompleted]
      exact List.Forall₂.cons hbuilt List.Forall₂.nil

/-- **The keys of the events of one log entry.** -/
lemma projectEntry_keys {results : List (Val × Val)} {payload : Dict} {key : String}
    {keyId logEvent : Val} {events : List Dict}
    (h : projectEntry results (identityOf payload) key keyId logEvent = .ok events) :
    events = [] ∨ ∃ (hash : Val) (types : List String), logEvent.item "event_hash" = .ok hash
      ∧ types.Nodup
      ∧ (∀ t ∈ types, ':' ∉ t.toList)
      ∧ events.map eventKey = types.map (idempotencyKey (payload.get "run_id") hash) := by
  obtain ⟨kind, passed, -, -, hbuilt⟩ := projectEntry_emits h
  have hnodup := emittedTypes_nodup kind passed
  have hcolon := emittedTypes_colon kind passed
  clear h
  generalize emittedTypes kind passed = types at hbuilt hnodup hcolon
  cases hbuilt with
  | nil => exact Or.inl rfl
  | @cons t event types events hone hrest =>
      obtain ⟨status, hash, occurredAt, refs, hhash, hat, hevent⟩ := hone
      refine Or.inr ⟨hash, t :: types, hhash, hnodup, hcolon, ?_⟩
      rw [List.map_cons, List.map_cons, eventKey_of_build hevent]
      congr 1
      clear hnodup hcolon
      induction hrest with
      | nil => rfl
      | cons hone' _ ih =>
          obtain ⟨status', hash', occurredAt', refs', hhash', -, hevent'⟩ := hone'
          rw [hhash] at hhash'
          cases hhash'
          rw [List.map_cons, List.map_cons, eventKey_of_build hevent', ih]

/-- **On a verified log no two projected events have the same key**, where no two texts hashed in
the log share a digest. -/
theorem keys_nodup {ledger entries : Val} {log : List Val} {payload : Dict} {key : String}
    {keyId : Val} {events : List Dict} (hentries : ledger.get "execution_log" (.list [])
      = .ok entries)
    (hlog : entries.iter = .ok log) (hverified : verifyChain log = .ok true)
    (hsha : ∀ p ∈ payloads log, ∀ q ∈ payloads log,
      PyRuntime.sha256 p = PyRuntime.sha256 q → p = q)
    (h : toExecutionEvents ledger payload key keyId = .ok events) :
    (events.map eventKey).Nodup := by
  have hdistinct := hashes_distinct hverified hsha
  have htext : ∀ e ∈ log, ∃ t, e.get "event_hash" = .ok (.str t) := by
    intro e he
    obtain ⟨_, _, hash, -, -, hcont⟩ := chain_mem hverified he
    exact ⟨hash, hcont.hash⟩
  rw [toExecutionEvents] at h
  obtain ⟨results, -, hcollect⟩ := except_bind_eq_ok.mp h
  rw [hentries, ok_bind, hlog, ok_bind] at hcollect
  clear hverified hsha hlog h
  induction log generalizing events with
  | nil =>
      cases hcollect
      exact List.nodup_nil
  | cons e rest ih =>
      obtain ⟨first, others, hfirst, hothers, rfl⟩ := (collect_cons _ _ _ _).mp hcollect
      obtain ⟨hhead, htail⟩ := List.pairwise_cons.mp hdistinct
      have hrest := ih htail (fun b hb => htext b (List.mem_cons_of_mem _ hb)) hothers
      rw [List.map_append]
      rcases projectEntry_keys hfirst with rfl | ⟨hash, types, hhash, hnodup, hcolon, hkeys⟩
      · simpa using hrest
      obtain ⟨t, ht⟩ := htext e List.mem_cons_self
      obtain rfl : .str t = hash := by
        have hitem := Val.item_of_get ht (by simp)
        rw [hhash] at hitem
        exact (Except.ok.inj hitem).symm
      rw [hkeys]
      refine List.Nodup.append ?_ hrest ?_
      · refine hnodup.map_on fun a ha b hb hab => ?_
        exact (idempotencyKey_inj (hcolon a ha) (hcolon b hb) hab).2
      · -- a key that both have would be made of the same hash
        intro k hk hk'
        obtain ⟨a, ha, rfl⟩ := List.mem_map.mp hk
        obtain ⟨event, hevent, hsame⟩ := List.mem_map.mp hk'
        obtain ⟨e', he', made, hmade, hin⟩ := ((collect_eq_ok hothers).2 event).mp hevent
        rcases projectEntry_keys hmade with rfl | ⟨hash', types', hhash', -, hcolon', hkeys'⟩
        · simp at hin
        obtain ⟨t', ht'⟩ := htext e' (List.mem_cons_of_mem _ he')
        obtain rfl : .str t' = hash' := by
          have hitem := Val.item_of_get ht' (by simp)
          rw [hhash'] at hitem
          exact (Except.ok.inj hitem).symm
        have hmem := List.mem_map_of_mem (f := eventKey) hin
        rw [hkeys', hsame] at hmem
        obtain ⟨b, hb, hab⟩ := List.mem_map.mp hmem
        obtain ⟨rfl, -⟩ := idempotencyKey_inj (hcolon' b hb) (hcolon a ha) hab
        exact hhead e' he' (ht.trans ht'.symm)

end Runtime

end IplanRunner
