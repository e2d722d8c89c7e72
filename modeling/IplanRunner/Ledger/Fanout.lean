import IplanRunner.Ledger.Projection

/-!
What is projected of a verified log, exactly.

* `EventOf`, `Signed`: an event names the entry it is about, and its signature is verified whatever
  moment of receipt is written into it.
* `Emits`: the events of one entry; `projection_exact`: those of a log, in its order.
* `Readable`: the ledgers that can be projected (`returns_toExecutionEvents`).
-/

namespace IplanRunner

open Foundation

section Runtime

variable [PyRuntime] {payload : Dict} {key : String} {keyId : Val}

/-! ### One event -/

/-- The event is the one of the log entry about `eventType`. -/
structure EventOf (payload : Dict) (logEvent : Val) (eventType : String) (event : Dict) : Prop where
  about : event.get "event_type" = .str eventType
  occurred : logEvent.item "at" = .ok (event.get "occurred_at")
  hashed : ∃ hash, logEvent.item "event_hash" = .ok hash
    ∧ eventKey event = idempotencyKey (payload.get "run_id") hash eventType

/-- The signature of the event is verified, whatever moment of receipt is written into it. -/
def Signed (key : String) (event : Dict) : Prop :=
  ∃ value, (event.get "signature").item "value" = .ok (.str value)
    ∧ ∀ received, verify (signingPayload (Dict.set event "received_at" received)) value key
      = .ok true

/-- A member of an event that is none of the identity. -/
lemma get_built (payload : Dict) {event : Dict} {eventType status : String}
    {occurredAt refs hash : Val} {value : String}
    (hevent : event = eventBody (identityOf payload) eventType status occurredAt refs hash
      ++ [("signature", .dict [("key_id", keyId), ("algorithm", .str "hmac-sha256"),
        ("value", .str value)])]) :
    event.get "event_type" = .str eventType ∧ event.get "occurred_at" = occurredAt
      ∧ (event.get "signature").item "value" = .ok (.str value) := by
  subst hevent
  have hnone : ∀ k, k ∉ identityFields → (identityOf payload).lookup k = none :=
    fun k hk => lookup_identityOf payload hk
  refine ⟨?_, ?_, ?_⟩
  · simp [Dict.get, eventBody, ident, List.lookup_append, hnone "event_type" (by decide),
      List.lookup_cons]
  · simp [Dict.get, eventBody, ident, List.lookup_append, hnone "occurred_at" (by decide),
      List.lookup_cons]
  · have hget : Dict.get (eventBody (identityOf payload) eventType status occurredAt refs hash
        ++ [("signature", .dict [("key_id", keyId), ("algorithm", .str "hmac-sha256"),
          ("value", .str value)])]) "signature"
        = .dict [("key_id", keyId), ("algorithm", .str "hmac-sha256"), ("value", .str value)] := by
      simp [Dict.get, eventBody, ident, List.lookup_append, hnone "signature" (by decide),
        List.lookup_cons]
    rw [hget]
    rfl

/-- **A built event is about its entry, and signed.** -/
lemma built_spec {logEvent : Val} {eventType : String} {event : Dict}
    (h : BuiltFrom payload key keyId logEvent eventType event) :
    EventOf payload logEvent eventType event ∧ Signed key event := by
  obtain ⟨status, hash, occurredAt, refs, hhash, hat, hevent⟩ := h
  have hkey := eventKey_of_build hevent
  rw [buildEvent] at hevent
  obtain ⟨value, hvalue, hevent⟩ := except_bind_eq_ok.mp hevent
  cases hevent
  obtain ⟨htype, hoccurred, hsignature⟩ := get_built payload rfl
  refine ⟨⟨htype, ?_, hash, hhash, hkey⟩, value, hsignature, fun received => ?_⟩
  · rw [hoccurred]
    exact hat
  · rw [signingPayload_set _ (by decide), signingPayload_append _ (by decide)]
    exact verify_of_sign hvalue

/-! ### What JSON has a form for -/

/-- A signed event has a JSON text, when the id of its key has one. -/
lemma built_json {eventType status : String} {occurredAt refs hash : Val} {event : Dict}
    (h : buildEvent (identityOf payload) eventType status occurredAt refs key keyId hash
      = .ok event) :
    (∀ k ∈ identityFields, holdsStamp (payload.get k) = false)
      ∧ (holdsStamp keyId = false → holdsStamp (.dict event) = false) := by
  rw [buildEvent] at h
  obtain ⟨value, hvalue, h⟩ := except_bind_eq_ok.mp h
  cases h
  rw [sign, canonicalize] at hvalue
  -- the signed members have texts
  have hsigned : ∀ p ∈ eventBody (identityOf payload) eventType status occurredAt refs hash,
      p.1 ∉ excludedEventFields → holdsStamp p.2 = false := by
    obtain ⟨text, htext, -⟩ := except_bind_eq_ok.mp hvalue
    split_ifs at htext with hcanonical
    have hnone := not_holdsStamp _ hcanonical
    rw [holdsStamp_dropNull, signingPayload, holdsStamp_dropNull, holdsStamp,
      holdsStampDict_iff] at hnone
    exact fun p hp hin => hnone p (List.mem_filter.mpr ⟨hp, by simpa using hin⟩)
  have hkept : ∀ k ∈ identityFields, k ∉ excludedEventFields := by decide
  have hidentity : ∀ k ∈ identityFields, holdsStamp (payload.get k) = false := by
    intro k hk
    refine hsigned (k, payload.get k) ?_ (hkept k hk)
    rw [eventBody, List.mem_append]
    exact Or.inl (List.mem_map.mpr ⟨k, hk, rfl⟩)
  refine ⟨hidentity, fun hkey => ?_⟩
  have hat : holdsStamp occurredAt = false :=
    hsigned ("occurred_at", occurredAt) (by simp [eventBody])
      (show "occurred_at" ∉ excludedEventFields by decide)
  rw [holdsStamp, holdsStampDict_iff]
  intro p hp
  rcases List.mem_append.mp hp with hp | hp
  · by_cases hin : p.1 ∈ excludedEventFields
    · rw [eventBody, List.mem_append] at hp
      rcases hp with hp | hp
      · obtain ⟨k, hk, rfl⟩ := List.mem_map.mp hp
        exact hidentity k hk
      · simp only [List.mem_cons, List.not_mem_nil, or_false] at hp
        rcases hp with rfl | rfl | rfl | rfl | rfl | rfl | rfl | rfl
        · rfl
        · rfl
        · rfl
        · rfl
        · exact hat
        · exact hat
        · rfl
        · exact absurd hin (by simp [excludedEventFields])
    · exact hsigned p hp hin
  · rw [List.mem_singleton.mp hp]
    simp [holdsStamp, holdsStampDict, hkey]

/-! ### The events of a log -/

/-- The events of one log entry: what its kind is projected to, a completed task being tested by the
acceptance of its task. -/
def Emits (results : List (Val × Val)) (payload : Dict) (logEvent : Val) (events : List Dict) :
    Prop :=
  ∃ kind passed, logEvent.get "event_type" = .ok kind
    ∧ (kind = .str "task_completed" → ∃ subject result, logEvent.get "subject_id" = .ok subject
      ∧ resultOf results subject = .ok result ∧ passed = result.pyEq (.str "pass"))
    ∧ List.Forall₂ (EventOf payload logEvent) (emittedTypes kind passed) events

/-- What the projection reads can be read: the results, kinds and subjects that can be looked up,
and values with a canonical text. -/
structure Readable (ledger : Val) (log : List Val) (payload : Dict) : Prop where
  results : Returns (acceptanceResults ledger)
  identity : ∀ k ∈ identityFields, hasCanonicalText (payload.get k) = true
  kinds : ∀ e ∈ log, ∀ kind, e.get "event_type" = .ok kind → kind.hashable = true
  subjects : ∀ e ∈ log, ∀ subject, e.get "subject_id" = .ok subject → subject.hashable = true
  times : ∀ e ∈ log, ∀ occurredAt, e.item "at" = .ok occurredAt → hasCanonicalText occurredAt = true
  paths : ∀ e ∈ log, ∀ paths, e.get "touched_paths" = .ok paths → hasCanonicalText paths = true

/-- The members of an event have texts when those of its identity and its entry do. -/
lemma returns_buildEvent {eventType status : String} {occurredAt refs hash : Val}
    (hidentity : ∀ k ∈ identityFields, hasCanonicalText (payload.get k) = true)
    (hat : hasCanonicalText occurredAt = true) (hrefs : hasCanonicalText refs = true) :
    Returns (buildEvent (identityOf payload) eventType status occurredAt refs key keyId hash) := by
  rw [buildEvent]
  refine (returns_sign (fun p hp => ?_) key).bind fun value _ => returns_pure _
  rw [eventBody, List.mem_append] at hp
  rcases hp with hp | hp
  · obtain ⟨k, hk, rfl⟩ := List.mem_map.mp hp
    exact hidentity k hk
  · simp only [List.mem_cons, List.not_mem_nil, or_false] at hp
    rcases hp with rfl | rfl | rfl | rfl | rfl | rfl | rfl | rfl
    · rfl
    · rfl
    · rfl
    · rfl
    · exact hat
    · exact hat
    · rfl
    · exact hrefs

/-- The entries of a verified log have the members the projection reads. -/
lemma Continued.members {prevHash : Option String} {index : ℕ} {logEvent : Val} {hash : String}
    (h : Continued prevHash index logEvent hash) :
    logEvent.item "event_hash" = .ok (.str hash)
      ∧ (∃ occurredAt, logEvent.item "at" = .ok occurredAt)
      ∧ ∀ name d, ∃ v, logEvent.get name d = .ok v := by
  refine ⟨Val.item_of_get h.hash (by simp), ?_, fun name d => ?_⟩
  · obtain ⟨t, s, a, -, -, ha, -⟩ := h.texts
    rw [fieldText] at ha
    obtain ⟨occurredAt, hat, -⟩ := except_bind_eq_ok.mp ha
    exact ⟨occurredAt, hat⟩
  · cases logEvent with
    | dict kvs => exact ⟨_, rfl⟩
    | _ => cases h.hash

/-- **A readable ledger is projected.** -/
theorem returns_toExecutionEvents {ledger entries : Val} {log : List Val}
    (hentries : ledger.get "execution_log" (.list []) = .ok entries) (hlog : entries.iter = .ok log)
    (hverified : verifyChain log = .ok true) (hreadable : Readable ledger log payload) :
    Returns (toExecutionEvents ledger payload key keyId) := by
  obtain ⟨results, hresults⟩ := hreadable.results
  rw [toExecutionEvents, hresults, hentries, ok_bind, ok_bind, hlog, ok_bind]
  refine returns_collect fun e he => ?_
  obtain ⟨prev, j, hash, -, -, hcont⟩ := chain_mem hverified he
  obtain ⟨hhash, ⟨occurredAt, hat⟩, hget⟩ := hcont.members
  obtain ⟨kind, hkind⟩ := hget "event_type" .none
  obtain ⟨paths, hpaths⟩ := hget "touched_paths" .none
  obtain ⟨subject, hsubject⟩ := hget "subject_id" .none
  have hrefs : hasCanonicalText (paths.orElse (.list [])) = true := by
    rw [Val.orElse]
    split_ifs
    · exact hreadable.paths e he paths hpaths
    · rfl
  have hone : ∀ eventType status refs, hasCanonicalText refs = true →
      Returns (buildEvent (identityOf payload) eventType status occurredAt refs key keyId
        (.str hash)) :=
    fun eventType status refs hr =>
      returns_buildEvent hreadable.identity (hreadable.times e he occurredAt hat) hr
  rw [projectEntry, hkind, ok_bind]
  simp only [hreadable.kinds e he kind hkind, Bool.not_true, Bool.false_eq_true, if_false]
  split
  · exact returns_pure _
  · rw [hhash, hat, hpaths, ok_bind, ok_bind, ok_bind]
    refine (hone _ _ _ hrefs).bind fun event _ => ?_
    split_ifs
    · rw [hsubject, ok_bind, resultOf, hreadable.subjects e he subject hsubject]
      refine (hone _ _ _ rfl).bind fun test _ => returns_pure _
    · exact returns_pure _

/-- **The projection is exact.**  On a ledger with a verified chain, where no two texts hashed in
the log share a digest: a readable ledger is projected, and what is projected are the events of the
entries, in the order of the log, with distinct keys and with signatures that the moment of receipt
does not break. -/
theorem projection_exact {ledger entries : Val} {log : List Val}
    (hentries : ledger.get "execution_log" (.list []) = .ok entries) (hlog : entries.iter = .ok log)
    (hverified : verifyChain log = .ok true)
    (hsha : ∀ p ∈ payloads log, ∀ q ∈ payloads log, PyRuntime.sha256 p = PyRuntime.sha256 q → p = q)
    (payload : Dict) (key : String) (keyId : Val) :
    (Readable ledger log payload → Returns (toExecutionEvents ledger payload key keyId))
      ∧ ∀ events, toExecutionEvents ledger payload key keyId = .ok events →
        (∃ results parts, acceptanceResults ledger = .ok results ∧ events = parts.flatten
          ∧ List.Forall₂ (Emits results payload) log parts)
        ∧ (events.map eventKey).Nodup ∧ ∀ event ∈ events, Signed key event := by
  refine ⟨returns_toExecutionEvents hentries hlog hverified, fun events hevents => ?_⟩
  have hnodup := keys_nodup hentries hlog hverified hsha hevents
  rw [toExecutionEvents] at hevents
  obtain ⟨results, hresults, hcollect⟩ := except_bind_eq_ok.mp hevents
  rw [hentries, ok_bind, hlog, ok_bind] at hcollect
  obtain ⟨parts, rfl, hparts⟩ := collect_parts hcollect
  refine ⟨⟨results, parts, hresults, rfl, hparts.imp fun e part hpart => ?_⟩, hnodup, ?_⟩
  · obtain ⟨kind, passed, hkind, hpassed, hbuilt⟩ := projectEntry_emits hpart
    exact ⟨kind, passed, hkind, hpassed, hbuilt.imp fun _ _ hone => (built_spec hone).1⟩
  · intro event hevent
    obtain ⟨e, -, part, hpart, hin⟩ := ((collect_eq_ok hcollect).2 event).mp hevent
    obtain ⟨kind, passed, -, -, hbuilt⟩ := projectEntry_emits hpart
    obtain ⟨eventType, -, hone⟩ := exists_of_forall₂ hbuilt hin
    exact (built_spec hone).2

end Runtime

section Example

attribute [local instance] cpython

/-- A ledger with one completed task, and what its projection reads of a payload. -/
def completedDoc : Val :=
  .dict [("task_ledger", .list [.dict [("task_id", .str "T1"),
      ("acceptance", .dict [("result", .str "pass")])]]),
    ("execution_log",
      .list [onlyEvent (.str "task_completed") (.str "T1") (.str "2026-06-26T00:00:00+00:00")])]

set_option maxRecDepth 4096 in
/-- A ledger with one completed task is projected to two events with distinct keys. -/
theorem projection_exact_of_completed :
    ∃ events, toExecutionEvents completedDoc [("run_id", .str "R1")] "k" (.str "default")
      = .ok events
      ∧ (events.map eventKey).Nodup ∧ ∀ event ∈ events, Signed "k" event := by
  have hentries : completedDoc.get "execution_log" (.list []) = .ok (.list
      [onlyEvent (.str "task_completed") (.str "T1") (.str "2026-06-26T00:00:00+00:00")]) := rfl
  have hexact := projection_exact hentries rfl (by decide +kernel) (by decide +kernel)
    [("run_id", .str "R1")] "k" (.str "default")
  have hreadable : Readable completedDoc
      [onlyEvent (.str "task_completed") (.str "T1") (.str "2026-06-26T00:00:00+00:00")]
      [("run_id", .str "R1")] := by
    refine ⟨⟨_, rfl⟩, by decide, ?_, ?_, ?_, ?_⟩
    all_goals
      intro e he v hv
      rw [List.mem_singleton] at he
      subst he
      cases hv
      rfl
  obtain ⟨events, hevents⟩ := hexact.1 hreadable
  obtain ⟨-, hnodup, hsigned⟩ := hexact.2 events hevents
  exact ⟨events, hevents, hnodup, hsigned⟩

end Example

end IplanRunner
