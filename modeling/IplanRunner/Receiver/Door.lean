import IplanRunner.Intake.Door
import IplanRunner.Receiver.Request
import IplanRunner.Receiver.Script

/-!
The door of the receiver: one `POST` request and its reply (`receiver/http.py`).

* `PostOp`, `doPost`: the handler, which reads the body, parses it and goes on with `postTask`.
* `PostOp.Works`: the socket, the database and the pool work, and `json.loads` is itself.
* `Answered`: exactly one reply, with a status of the door, after which the handler returns.
* `Tame`: the requests on which nothing raises but what the handler catches.
* `answered_iff`: a request is answered exactly when it is tame.
-/

namespace IplanRunner

open Foundation

/-! ### The handler -/

/-- What the handler calls. -/
inductive PostOp where
  | logUnauthenticated
  | read (length : ℕ)
  | loads (raw : List UInt8)
  | relay (op : RelayOp)

/-- What a call returns. -/
@[reducible] def PostOp.Res : PostOp → Type
  | .logUnauthenticated => Unit
  | .read _ => List UInt8
  | .loads _ => Val
  | .relay op => op.Res

/-- A part of the handler. -/
abbrev PostHandler : Type → Type := Routine Raised PostOp PostOp.Res

/-- A call with its answer. -/
abbrev PostExchange : Type := Exchange Raised PostOp PostOp.Res

/-- A call of the handler. -/
def ask (op : PostOp) : PostHandler op.Res := Routine.perform op

/-- A part that makes the calls of the receiver only. -/
def relayed {α : Type} : Relay α → PostHandler α
  | .done out => .done out
  | .call op next => .call (.relay op) fun out => relayed (next out)

/-- `_TASKS_PATH`. -/
def tasksPath : String := "/v1/tasks"

/-- `self._reply(status, body)`. -/
def respond (status : ℕ) (body : Dict) : PostHandler Unit :=
  ask (.relay (.reply status body))

/-- The reply to a body that is no acceptable payload. -/
def schemaInvalid (detail : String) : PostHandler Unit :=
  respond 400 [("reason", .str "schema_invalid"), ("detail", .str detail)]

/-- `self.rfile.read(length) if length else b""`. -/
def readBody (length : ℕ) : PostHandler (List UInt8) :=
  if length = 0 then pure [] else ask (.read length)

/-- `json.loads(raw) if raw else None`; none where it raises a `JSONDecodeError`. -/
def loadPayload (raw : List UInt8) : PostHandler (Option Val) :=
  if raw = [] then pure (some .none)
  else Routine.handle (do return some (← ask (.loads raw))) fun e =>
    if e = .exception jsonDecodeError then pure none else .raise e

section Runtime

variable [SqlText]

/-- `do_POST` from `validate_payload` on. -/
def postPayload (exempt : List String) (payload : Dict) : PostHandler Unit := do
  match ← relayed (pyLift (validatePayload exempt payload)) with
  | f :: _ => schemaInvalid f.ruleId.text
  | [] => relayed (postTask payload)

/-- `do_POST` from the read of the body on. -/
def postBody (exempt : List String) (length : ℕ) : PostHandler Unit := do
  match ← loadPayload (← readBody length) with
  | none => schemaInvalid "body is not valid JSON"
  | some (.dict payload) => postPayload exempt payload
  | some _ => schemaInvalid "body must be a JSON object"

/-- `do_POST`, where `token` is the one of the server. -/
def doPost (exempt : List String) (token : String) (request : PostRequest) : PostHandler Unit := do
  if request.path ≠ tasksPath then respond 404 [("reason", .str "not_found")]
  else if ← relayed (pyLift (verifyBearer (request.authorization.map headerText) token)) then
    match validateContentLength (request.contentLength.map headerText) with
    | .error (status, detail) =>
        let reason := if status = 400 then "schema_invalid" else "payload_too_large"
        respond status [("reason", .str reason), ("detail", .str detail)]
    | .ok length => postBody exempt length
  else
    ask .logUnauthenticated
    respond 401 [("reason", .str "unauthenticated")]

end Runtime

/-! ### What is asked of the handler -/

/-- The call reads or parses the body. -/
def PostOp.parses : PostOp → Bool
  | .read _ => true
  | .loads _ => true
  | _ => false

/-- The status of a reply. -/
def PostOp.status? : PostOp → Option ℕ
  | .relay (.reply status _) => some status
  | _ => none

/-- The replies among the calls. -/
def replies (calls : List PostExchange) : List ℕ := calls.filterMap fun x => x.op.status?

/-- The statuses of the door. -/
def doorStatuses : List ℕ := [202, 400, 401, 404, 413, 503]

/-- The request carries the token of the server. -/
def Presents (token : String) (request : PostRequest) : Prop :=
  token ≠ "" ∧ ∃ raw, request.authorization = some raw ∧ headerText raw = bearer ++ token

/-- The body holds a payload the door accepts. -/
def AcceptableBody [JsonDecoder] (exempt : List String) (raw : List UInt8) : Prop :=
  raw ≠ [] ∧ ∃ payload, jsonLoads raw = .ok (.dict payload) ∧ DoorAccepts exempt payload

/-- The length of the body, where the header declares one. -/
def PostRequest.declares (request : PostRequest) (length : ℕ) : Prop :=
  validateContentLength (request.contentLength.map headerText) = .ok length

/-- **The door has answered**: one reply, and no exception; a request without the token reaches
neither the body nor its parsing; a body without an acceptable payload gets `400`. -/
structure Answered [JsonDecoder] (exempt : List String) (token : String) (request : PostRequest)
    (calls : List PostExchange) (out : Except Raised Unit) : Prop where
  returns : out = .ok ()
  one : ∃ status ∈ doorStatuses, replies calls = [status]
  guarded : ¬ Presents token request → ∀ x ∈ calls, x.op.parses = false
  refuses : request.path = tasksPath → Presents token request → ∀ length, request.declares length →
    ¬ AcceptableBody exempt (request.body.take length) → replies calls = [400]

/-- The socket, the database, the pool and the log work, and the library parses what it is given. -/
def PostOp.Works [JsonDecoder] (body : List UInt8) (x : PostExchange) : Prop :=
  match x with
  | ⟨.logUnauthenticated, out⟩ => Returns out
  | ⟨.read length, out⟩ => out = .ok (body.take length)
  | ⟨.loads raw, out⟩ => out = (jsonLoads raw).mapError Raised.exception
  | ⟨.relay _, out⟩ => Returns out

/-! ### What the handler does not catch -/

/-- A payload `validate_payload` does not raise on; where it is acceptable, the driver takes its
ids. -/
structure TamePayload [SqlText] (exempt : List String) (payload : Dict) : Prop where
  workOrder : (payload.get "work_order").truthy = true →
    ∃ workOrder, payload.get "work_order" = .dict workOrder
  ids : DoorAccepts exempt payload → (SqlText.column (payload.get "run_id")).isSome
    ∧ (SqlText.column (payload.get "task_id")).isSome

/-- A body that parses, or that is malformed JSON. -/
structure TameBody [JsonDecoder] [SqlText] (exempt : List String) (raw : List UInt8) : Prop where
  parses : ∀ e, jsonLoads raw = .error e → e = jsonDecodeError
  payload : ∀ payload, jsonLoads raw = .ok (.dict payload) → TamePayload exempt payload

/-- A request with a path of its own; or with a bearer token that, like the one of the server, is
ASCII, and, where it is the one, with a tame body. -/
structure Tame [JsonDecoder] [SqlText] (exempt : List String) (token : String)
    (request : PostRequest) : Prop where
  ascii : request.path = tasksPath → token ≠ "" → ∀ raw presented,
    request.authorization = some raw → headerText raw = bearer ++ presented →
      isAscii presented = true ∧ isAscii token = true
  body : request.path = tasksPath → Presents token request → ∀ length, request.declares length →
    request.body.take length ≠ [] → TameBody exempt (request.body.take length)

section Runs

variable [JsonDecoder] {exempt : List String} {token : String} {request : PostRequest}
  {body : List UInt8} {past : List PostExchange} {α β : Type}

/-! ### Parts that are run where everything works -/

/-- Every call is answered as it is where everything works. -/
def working (body : List UInt8) : Contract Raised PostOp PostOp.Res where
  allowed _ _ := True
  expected := PostOp.Works body

/-- The part returns after one reply, behind those before, with a status that satisfies `P`. -/
def RepliesOnce (P : ℕ → Prop) (before : List ℕ) (calls : List PostExchange)
    (out : Except Raised Unit) : Prop :=
  out = .ok () ∧ ∃ status, P status ∧ replies calls = before ++ [status]

/-- The part raises. -/
def RaisesUncaught (_ : List PostExchange) (out : Except Raised Unit) : Prop := ∃ e, out = .error e

lemma meets_respond {P : ℕ → Prop} {status : ℕ} (h : P status) (reply : Dict) :
    (respond status reply).Meets (working body) past (RepliesOnce P (replies past)) := by
  refine ⟨trivial, fun out hout => ?_⟩
  obtain ⟨u, rfl⟩ : Returns out := hout
  exact ⟨rfl, status, h, by simp [replies, PostOp.status?]⟩

/-- A call of the receiver that is no reply. -/
lemma meets_relay {op : RelayOp} (hop : (PostOp.relay op).status? = none)
    {f : op.Res → PostHandler Unit} {P : ℕ → Prop}
    (h : ∀ a past', replies past' = replies past →
      (f a).Meets (working body) past' (RepliesOnce P (replies past'))) :
    (relayed (invoke op) >>= f).Meets (working body) past (RepliesOnce P (replies past)) := by
  refine ⟨trivial, fun out hout => ?_⟩
  obtain ⟨a, rfl⟩ : Returns out := hout
  have hsame : replies (past ++ [⟨.relay op, .ok a⟩]) = replies past := by
    simp [replies, hop]
  rw [← hsame]
  exact h a _ hsame

omit [JsonDecoder] in
lemma relayed_bind (p : Relay α) (f : α → Relay β) :
    relayed (p >>= f) = relayed p >>= fun a => relayed (f a) := by
  induction p with
  | done out => cases out <;> rfl
  | call op next ih => exact congrArg (Routine.call (PostOp.relay op)) (funext ih)

section Payload

variable [SqlText] {payload : Dict}

/-- The statuses behind the checks. -/
def Taken (status : ℕ) : Prop := status = 202 ∨ status = 503

omit [JsonDecoder] [SqlText] in
/-- What the door accepts names its run. -/
lemma item_runId (h : validatePayload exempt payload = .ok []) :
    (Val.dict payload).item "run_id" = .ok (payload.get "run_id") := by
  have htruthy := (doorPassed h).ids "run_id" (by simp [requiredIds])
  refine Val.item_of_get rfl fun hnone => ?_
  rw [hnone] at htruthy
  cases htruthy

/-- **A payload the door accepts, with ids the driver takes, gets one reply.** -/
lemma meets_postTask_door (hdoor : DoorAccepts exempt payload)
    (hrun : (SqlText.column (payload.get "run_id")).isSome)
    (htask : (SqlText.column (payload.get "task_id")).isSome) :
    (relayed (postTask payload)).Meets (working body) past (RepliesOnce Taken (replies past)) := by
  obtain ⟨run, hrun⟩ := Option.isSome_iff_exists.mp hrun
  obtain ⟨task, htask⟩ := Option.isSome_iff_exists.mp htask
  have hkey : taskKey (payload.get "run_id") (payload.get "task_id") = .ok (run, task) := by
    rw [taskKey, hrun, htask]
  have hlogged : ∀ {status : ℕ} (notice : Notice) (reply : Dict) (past' : List PostExchange),
      Taken status → (relayed (do
        invoke (.log notice)
        invoke (.reply status reply))).Meets (working body) past'
          (RepliesOnce Taken (replies past')) := by
    intro status notice reply past' hstatus
    rw [relayed_bind]
    exact meets_relay rfl fun _ past'' _ => meets_respond hstatus reply
  rw [postTask, item_runId hdoor.1]
  change (relayed (if (payload.get "task_id").truthy = true then _ else _)).Meets _ _ _
  rw [if_pos hdoor.2, hkey]
  change (relayed (acceptOf (run, task) >>= _)).Meets _ _ _
  rw [relayed_bind]
  refine meets_relay rfl fun decision past' _ => ?_
  change (relayed (if decision = .replay then _ else _)).Meets _ _ _
  split_ifs
  · exact hlogged _ _ past' (Or.inl rfl)
  · rw [relayed_bind]
    refine meets_relay rfl fun free past'' _ => ?_
    cases free with
    | false => exact hlogged _ _ past'' (Or.inr rfl)
    | true =>
        change (relayed (invoke (.startWorker payload) >>= _)).Meets _ _ _
        rw [relayed_bind]
        exact meets_relay rfl fun _ pastLast _ => hlogged _ _ pastLast (Or.inl rfl)

/-- A payload without findings that names no task. -/
lemma meets_postTask_missing (hvalid : validatePayload exempt payload = .ok [])
    (htask : ¬ (payload.get "task_id").truthy = true) :
    (relayed (postTask payload)).Meets (working body) past
      (RepliesOnce (· = 400) (replies past)) := by
  rw [postTask, item_runId hvalid]
  change (relayed (if (payload.get "task_id").truthy = true then _ else _)).Meets _ _ _
  rw [if_neg htask]
  exact @meets_respond _ body past (· = 400) 400 rfl _

/-- An id the driver does not take raises. -/
lemma meets_postTask_raises (hdoor : DoorAccepts exempt payload)
    (hids : ¬ ((SqlText.column (payload.get "run_id")).isSome
      ∧ (SqlText.column (payload.get "task_id")).isSome)) :
    (relayed (postTask payload)).Meets (working body) past RaisesUncaught := by
  have hkey : ∃ e, taskKey (payload.get "run_id") (payload.get "task_id") = .error e := by
    rw [taskKey]
    split
    · rename_i run task hrun htask
      exact absurd ⟨by rw [hrun]; rfl, by rw [htask]; rfl⟩ hids
    · exact ⟨_, rfl⟩
  obtain ⟨e, hkey⟩ := hkey
  rw [postTask, item_runId hdoor.1]
  change (relayed (if (payload.get "task_id").truthy = true then _ else _)).Meets _ _ _
  rw [if_pos hdoor.2, hkey]
  exact ⟨_, rfl⟩

omit [JsonDecoder] [SqlText] in
/-- `validate_payload` raises on a work order that is no object, and on nothing else. -/
lemma returns_validatePayload_iff : Returns (validatePayload exempt payload)
    ↔ ((payload.get "work_order").truthy = true →
      ∃ workOrder, payload.get "work_order" = .dict workOrder) := by
  have hget : Returns (validatePayload exempt payload)
      ↔ Returns (((payload.get "work_order").orElse (.dict [])).get "todos") := by
    rw [validatePayload]
    cases ((payload.get "work_order").orElse (.dict [])).get "todos" with
    | ok todos => exact iff_of_true (returns_pure _) (returns_ok _)
    | error e => exact iff_of_false (by rintro ⟨fs, hfs⟩; cases hfs) (by rintro ⟨v, hv⟩; cases hv)
  rw [hget, Val.orElse]
  generalize payload.get "work_order" = v
  by_cases htruthy : v.truthy = true
  · rw [if_pos htruthy]
    cases v with
    | dict workOrder => exact iff_of_true ⟨_, rfl⟩ fun _ => ⟨workOrder, rfl⟩
    | _ =>
        refine iff_of_false (by rintro ⟨v, hv⟩; cases hv) fun h => ?_
        obtain ⟨workOrder, hworkOrder⟩ := h htruthy
        cases hworkOrder
  · rw [if_neg htruthy]
    exact iff_of_true ⟨_, rfl⟩ fun h => absurd h htruthy

/-- A status of the door, `400` where the payload is not acceptable. -/
def PayloadStatus (exempt : List String) (payload : Dict) (status : ℕ) : Prop :=
  status ∈ doorStatuses ∧ (¬ DoorAccepts exempt payload → status = 400)

omit [JsonDecoder] [SqlText] in
lemma RepliesOnce.mono {P P' : ℕ → Prop} {before : List ℕ} {calls : List PostExchange}
    {out : Except Raised Unit} (h : RepliesOnce P before calls out)
    (hP : ∀ status, P status → P' status) : RepliesOnce P' before calls out := by
  obtain ⟨hout, status, hstatus, hreplies⟩ := h
  exact ⟨hout, status, hP status hstatus, hreplies⟩

/-- **A tame payload gets one reply.** -/
lemma meets_postPayload (h : TamePayload exempt payload) :
    (postPayload exempt payload).Meets (working body) past
      (RepliesOnce (PayloadStatus exempt payload) (replies past)) := by
  obtain ⟨fs, hfs⟩ := returns_validatePayload_iff.mpr h.workOrder
  rw [postPayload, hfs]
  cases fs with
  | cons f rest => exact meets_respond ⟨by simp [doorStatuses], fun _ => rfl⟩ _
  | nil =>
      by_cases htask : (payload.get "task_id").truthy = true
      · have hdoor : DoorAccepts exempt payload := ⟨hfs, htask⟩
        obtain ⟨hrunId, htaskId⟩ := h.ids hdoor
        refine (meets_postTask_door hdoor hrunId htaskId).mono fun _ _ _ hout => hout.mono ?_
        rintro status (rfl | rfl)
        · exact ⟨by simp [doorStatuses], fun hnot => absurd hdoor hnot⟩
        · exact ⟨by simp [doorStatuses], fun hnot => absurd hdoor hnot⟩
      · refine (meets_postTask_missing hfs htask).mono fun _ _ _ hout => hout.mono ?_
        rintro status rfl
        exact ⟨by simp [doorStatuses], fun _ => rfl⟩

/-- A payload that is not tame raises. -/
lemma raises_postPayload (h : ¬ TamePayload exempt payload) :
    (postPayload exempt payload).Meets (working body) past RaisesUncaught := by
  rcases hvalid : validatePayload exempt payload with e | fs
  · rw [postPayload, hvalid]
    exact ⟨_, rfl⟩
  · have hwork := returns_validatePayload_iff.mp ⟨fs, hvalid⟩
    have hids : ¬ (DoorAccepts exempt payload → (SqlText.column (payload.get "run_id")).isSome
        ∧ (SqlText.column (payload.get "task_id")).isSome) := fun hids => h ⟨hwork, hids⟩
    obtain ⟨hdoor, hnone⟩ := Classical.not_imp.mp hids
    rw [postPayload, hdoor.1]
    exact meets_postTask_raises hdoor hnone

/-! ### The body -/

/-- A status of the door, `400` where the body holds no acceptable payload. -/
def BodyStatus (exempt : List String) (raw : List UInt8) (status : ℕ) : Prop :=
  status ∈ doorStatuses ∧ (¬ AcceptableBody exempt raw → status = 400)

omit [SqlText] in
/-- What the library makes of a body that is read. -/
lemma meets_loadPayload {raw : List UInt8} {f : Option Val → PostHandler Unit}
    {Q : List PostExchange → Except Raised Unit → Prop}
    (hempty : raw = [] → (f (some .none)).Meets (working body) past Q)
    (hok : ∀ payload past', raw ≠ [] → jsonLoads raw = .ok payload → replies past' = replies past →
      (f (some payload)).Meets (working body) past' Q)
    (hmalformed : ∀ past', raw ≠ [] → jsonLoads raw = .error jsonDecodeError →
      replies past' = replies past → (f none).Meets (working body) past' Q)
    (hraises : ∀ e past', raw ≠ [] → jsonLoads raw = .error e → e ≠ jsonDecodeError →
      replies past' = replies past → Q past' (.error (.exception e))) :
    (loadPayload raw >>= f).Meets (working body) past Q := by
  rw [loadPayload]
  split_ifs with hraw
  · exact hempty hraw
  · refine ⟨trivial, fun out hout => ?_⟩
    obtain rfl : out = (jsonLoads raw).mapError Raised.exception := hout
    have hsame : replies (past ++ [⟨.loads raw, (jsonLoads raw).mapError Raised.exception⟩])
        = replies past := by simp [replies, PostOp.status?]
    rcases hloads : jsonLoads raw with e | payload
    · rw [hloads] at hsame
      by_cases he : e = jsonDecodeError
      · subst he
        exact hmalformed _ hraw hloads hsame
      · change Routine.Meets _ ((if Raised.exception e = .exception jsonDecodeError then _
          else Routine.raise (Raised.exception e)).resume _) _ _
        rw [if_neg fun heq => he (Raised.exception.inj heq)]
        exact hraises e _ hraw hloads he hsame
    · rw [hloads] at hsame
      exact hok payload _ hraw hloads hsame

omit [SqlText] in
/-- As much of the body is read as the header declares. -/
lemma meets_readBody {length : ℕ} {f : List UInt8 → PostHandler Unit}
    {Q : List PostExchange → Except Raised Unit → Prop}
    (h : ∀ past', replies past' = replies past →
      (f (body.take length)).Meets (working body) past' Q) :
    (readBody length >>= f).Meets (working body) past Q := by
  rw [readBody]
  split_ifs with hlength
  · subst hlength
    exact h past rfl
  · refine ⟨trivial, fun out hout => ?_⟩
    obtain rfl : out = .ok (body.take length) := hout
    exact h _ (by simp [replies, PostOp.status?])

/-- **A tame body gets one reply.** -/
lemma meets_postBody {length : ℕ} (h : body.take length ≠ [] → TameBody exempt (body.take length)) :
    (postBody exempt length).Meets (working body) past
      (RepliesOnce (BodyStatus exempt (body.take length)) (replies past)) := by
  have hinvalid : ∀ detail past', (schemaInvalid detail).Meets (working body) past'
      (RepliesOnce (BodyStatus exempt (body.take length)) (replies past')) := fun detail past' =>
    meets_respond ⟨by simp [doorStatuses], fun _ => rfl⟩ _
  refine meets_readBody fun past' hpast => ?_
  rw [← hpast]
  refine meets_loadPayload (fun _ => hinvalid _ past') ?_ ?_ ?_
  · intro payload past'' hsome hloads hsame
    rw [← hsame]
    cases payload with
    | dict payload =>
        refine (meets_postPayload ((h hsome).payload payload hloads)).mono fun _ _ _ hout =>
          hout.mono fun status hstatus => ⟨hstatus.1, fun hnot => hstatus.2 fun hdoor => ?_⟩
        exact hnot ⟨hsome, payload, hloads, hdoor⟩
    | _ => exact hinvalid _ past''
  · intro past'' _ _ hsame
    rw [← hsame]
    exact hinvalid _ past''
  · intro e _ hsome hloads hne
    exact absurd ((h hsome).parses e hloads) hne

/-- A body that is not tame raises. -/
lemma raises_postBody {length : ℕ} (hsome : body.take length ≠ [])
    (h : ¬ TameBody exempt (body.take length)) :
    (postBody exempt length).Meets (working body) past RaisesUncaught := by
  refine meets_readBody fun past' _ => ?_
  refine meets_loadPayload (fun hnone => absurd hnone hsome) ?_ ?_ ?_
  · intro payload past'' _ hloads _
    have hall : ∀ e, jsonLoads (body.take length) = .error e → e = jsonDecodeError := by
      intro e he
      rw [hloads] at he
      cases he
    have hwild : ¬ ∀ payload, jsonLoads (body.take length) = .ok (.dict payload) →
        TamePayload exempt payload := fun hpayload => h ⟨hall, hpayload⟩
    push Not at hwild
    obtain ⟨payload', hloads', hpayload⟩ := hwild
    rw [hloads] at hloads'
    cases hloads'
    exact raises_postPayload hpayload
  · intro past'' _ hloads _
    refine absurd ⟨fun e he => ?_, fun payload hpayload => ?_⟩ h
    · rw [hloads] at he
      exact (Except.error.inj he).symm
    · rw [hloads] at hpayload
      cases hpayload
  · intro e _ _ _ _ _
    exact ⟨_, rfl⟩

/-! ### The request -/

omit [JsonDecoder] [SqlText] in
/-- Only the token of the server passes. -/
lemma presents_of_verified
    (h : verifyBearer (request.authorization.map headerText) token = .ok true) :
    Presents token request := by
  by_cases hnone : token = "" ∨ ∀ presented,
      request.authorization.map headerText ≠ some (bearer ++ presented)
  · rw [verifyBearer_false hnone] at h
    cases h
  · push Not at hnone
    obtain ⟨htoken, presented, hheader⟩ := hnone
    rw [hheader, verifyBearer_bearer htoken, compareTexts] at h
    split_ifs at h
    obtain rfl : presented = token := by simpa using h
    obtain ⟨raw, hraw, htext⟩ := Option.map_eq_some_iff.mp hheader
    exact ⟨htoken, raw, hraw, htext⟩

omit [JsonDecoder] [SqlText] in
/-- Texts of ASCII characters are compared. -/
lemma verifyBearer_ascii (h : token ≠ "" → ∀ raw presented, request.authorization = some raw →
      headerText raw = bearer ++ presented → isAscii presented = true ∧ isAscii token = true) :
    Presents token request ∧ verifyBearer (request.authorization.map headerText) token = .ok true
      ∨ ¬ Presents token request
        ∧ verifyBearer (request.authorization.map headerText) token = .ok false := by
  by_cases hnone : token = "" ∨ ∀ presented,
      request.authorization.map headerText ≠ some (bearer ++ presented)
  · refine Or.inr ⟨?_, verifyBearer_false hnone⟩
    rintro ⟨htoken, raw, hraw, htext⟩
    rcases hnone with hempty | hnone
    · exact htoken hempty
    · exact hnone token (by rw [hraw, Option.map_some, htext])
  · push Not at hnone
    obtain ⟨htoken, presented, hheader⟩ := hnone
    obtain ⟨raw, hraw, htext⟩ := Option.map_eq_some_iff.mp hheader
    obtain ⟨hpresented, hexpected⟩ := h htoken raw presented hraw htext
    have hcompared : verifyBearer (request.authorization.map headerText) token
        = .ok (presented == token) := by
      rw [hheader, verifyBearer_bearer htoken, compareTexts, hpresented, hexpected]
      rfl
    by_cases heq : presented = token
    · refine Or.inl ⟨⟨htoken, raw, hraw, by rw [htext, heq]⟩, ?_⟩
      rw [hcompared, heq, beq_self_eq_true]
    · refine Or.inr ⟨?_, ?_⟩
      · rintro ⟨-, raw', hraw', htext'⟩
        rw [hraw] at hraw'
        cases hraw'
        rw [htext] at htext'
        exact heq (by simpa using htext')
      · rw [hcompared, beq_false_of_ne heq]

/-- A status of the door, `400` where the body of an authenticated request holds no acceptable
payload. -/
def RequestStatus (exempt : List String) (token : String) (request : PostRequest) (status : ℕ) :
    Prop :=
  status ∈ doorStatuses ∧ (request.path = tasksPath → Presents token request → ∀ length,
    request.declares length → ¬ AcceptableBody exempt (request.body.take length) → status = 400)

/-- **A tame request gets one reply.** -/
lemma meets_doPost (h : Tame exempt token request) :
    (doPost exempt token request).Meets (working request.body) []
      (RepliesOnce (RequestStatus exempt token request) []) := by
  rw [doPost]
  split_ifs with hpath
  · exact @meets_respond _ _ [] _ _ ⟨by simp [doorStatuses], fun heq => absurd heq hpath⟩ _
  · have hpath : request.path = tasksPath := by simpa using hpath
    rcases verifyBearer_ascii (h.ascii hpath) with ⟨hpresents, hverified⟩ | ⟨hpresents, hverified⟩
    · rw [hverified]
      rcases hlength : validateContentLength (request.contentLength.map headerText) with
        ⟨status, detail⟩ | length
      · -- without a length there is no body to speak of
        have hnone : ∀ length, ¬ request.declares length := by
          intro length hdeclares
          rw [PostRequest.declares, hlength] at hdeclares
          cases hdeclares
        have hstatus : RequestStatus exempt token request status := by
          refine ⟨?_, fun _ _ length hdeclares => absurd hdeclares (hnone length)⟩
          rcases validateContentLength_error hlength with rfl | rfl <;> simp [doorStatuses]
        exact @meets_respond _ _ [] _ _ hstatus _
      · refine (@meets_postBody _ exempt request.body [] _ length
          (h.body hpath hpresents length hlength)).mono fun _ _ _ hout => hout.mono ?_
        refine fun status hstatus => ⟨hstatus.1, fun _ _ length' hdeclares hnot => hstatus.2 ?_⟩
        obtain rfl : length = length' := Except.ok.inj (hlength.symm.trans hdeclares)
        exact hnot
    · rw [hverified]
      refine ⟨trivial, fun out hout => ?_⟩
      obtain ⟨u, rfl⟩ : Returns out := hout
      have hstatus : RequestStatus exempt token request 401 :=
        ⟨by simp [doorStatuses], fun _ hyes => absurd hyes hpresents⟩
      exact @meets_respond _ _ [⟨.logUnauthenticated, .ok u⟩] _ _ hstatus _

/-- A request that is not tame raises. -/
lemma raises_doPost (h : ¬ Tame exempt token request) :
    (doPost exempt token request).Meets (working request.body) [] RaisesUncaught := by
  by_cases hascii : request.path = tasksPath → token ≠ "" → ∀ raw presented,
      request.authorization = some raw → headerText raw = bearer ++ presented →
        isAscii presented = true ∧ isAscii token = true
  · have hbody : ¬ (request.path = tasksPath → Presents token request → ∀ length,
        request.declares length → request.body.take length ≠ [] →
          TameBody exempt (request.body.take length)) := fun hbody => h ⟨hascii, hbody⟩
    push Not at hbody
    obtain ⟨hpath, hpresents, length, hdeclares, hsome, hwild⟩ := hbody
    rw [PostRequest.declares] at hdeclares
    rcases verifyBearer_ascii (hascii hpath) with ⟨-, hverified⟩ | ⟨hnot, -⟩
    · rw [doPost, if_neg (not_not_intro hpath), hverified, hdeclares]
      exact raises_postBody hsome hwild
    · exact absurd hpresents hnot
  · push Not at hascii
    obtain ⟨hpath, htoken, raw, presented, hraw, htext, hwild⟩ := hascii
    have hraises : verifyBearer (request.authorization.map headerText) token
        = .error .typeError := by
      rw [hraw, Option.map_some, htext, verifyBearer_bearer htoken, compareTexts, if_neg]
      rw [Bool.and_eq_true]
      exact fun hboth => hwild hboth.1 hboth.2
    rw [doPost, if_neg (not_not_intro hpath), hraises]
    exact ⟨_, rfl⟩

omit [JsonDecoder] in
/-- Without the token of the server the body is neither read nor parsed. -/
lemma guarded_doPost (hpresents : ¬ Presents token request) :
    (doPost exempt token request).Only fun op => op.parses = false := by
  rw [doPost]
  split_ifs with hpath
  · exact Routine.only_perform rfl
  · rcases hverified : verifyBearer (request.authorization.map headerText) token with e | verified
    · exact Routine.only_done _
    · cases verified with
      | true => exact absurd (presents_of_verified hverified) hpresents
      | false =>
          refine ⟨rfl, fun out => ?_⟩
          cases out with
          | ok _ => exact Routine.only_perform rfl
          | error _ => exact Routine.only_done _

omit [JsonDecoder] [SqlText] in
/-- Every call can be answered. -/
lemma nonempty_res (op : RelayOp) : Nonempty op.Res := by
  cases op with
  | now => exact ⟨0⟩
  | acceptTask key => exact ⟨.accept⟩
  | claimTask key => exact ⟨true⟩
  | acquireSlot => exact ⟨true⟩
  | runEngine manifest workspace =>
      exact ⟨⟨⟨"", .none, .none, .none, .inProgress, .running, false⟩, [], [], [], [], [],
        ⟨false, 0, 0⟩, [], [], [], [], none⟩⟩
  | saveIdentity ledgerId payload => exact ⟨[]⟩
  | loadSettled ledgerId => exact ⟨fun _ => false⟩
  | post event => exact ⟨⟨202, .empty⟩⟩
  | _ => exact ⟨()⟩

/-- Wherever everything works, the door has answered the request in the end. -/
def AlwaysAnswered (exempt : List String) (token : String) (request : PostRequest) : Prop :=
  ∀ calls out, (doPost exempt token request).Does calls out →
    (∀ x ∈ calls, PostOp.Works request.body x) → Answered exempt token request calls out

/-- A request that is not tame kills the handler. -/
lemma not_answered_of_wild (h : ¬ Tame exempt token request) :
    ¬ AlwaysAnswered exempt token request := by
  intro hanswered
  have hanswers : ∀ op, ∃ out, (working request.body).expected ⟨op, out⟩ := by
    intro op
    cases op with
    | logUnauthenticated => exact ⟨.ok (), returns_ok ()⟩
    | read length => exact ⟨_, rfl⟩
    | loads raw => exact ⟨_, rfl⟩
    | relay op =>
        obtain ⟨a⟩ := nonempty_res op
        exact ⟨.ok a, returns_ok a⟩
  obtain ⟨calls, out, hdoes, hworks⟩ := Routine.exists_does hanswers (doPost exempt token request)
  obtain ⟨e, he⟩ := (raises_doPost h).does hdoes hworks
  have hreturns := (hanswered calls out hdoes hworks).returns
  rw [he] at hreturns
  cases hreturns

/-- **The door answers a request exactly when it is tame.** -/
theorem answered_iff (exempt : List String) (token : String) (request : PostRequest) :
    AlwaysAnswered exempt token request ↔ Tame exempt token request := by
  constructor
  · exact fun hanswered => by_contra fun hwild => not_answered_of_wild hwild hanswered
  · intro htame calls out hdoes hworks
    obtain ⟨hout, status, hstatus, hreplies⟩ := (meets_doPost htame).does hdoes hworks
    rw [List.nil_append, List.nil_append] at hreplies
    refine ⟨hout, ⟨status, hstatus.1, hreplies⟩, fun hnone => ?_, ?_⟩
    · exact (guarded_doPost hnone).does hdoes
    · intro hpath hpresents length hdeclares hnot
      rw [hreplies, hstatus.2 hpath hpresents length hdeclares hnot]

end Payload

end Runs

section Example

attribute [local instance] stringText

/-- The bytes of an ASCII text. -/
def asciiBytes (text : String) : List UInt8 := text.toList.map fun c => UInt8.ofNat c.toNat

/-- A payload whose `work_order` is a text. -/
def oddTask : Dict := [("work_order", .str "do it")]

/-- The JSON text of the payload. -/
def oddText : String := "\x7b\"work_order\": \"do it\"\x7d"

/-- A decoder that knows one text. -/
@[reducible] def knowsOdd : JsonDecoder where
  decode text :=
    if text = oddText.toList.map Char.toNat then .ok (.dict oddTask) else .error jsonDecodeError

attribute [local instance] knowsOdd

/-- A request with the header and the body, to a server with the token `s3cret`. -/
def exampleRequest (authorization body : List UInt8) (length : String) : PostRequest where
  path := tasksPath
  authorization := some authorization
  contentLength := some (asciiBytes length)
  body := body

/-- **The door does not always answer**: not a token with a byte above 127, not a body that is no
UTF-8, not a payload whose `work_order` is a text. -/
theorem not_alwaysAnswered :
    ¬ AlwaysAnswered [] "s3cret" (exampleRequest (asciiBytes "Bearer " ++ [0xE9]) [] "0")
    ∧ ¬ AlwaysAnswered [] "s3cret"
      (exampleRequest (asciiBytes "Bearer s3cret") [0x7B, 0xFF, 0x7D] "3")
    ∧ ¬ AlwaysAnswered [] "s3cret"
      (exampleRequest (asciiBytes "Bearer s3cret") (asciiBytes oddText) "23") := by
  have hheader : headerText (asciiBytes "Bearer s3cret") = bearer ++ "s3cret" := by decide +kernel
  have hpresents : ∀ body length,
      Presents "s3cret" (exampleRequest (asciiBytes "Bearer s3cret") body length) :=
    fun _ _ => ⟨by decide, _, rfl, hheader⟩
  refine ⟨not_answered_of_wild fun h => ?_, not_answered_of_wild fun h => ?_,
    not_answered_of_wild fun h => ?_⟩
  · have hstrange : headerText (asciiBytes "Bearer " ++ [0xE9]) = bearer ++ "é" := by
      decide +kernel
    have hascii := h.ascii rfl (by decide) _ "é" rfl hstrange
    exact absurd hascii.1 (by decide +kernel)
  · have hlength : validateContentLength (some (headerText (asciiBytes "3"))) = .ok 3 := by
      decide +kernel
    have hbody := h.body rfl (hpresents _ _) 3 hlength (by decide +kernel)
    have htext : jsonText [0x7B, 0xFF, 0x7D] = none := by decide +kernel
    have hraises : jsonLoads [0x7B, 0xFF, 0x7D] = .error (.other "UnicodeDecodeError") := by
      rw [jsonLoads, htext]
    exact absurd (hbody.parses _ hraises) (by decide +kernel)
  · have hlength : validateContentLength (some (headerText (asciiBytes "23"))) = .ok 23 := by
      decide +kernel
    have hbody := h.body rfl (hpresents _ _) 23 hlength (by decide +kernel)
    have hall : (asciiBytes oddText).take 23 = asciiBytes oddText := by decide +kernel
    have htext : jsonText (asciiBytes oddText) = some (oddText.toList.map Char.toNat) := by
      decide +kernel
    have hloads : jsonLoads (asciiBytes oddText) = .ok (.dict oddTask) := by
      rw [jsonLoads, htext]
      exact if_pos rfl
    change TameBody [] ((asciiBytes oddText).take 23) at hbody
    rw [hall] at hbody
    obtain ⟨workOrder, hwork⟩ := (hbody.payload oddTask hloads).workOrder (by decide +kernel)
    cases hwork

end Example

end IplanRunner
