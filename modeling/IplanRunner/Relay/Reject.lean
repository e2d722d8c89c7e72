import IplanRunner.Foundation.Python

/-!
What an answer of the event endpoint means for an event (`relay/reject.py`, and the responses of
`relay/client.py` it reads).

* `Response`, `parseBody`: an answer with its body.
* `classify`: the outcome of an answer; a timestamp without a time zone raises.
* `classify_deadLetter`: the answers that give an event up.
-/

namespace IplanRunner

open Foundation

/-! ### Responses -/

/-- The bytes of a body: none, no JSON, or a JSON value. -/
inductive RawBody where
  | empty
  | garbage
  | json (value : Val)
  deriving DecidableEq

/-- What the transport hands back: the status and the bytes of the body. -/
structure RawResponse where
  status : ℤ
  raw : RawBody
  deriving DecidableEq

/-- `Response`. -/
structure Response where
  status : ℤ
  body : Dict
  deriving DecidableEq

/-- `_parse_body`. -/
def parseBody : RawBody → Dict
  | .json (.dict kvs) => kvs
  | _ => []

/-- The response `deliver` makes of an answer. -/
def RawResponse.parsed (r : RawResponse) : Response := ⟨r.status, parseBody r.raw⟩

/-! ### Outcomes -/

/-- The actions of an outcome. -/
inductive RelayAction where
  | advance
  | retry
  | deadLetter
  | halt
  | refresh
  deriving DecidableEq, Repr

/-- `Outcome`. -/
structure RelayOutcome where
  action : RelayAction
  reason : String
  deriving DecidableEq, Repr

/-- `DEFAULT_MAX_AGE_S`. -/
def defaultMaxAgeS : ℤ := 86400

/-- `s.replace("Z", "+00:00")`. -/
def replaceZulu (s : String) : String :=
  String.ofList (s.toList.flatMap fun c => if c = 'Z' then "+00:00".toList else [c])

/-- The code of a rejection. -/
def rejectCode (response : Response) : Val :=
  (Dict.get response.body "reason").orElse
    ((Dict.get response.body "reject_code").orElse (Dict.get response.body "code"))

variable [PyRuntime]

/-- `_event_age_s`, in microseconds. -/
def eventAge (event : Dict) (now : ℤ) : Except PyErr (Option ℤ) :=
  match event.get "occurred_at" with
  | .str occurred =>
      match PyRuntime.fromisoformat (replaceZulu occurred) with
      | none => .ok none
      | some (.naive _) => .error .typeError
      | some (.aware micros) => .ok (some (now - micros))
  | _ => .ok none

/-- The event is older than `max_age_s`. -/
def farStale (age : Option ℤ) (maxAgeS : ℤ) : Bool :=
  match age with
  | some age => decide (maxAgeS * 1000000 < age)
  | none => false

/-- The whole seconds of an age. -/
def ageSeconds (age : Option ℤ) : ℤ := (age.getD 0).tdiv 1000000

/-- `classify`. -/
def classify (response : Response) (event : Dict) (now maxAgeS : ℤ) : Except PyErr RelayOutcome :=
  let status := response.status
  if status = 202 then .ok ⟨.advance, "accepted"⟩
  else if status = 401 then .ok ⟨.refresh, "unauthorized"⟩
  else if 500 ≤ status then .ok ⟨.retry, s!"server error {status}"⟩
  else
    let code := rejectCode response
    let text := code.pyStr
    if code.pyEq (.str "invalid_signature") || code.pyEq (.str "schema_invalid") then
      .ok ⟨.halt, s!"integrity: {text}"⟩
    else if code.pyEq (.str "timestamp_skew") then
      match eventAge event now with
      | .error e => .error e
      | .ok age =>
          let seconds := ageSeconds age
          if farStale age maxAgeS then
            .ok ⟨.deadLetter, s!"timestamp_skew, far-stale ({seconds}s)"⟩
          else .ok ⟨.retry, "timestamp_skew, within window"⟩
    else if status = 403 then .ok ⟨.deadLetter, "registration/scope rejected"⟩
    else .ok ⟨.halt, s!"unhandled reject (status {status}, code {text})"⟩

/-- The event is given up: the answer says that it is far out of the window and it is, or it is a
403 that blames neither the signature, the schema nor the clock. -/
def GivesUp (response : Response) (event : Dict) (now maxAgeS : ℤ) : Prop :=
  response.status < 500
    ∧ (rejectCode response = .str "timestamp_skew"
        ∧ (∃ age, eventAge event now = .ok (some age) ∧ maxAgeS * 1000000 < age)
      ∨ response.status = 403 ∧ rejectCode response ≠ .str "timestamp_skew"
        ∧ rejectCode response ≠ .str "invalid_signature"
        ∧ rejectCode response ≠ .str "schema_invalid")

/-- Only a 202 advances. -/
lemma classify_advance {response : Response} {event : Dict} {now maxAgeS : ℤ}
    {outcome : RelayOutcome}
    (h : classify response event now maxAgeS = .ok outcome) (hadvance : outcome.action = .advance) :
    response.status = 202 := by
  rw [classify] at h
  dsimp only at h
  split_ifs at h with h202 h401 h500 hintegrity hskew h403
  · exact h202
  · cases h; cases hadvance
  · cases h; cases hadvance
  · cases h; cases hadvance
  · split at h
    · cases h
    · split_ifs at h <;> · cases h; cases hadvance
  · cases h; cases hadvance
  · cases h; cases hadvance

/-- **The answers that give an event up.** -/
lemma classify_deadLetter {response : Response} {event : Dict} {now maxAgeS : ℤ}
    {outcome : RelayOutcome}
    (h : classify response event now maxAgeS = .ok outcome)
    (hdead : outcome.action = .deadLetter) : GivesUp response event now maxAgeS := by
  rw [classify] at h
  dsimp only at h
  split_ifs at h with h202 h401 h500 hintegrity hskew h403
  · cases h; cases hdead
  · cases h; cases hdead
  · cases h; cases hdead
  · cases h; cases hdead
  · refine ⟨by omega, Or.inl ⟨(Val.pyEq_str_iff _ _).mp hskew, ?_⟩⟩
    split at h
    · cases h
    · rename_i age hage
      split_ifs at h with hstale
      · cases age with
        | none => cases hstale
        | some age => exact ⟨age, hage, of_decide_eq_true hstale⟩
      · cases h; cases hdead
  · rw [Bool.or_eq_true, not_or, Val.pyEq_str_iff, Val.pyEq_str_iff] at hintegrity
    rw [Val.pyEq_str_iff] at hskew
    exact ⟨by omega, Or.inr ⟨h403, hskew, hintegrity⟩⟩
  · cases h; cases hdead

end IplanRunner
