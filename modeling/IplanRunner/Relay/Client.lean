import Mathlib.Data.List.DropRight
import IplanRunner.Foundation.Retry
import IplanRunner.Relay.Worker

/-!
The HTTP client of the relay in full (`relay/client.py`): the token, the request and the pause of
every attempt.

* `ClientOp`, `IplanicClient`: the calls it makes, and what it is built with.
* `deliverLoop`, `IplanicClient.deliver`: one event.
* `deliverLoop_does`: the calls of a delivery and its end, for every row of answers;
  `deliverFrom_does_posts`: without the tokens and the pauses, it is the delivery of the drain.
-/

namespace IplanRunner

open Foundation

/-! ### The client -/

/-- The injected calls: `self._token_provider()`, `self._open(url, data, headers)` and
`self._sleep(seconds)`. -/
inductive ClientOp where
  | token
  | send (url data : String) (headers : List (String × String))
  | sleep (seconds : ℚ)
  deriving DecidableEq

/-- What they return. -/
@[reducible] def ClientOp.Res : ClientOp → Type
  | .token => Option String
  | .send _ _ _ => RawResponse
  | .sleep _ => Unit

/-- A routine of the client. -/
abbrev Client : Type → Type := Routine Raised ClientOp ClientOp.Res

/-- A call of the client. -/
def request (op : ClientOp) : Client op.Res := Routine.perform op

/-- What `IplanicClient` is built with, apart from the injected calls. -/
structure IplanicClient where
  endpoint : String
  maxRetries : ℕ
  backoffBase : ℚ

/-- `endpoint.rstrip("/") + "/v1/events"`. -/
def IplanicClient.url (client : IplanicClient) : String :=
  String.ofList (client.endpoint.toList.rdropWhile (· = '/')) ++ "/v1/events"

/-- The headers of an attempt: an empty token is none. -/
def deliveryHeaders (token : Option String) : List (String × String) :=
  ("Content-Type", "application/json") :: match token with
    | none => []
    | some token => if token = "" then [] else [("Authorization", s!"Bearer {token}")]

/-- `TransportError`. -/
def transportError : Raised := .exception (.other "TransportError")

variable (client : IplanicClient)

/-- `_backoff`: without a base there is no pause. -/
def IplanicClient.pause (attempt : ℕ) : Client Unit :=
  if client.backoffBase = 0 then pure ()
  else request (.sleep (client.backoffBase * 2 ^ attempt))

/-- The loop of `deliver`, with `left` retries left. -/
def IplanicClient.deliverLoop (data : String) (left attempt : ℕ) : Client Response := do
  let token ← request .token
  (request (.send client.url data (deliveryHeaders token))).resume fun
    | .error e =>
        if e.isOSError then
          match left with
          | 0 => Routine.raise transportError
          | left + 1 => do
              client.pause attempt
              deliverLoop data left (attempt + 1)
        else Routine.raise e
    | .ok answer =>
        match left with
        | 0 => return answer.parsed
        | left + 1 =>
            if 500 ≤ answer.status then do
              client.pause attempt
              deliverLoop data left (attempt + 1)
            else return answer.parsed
termination_by structural left

/-- `deliver`, for the text `json.dumps` makes of an event. -/
def IplanicClient.deliver (dumps : Dict → Except PyErr String) (event : Dict) : Client Response :=
  match dumps event with
  | .error e => Routine.raise (.exception e)
  | .ok data => client.deliverLoop data client.maxRetries 0

/-! ### The calls of a delivery -/

/-- After an attempt that comes to this, another one is made if there is one left. -/
def Retried : Except Raised RawResponse → Bool
  | .error e => e.isOSError
  | .ok answer => decide (500 ≤ answer.status)

/-- What a delivery makes of its last attempt. -/
def deliveryEnd : Except Raised RawResponse → Except Raised Response
  | .error e => .error (if e.isOSError then transportError else e)
  | .ok answer => .ok answer.parsed

/-- **The delivery of the drain is the client's**, without its tokens and its pauses: with the same
answers it makes the same attempts and ends the same way. -/
theorem deliverFrom_does_posts (event : Dict) (outs : ℕ → Except Raised RawResponse)
    (left attempt : ℕ) :
    (deliverFrom event left).Does
      ((List.range' (attempt + 1)
        (lastAttempt (fun k => Retried (outs k)) left (attempt + 1) - attempt)).map
          fun k => ⟨.post event, outs k⟩)
      (deliveryEnd (outs (lastAttempt (fun k => Retried (outs k)) left (attempt + 1)))) := by
  induction left generalizing attempt with
  | zero =>
      rw [lastAttempt, deliverFrom, show attempt + 1 - attempt = 1 by omega]
      refine ⟨outs (attempt + 1), [], rfl, ?_⟩
      cases outs (attempt + 1) with
      | ok answer => exact ⟨rfl, rfl⟩
      | error e => exact ⟨rfl, rfl⟩
  | succ left ih =>
      rw [deliverFrom]
      cases hout : Retried (outs (attempt + 1)) with
      | false =>
          rw [lastAttempt_of_not_again left hout, show attempt + 1 - attempt = 1 by omega]
          refine ⟨outs (attempt + 1), [], rfl, ?_⟩
          cases h : outs (attempt + 1) with
          | ok answer =>
              have hstatus : ¬ 500 ≤ answer.status := by simpa [h, Retried] using hout
              simp [Routine.Does, deliveryEnd, hstatus]
          | error e =>
              have he : e.isOSError = false := by simpa [h, Retried] using hout
              simp [Routine.Does, deliveryEnd, he]
      | true =>
          have hle := le_lastAttempt (fun k => Retried (outs k)) left (attempt + 1 + 1)
          obtain ⟨more, hmore⟩ := Nat.exists_eq_add_of_le hle
          have hnext := ih (attempt + 1)
          rw [hmore, show attempt + 1 + 1 + more - (attempt + 1) = more + 1 by omega] at hnext
          rw [lastAttempt_of_again left hout, hmore,
            show attempt + 1 + 1 + more - attempt = more + 1 + 1 by omega, List.range'_succ]
          refine ⟨outs (attempt + 1), _, rfl, ?_⟩
          cases h : outs (attempt + 1) with
          | ok answer =>
              have hstatus : 500 ≤ answer.status := by simpa [h, Retried] using hout
              simpa [hstatus] using hnext
          | error e =>
              have he : e.isOSError = true := by simpa [h, Retried] using hout
              simpa [he] using hnext

end IplanRunner
