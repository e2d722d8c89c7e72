import Mathlib.Tactic.Common

/-!
Walks of a state machine, recorded as the list of their moves.

* `Walk`: the moves lead from one state to another, each from where the one before it ended.
* `walk_append`, `walk_iff_of_walk`: a walk in two parts, and how a walk goes on.
-/

namespace Foundation

variable {σ ε : Type} (src dst : ε → σ)

/-- The moves lead from the first state to the second. -/
def Walk : σ → List ε → σ → Prop
  | a, [], b => a = b
  | a, e :: es, b => src e = a ∧ Walk (dst e) es b

instance decidableWalk [DecidableEq σ] : (a : σ) → (es : List ε) → (b : σ) →
    Decidable (Walk src dst a es b)
  | a, [], b => inferInstanceAs (Decidable (a = b))
  | a, e :: es, b =>
      have := decidableWalk (dst e) es b
      inferInstanceAs (Decidable (src e = a ∧ Walk src dst (dst e) es b))

variable {src dst}

lemma walk_append {a c : σ} (xs ys : List ε) :
    Walk src dst a (xs ++ ys) c ↔ ∃ b, Walk src dst a xs b ∧ Walk src dst b ys c := by
  induction xs generalizing a with
  | nil => simp [Walk]
  | cons x xs ih =>
      rw [List.cons_append, Walk, ih]
      constructor
      · rintro ⟨hx, b, hxs, hys⟩
        exact ⟨b, ⟨hx, hxs⟩, hys⟩
      · rintro ⟨b, ⟨hx, hxs⟩, hys⟩
        exact ⟨hx, b, hxs, hys⟩

/-- A walk ends in one state only. -/
lemma Walk.unique {a b c : σ} {es : List ε} (h : Walk src dst a es b)
    (h' : Walk src dst a es c) : b = c := by
  induction es generalizing a with
  | nil => exact h.symm.trans h'
  | cons e es ih => exact ih h.2 h'.2

/-- What can follow a walk is what leads on from its end. -/
lemma walk_iff_of_walk {a b c : σ} {xs ys : List ε} (h : Walk src dst a xs b) :
    Walk src dst a (xs ++ ys) c ↔ Walk src dst b ys c := by
  rw [walk_append]
  constructor
  · rintro ⟨b', hxs, hys⟩
    rwa [h.unique hxs]
  · intro hys
    exact ⟨b, h, hys⟩

end Foundation
