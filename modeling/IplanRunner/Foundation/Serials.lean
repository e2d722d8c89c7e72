import Mathlib.Data.List.Nodup
import Mathlib.Data.List.Pairwise
import Mathlib.Tactic.Common
import IplanRunner.Foundation.Delimited

/-!
Ids made of a prefix and the value of a counter.

* `serial`: such an id; the number can be read off it.
* `Drawn`: the numbers taken, in this order, while a counter went up; they differ among each other
  and from what was taken before (`nodup_append_serials`).
-/

namespace Foundation

/-- `f"{kind}{n}"`. -/
def serial (kind : String) (n : ℕ) : String := kind ++ n.repr

lemma serial_inj {kind : String} {m n : ℕ} : serial kind m = serial kind n ↔ m = n := by
  constructor
  · intro h
    have htexts : kind.toList ++ m.repr.toList = kind.toList ++ n.repr.toList := by
      rw [← String.toList_append, ← String.toList_append]
      exact congrArg String.toList h
    exact decimal_inj (List.append_cancel_left htexts)
  · rintro rfl
    rfl

/-- The numbers taken while a counter went from `a` to `b`. -/
structure Drawn (a b : ℕ) (ns : List ℕ) : Prop where
  le : a ≤ b
  sorted : ns.Pairwise (· < ·)
  above : ∀ n ∈ ns, a < n
  below : ∀ n ∈ ns, n ≤ b

namespace Drawn

variable {a b c : ℕ} {ns ms : List ℕ}

/-- A counter may go up with none of its numbers taken. -/
lemma skip (h : a ≤ b) : Drawn a b [] := ⟨h, List.Pairwise.nil, by simp, by simp⟩

/-- The next number. -/
lemma next (a : ℕ) : Drawn a (a + 1) [a + 1] :=
  ⟨by omega, List.pairwise_singleton _ _, by simp, by simp⟩

lemma trans (h : Drawn a b ns) (h' : Drawn b c ms) : Drawn a c (ns ++ ms) := by
  have hab := h.le
  have hbc := h'.le
  refine ⟨by omega, List.pairwise_append.mpr ⟨h.sorted, h'.sorted, fun n hn m hm => ?_⟩,
    fun n hn => ?_, fun n hn => ?_⟩
  · have hn := h.below n hn
    have hm := h'.above m hm
    omega
  · rcases List.mem_append.mp hn with hn | hn
    · exact h.above n hn
    · have hn := h'.above n hn
      omega
  · rcases List.mem_append.mp hn with hn | hn
    · have hn := h.below n hn
      omega
    · exact h'.below n hn

/-- Numbers taken are taken once. -/
lemma nodup_serials (h : Drawn a b ns) (kind : String) : (ns.map (serial kind)).Nodup := by
  have hnodup : ns.Nodup := h.sorted.imp fun hlt => by omega
  exact hnodup.map fun m n heq => serial_inj.mp heq

/-- The numbers taken go with ids of which none has been taken. -/
lemma nodup_append_serials {kind : String} {xs : List String} (hxs : xs.Nodup) (h : Drawn a b ns)
    (hfree : ∀ n, a < n → n ≤ b → serial kind n ∉ xs) : (xs ++ ns.map (serial kind)).Nodup := by
  refine List.Nodup.append hxs (h.nodup_serials kind) fun x hx hdrawn => ?_
  obtain ⟨n, hn, rfl⟩ := List.mem_map.mp hdrawn
  exact hfree n (h.above n hn) (h.below n hn) hx

end Drawn

end Foundation
