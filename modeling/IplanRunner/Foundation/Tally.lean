import Mathlib.Algebra.BigOperators.Group.List.Basic
import Mathlib.Algebra.GroupWithZero.Nat
import Mathlib.Data.List.Nodup

/-!
Counting how often each value occurs, in a table that keeps the order of first occurrence.

* `countUp`, `tally`: one more of a value, and the table of a list.
* `Tallies`: each value that occurs stands once, with how often it does, and together this is all.
* `tallies_tally`: so it is of every list.
-/

namespace Foundation

variable {α : Type*} [DecidableEq α]

/-- One more of a value: a new one comes last. -/
def countUp (counts : List (α × ℕ)) (a : α) : List (α × ℕ) :=
  match counts with
  | [] => [(a, 1)]
  | (b, n) :: rest => if b = a then (b, n + 1) :: rest else (b, n) :: countUp rest a

/-- How often each value occurs in a list. -/
def tally (xs : List α) : List (α × ℕ) := xs.foldl countUp []

/-- A table counts a list: each value that occurs stands once, with how often it occurs. -/
structure Tallies (counts : List (α × ℕ)) (xs : List α) : Prop where
  nodup : (counts.map Prod.fst).Nodup
  mem : ∀ a n, (a, n) ∈ counts ↔ n = xs.count a ∧ 0 < n
  sum : (counts.map Prod.snd).sum = xs.length

lemma mem_keys_countUp {counts : List (α × ℕ)} {a b : α} :
    b ∈ (countUp counts a).map Prod.fst ↔ b = a ∨ b ∈ counts.map Prod.fst := by
  induction counts with
  | nil => simp [countUp]
  | cons p rest ih =>
      obtain ⟨c, n⟩ := p
      rw [countUp]
      by_cases hc : c = a
      · subst hc
        simp
      · rw [if_neg hc, List.map_cons, List.mem_cons, ih, List.map_cons, List.mem_cons]
        tauto

lemma nodup_countUp {counts : List (α × ℕ)} (h : (counts.map Prod.fst).Nodup) (a : α) :
    ((countUp counts a).map Prod.fst).Nodup := by
  induction counts with
  | nil => simp [countUp]
  | cons p rest ih =>
      obtain ⟨c, n⟩ := p
      obtain ⟨hfresh, hrest⟩ := List.nodup_cons.mp h
      rw [countUp]
      by_cases hc : c = a
      · rw [if_pos hc]
        exact h
      · rw [if_neg hc, List.map_cons, List.nodup_cons, mem_keys_countUp]
        refine ⟨?_, ih hrest⟩
        rintro (heq | hin)
        · exact hc heq
        · exact hfresh hin

lemma sum_countUp (counts : List (α × ℕ)) (a : α) :
    ((countUp counts a).map Prod.snd).sum = (counts.map Prod.snd).sum + 1 := by
  induction counts with
  | nil => simp [countUp]
  | cons p rest ih =>
      obtain ⟨c, n⟩ := p
      rw [countUp]
      by_cases hc : c = a
      · rw [if_pos hc, List.map_cons, List.map_cons, List.sum_cons, List.sum_cons]
        omega
      · rw [if_neg hc, List.map_cons, List.map_cons, List.sum_cons, List.sum_cons, ih]
        omega

/-- The entries behind another value stay; the value's own is one more. -/
lemma mem_countUp {counts : List (α × ℕ)} (h : (counts.map Prod.fst).Nodup) {a b : α} {n : ℕ} :
    (b, n) ∈ countUp counts a
      ↔ (b ≠ a ∧ (b, n) ∈ counts)
        ∨ (b = a ∧ ((∃ m, (a, m) ∈ counts ∧ n = m + 1)
          ∨ (a ∉ counts.map Prod.fst ∧ n = 1))) := by
  induction counts with
  | nil => simp [countUp]
  | cons p rest ih =>
      obtain ⟨c, m⟩ := p
      obtain ⟨hfresh, hrest⟩ := List.nodup_cons.mp h
      have hother : ∀ k, (c, k) ∉ rest := fun k hk =>
        hfresh (List.mem_map.mpr ⟨(c, k), hk, rfl⟩)
      rw [countUp]
      by_cases hc : c = a
      · subst hc
        by_cases hb : b = c
        · subst hb
          simp [hother]
        · simp [hb]
      · rw [if_neg hc, List.mem_cons, ih hrest]
        by_cases hb : b = c
        · subst hb
          simp [hother, hc]
        · have hac : a ≠ c := Ne.symm hc
          simp [hb, hac]

/-- **One more value** keeps a table right. -/
lemma Tallies.countUp {counts : List (α × ℕ)} {xs : List α} (h : Tallies counts xs) (a : α) :
    Tallies (countUp counts a) (xs ++ [a]) where
  nodup := nodup_countUp h.nodup a
  mem := by
    intro b n
    rw [mem_countUp h.nodup, List.count_append, List.count_singleton]
    by_cases hb : b = a
    · subst hb
      have hkeys : b ∈ counts.map Prod.fst ↔ 0 < xs.count b := by
        constructor
        · intro hin
          obtain ⟨⟨c, m⟩, hmem, rfl⟩ := List.mem_map.mp hin
          obtain ⟨rfl, hpos⟩ := (h.mem c m).mp hmem
          exact hpos
        · intro hpos
          exact List.mem_map_of_mem (f := Prod.fst) ((h.mem b _).mpr ⟨rfl, hpos⟩)
      rw [hkeys]
      simp only [ne_eq, not_true_eq_false, false_and, true_and, false_or, h.mem, beq_self_eq_true,
        if_true]
      constructor
      · rintro (⟨m, ⟨rfl, hpos⟩, rfl⟩ | ⟨hnone, rfl⟩)
        · omega
        · omega
      · rintro ⟨rfl, -⟩
        by_cases hpos : 0 < xs.count b
        · exact Or.inl ⟨_, ⟨rfl, hpos⟩, rfl⟩
        · exact Or.inr ⟨hpos, by omega⟩
    · have hne : (a == b) = false := beq_eq_false_iff_ne.mpr (Ne.symm hb)
      simp [hb, hne, h.mem]
  sum := by rw [sum_countUp, h.sum, List.length_append, List.length_singleton]

/-- **The table of a list** is right. -/
theorem tallies_tally (xs : List α) : Tallies (tally xs) xs := by
  have hfold : ∀ (ys : List α) (counts : List (α × ℕ)) (seen : List α), Tallies counts seen →
      Tallies (ys.foldl Foundation.countUp counts) (seen ++ ys) := by
    intro ys
    induction ys with
    | nil =>
        intro counts seen h
        rw [List.append_nil]
        exact h
    | cons a rest ih =>
        intro counts seen h
        have hrest := ih _ _ (h.countUp a)
        rw [List.append_assoc] at hrest
        exact hrest
  have hempty : Tallies ([] : List (α × ℕ)) ([] : List α) :=
    ⟨List.nodup_nil, by simp, rfl⟩
  exact hfold xs [] [] hempty

end Foundation
