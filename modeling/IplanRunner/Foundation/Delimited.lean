import Mathlib.Tactic.Common

/-!
Texts joined with a separator, and when the parts can be told from the joined text.

* `split_first`, `split_last`: the parts before the first and after the last separator.
* `split_three`: three parts are determined as soon as at most one of them holds a separator.
* `takeWhile_run`, `dropWhile_run`: the longest run of a class at the head of a text.
* `decimal_clear`, `decimal_inj`: the decimal text of a number holds digits only, and determines it.
-/

namespace Foundation

variable {α : Type} {sep : α}

/-- Two parts, the first of which holds no separator. -/
lemma split_first {xs xs' r r' : List α} (h : sep ∉ xs) (h' : sep ∉ xs')
    (heq : xs ++ sep :: r = xs' ++ sep :: r') : xs = xs' ∧ r = r' := by
  induction xs generalizing xs' with
  | nil =>
      cases xs' with
      | nil => simpa using heq
      | cons y ys =>
          obtain ⟨rfl, -⟩ : sep = y ∧ r = ys ++ sep :: r' := by simpa using heq
          exact absurd List.mem_cons_self h'
  | cons x xs ih =>
      cases xs' with
      | nil =>
          obtain ⟨rfl, -⟩ : x = sep ∧ xs ++ sep :: r = r' := by simpa using heq
          exact absurd List.mem_cons_self h
      | cons y ys =>
          obtain ⟨rfl, hrest⟩ : x = y ∧ xs ++ sep :: r = ys ++ sep :: r' := by simpa using heq
          obtain ⟨rfl, hr⟩ := ih (fun hx => h (List.mem_cons_of_mem _ hx))
            (fun hx => h' (List.mem_cons_of_mem _ hx)) hrest
          exact ⟨rfl, hr⟩

/-- Two parts, the last of which holds no separator. -/
lemma split_last {l l' xs xs' : List α} (h : sep ∉ xs) (h' : sep ∉ xs')
    (heq : l ++ sep :: xs = l' ++ sep :: xs') : l = l' ∧ xs = xs' := by
  have hrev : xs.reverse ++ sep :: l.reverse = xs'.reverse ++ sep :: l'.reverse := by
    simpa using congrArg List.reverse heq
  obtain ⟨h1, h2⟩ := split_first (by simpa using h) (by simpa using h') hrev
  exact ⟨List.reverse_inj.mp h2, List.reverse_inj.mp h1⟩

/-- Neither of two parts holds a separator. -/
def Clear (sep : α) (xs xs' : List α) : Prop := sep ∉ xs ∧ sep ∉ xs'

/-- Three parts, at most one of which holds a separator. -/
lemma split_three {x y z x' y' z' : List α}
    (hclear : Clear sep x x' ∧ Clear sep y y' ∨ Clear sep x x' ∧ Clear sep z z'
      ∨ Clear sep y y' ∧ Clear sep z z')
    (heq : x ++ sep :: (y ++ sep :: z) = x' ++ sep :: (y' ++ sep :: z')) :
    x = x' ∧ y = y' ∧ z = z' := by
  rcases hclear with ⟨hx, hy⟩ | ⟨hx, hz⟩ | ⟨hy, hz⟩
  · obtain ⟨h1, h2⟩ := split_first hx.1 hx.2 heq
    obtain ⟨h3, h4⟩ := split_first hy.1 hy.2 h2
    exact ⟨h1, h3, h4⟩
  · obtain ⟨h1, h2⟩ := split_first hx.1 hx.2 heq
    obtain ⟨h3, h4⟩ := split_last hz.1 hz.2 h2
    exact ⟨h1, h3, h4⟩
  · have hlast : (x ++ sep :: y) ++ sep :: z = (x' ++ sep :: y') ++ sep :: z' := by
      simpa using heq
    obtain ⟨h1, h2⟩ := split_last hz.1 hz.2 hlast
    obtain ⟨h3, h4⟩ := split_last hy.1 hy.2 h1
    exact ⟨h3, h4, h2⟩

/-! ### Runs of a class -/

/-- A run of a class ends at the first that is not of it. -/
lemma takeWhile_run {p : α → Bool} {xs rest : List α} {x : α} (h : ∀ y ∈ xs, p y = true)
    (hx : p x = false) : (xs ++ x :: rest).takeWhile p = xs := by
  rw [List.takeWhile_append_of_pos h, List.takeWhile_cons, hx, if_neg (by simp), List.append_nil]

lemma dropWhile_run {p : α → Bool} {xs rest : List α} {x : α} (h : ∀ y ∈ xs, p y = true)
    (hx : p x = false) : (xs ++ x :: rest).dropWhile p = x :: rest := by
  rw [List.dropWhile_append_of_pos h, List.dropWhile_cons, hx, if_neg (by simp)]

/-! ### Decimal texts -/

/-- The decimal text of a number holds no separator that is not a digit. -/
lemma decimal_clear {c : Char} (h : c.isDigit = false) (n : ℕ) : c ∉ n.repr.toList := by
  rw [Nat.toList_repr]
  intro hc
  rw [Nat.isDigit_of_mem_toDigits (by omega) (by omega) hc] at h
  cases h

/-- Numbers with the same decimal text are the same. -/
lemma decimal_inj {m n : ℕ} (h : m.repr.toList = n.repr.toList) : m = n := by
  rw [Nat.toList_repr, Nat.toList_repr] at h
  calc m = Nat.ofDigitChars 10 (Nat.toDigits 10 m) 0 := Nat.ofDigitChars_ten_toDigits.symm
    _ = Nat.ofDigitChars 10 (Nat.toDigits 10 n) 0 := by rw [h]
    _ = n := Nat.ofDigitChars_ten_toDigits

end Foundation
