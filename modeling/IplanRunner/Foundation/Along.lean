import Mathlib.Tactic.Common

/-!
What holds of every element of a growing list, given the elements before it.

* `Along`: every element is related to the list of those before it.
* `along_append`: what an appended part has to satisfy.
* `along_iff`: the same, position by position.
* `KeyPrefix`: a set of keys that is the one of a first part of a list; `KeyPrefix.insert`: it stays
  one when the key of an element is added behind those before it.
-/

namespace Foundation

variable {α : Type} {P : List α → α → Prop}

/-- Every element of a list that continues `seen` satisfies `P`, given what comes before it. -/
def Along (P : List α → α → Prop) : List α → List α → Prop
  | _, [] => True
  | seen, x :: xs => P seen x ∧ Along P (seen ++ [x]) xs

lemma along_append (seen xs ys : List α) :
    Along P seen (xs ++ ys) ↔ Along P seen xs ∧ Along P (seen ++ xs) ys := by
  induction xs generalizing seen with
  | nil => simp [Along]
  | cons x xs ih =>
      rw [List.cons_append, Along, ih, Along, and_assoc, List.append_assoc, List.singleton_append]

/-- A part whose elements satisfy `P` whatever else of it comes before them. -/
lemma along_of_forall {seen xs : List α} (h : ∀ ys, ∀ x ∈ xs, P (seen ++ ys) x) :
    Along P seen xs := by
  induction xs generalizing seen with
  | nil => trivial
  | cons x xs ih =>
      refine ⟨by simpa using h [] x List.mem_cons_self, ih fun ys y hy => ?_⟩
      simpa using h (x :: ys) y (List.mem_cons_of_mem _ hy)

lemma along_iff (seen xs : List α) :
    Along P seen xs ↔ ∀ (i : ℕ) (x : α), xs[i]? = some x → P (seen ++ xs.take i) x := by
  induction xs generalizing seen with
  | nil => simp [Along]
  | cons x xs ih =>
      rw [Along, ih]
      constructor
      · rintro ⟨hx, hxs⟩ i y hy
        cases i with
        | zero =>
            obtain rfl : x = y := by simpa using hy
            simpa using hx
        | succ i => simpa using hxs i y (by simpa using hy)
      · intro h
        refine ⟨by simpa using h 0 x rfl, fun i y hy => ?_⟩
        simpa using h (i + 1) y (by simpa using hy)

variable {κ : Type} {key : α → κ} {l : List α} {S : κ → Prop}

/-- A set of keys is the one of the elements of a first part of the list. -/
def KeyPrefix (key : α → κ) (l : List α) (S : κ → Prop) : Prop :=
  ∃ first rest, l = first ++ rest ∧ ∀ k, S k ↔ k ∈ first.map key

lemma keyPrefix_empty (h : ∀ k, ¬ S k) : KeyPrefix key l S :=
  ⟨[], l, rfl, fun k => by simpa using h k⟩

/-- **Adding the key of an element whose predecessors are in the set.** -/
theorem KeyPrefix.insert {before after : List α} {a : α} (h : KeyPrefix key l S)
    (hnodup : (l.map key).Nodup) (hl : l = before ++ a :: after)
    (hbefore : ∀ b ∈ before, S (key b)) : KeyPrefix key l fun k => k = key a ∨ S k := by
  obtain ⟨first, rest, hfirst, hkeys⟩ := h
  have hgrown : first = before → KeyPrefix key l fun k => k = key a ∨ S k := by
    rintro rfl
    refine ⟨first ++ [a], after, by simpa using hl, fun k => ?_⟩
    simp only [hkeys k, List.map_append, List.mem_append, List.map_singleton, List.mem_singleton,
      or_comm]
  rcases List.append_eq_append_iff.mp (hfirst.symm.trans hl) with
    ⟨middle, hmiddle, hrest⟩ | ⟨middle, hmiddle, hrest⟩
  · cases middle with
    | nil => exact hgrown (by simpa using hmiddle.symm)
    | cons b middle =>
        -- a predecessor outside the part has its key in the set, hence the key of one inside
        have hb : b ∈ before := by
          rw [hmiddle]
          simp
        rw [hfirst, hrest, List.map_append, List.nodup_append] at hnodup
        have hagain := (hkeys (key b)).mp (hbefore b hb)
        exact absurd rfl (hnodup.2.2 _ hagain _ (List.mem_map_of_mem (by simp)))
  · cases middle with
    | nil => exact hgrown (by simpa using hmiddle)
    | cons b middle =>
        rw [List.cons_append, List.cons.injEq] at hrest
        refine ⟨first, rest, hfirst, fun k => ⟨?_, fun hk => Or.inr ((hkeys k).mpr hk)⟩⟩
        rintro (rfl | hk)
        · rw [hmiddle, hrest.1]
          exact List.mem_map_of_mem (by simp)
        · exact (hkeys k).mp hk

end Foundation
