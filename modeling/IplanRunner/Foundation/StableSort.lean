import Mathlib.Data.List.Sort

/-!
Stability of `List.mergeSort`, in the two forms in which a list grows.

* `mergeSort_cons_eq`: an element in front is inserted before the first one it may precede.
* `mergeSort_concat`: an element at the end is inserted behind every one that may precede it.
-/

namespace Foundation

variable {α : Type*} {le : α → α → Bool}

/-- An element goes between those it may not precede and those it may. -/
lemma orderedInsert_between {x : α} :
    ∀ {before after : List α}, (∀ y ∈ before, ¬ le x y) → (∀ y ∈ after, le x y) →
      (before ++ after).orderedInsert (fun a b => le a b) x = before ++ x :: after
  | [], [], _, _ => rfl
  | [], y :: after, _, hafter => by
      rw [List.nil_append, List.orderedInsert, if_pos (hafter y List.mem_cons_self)]
      rfl
  | y :: before, after, hbefore, hafter => by
      have hrest := orderedInsert_between
        (fun z hz => hbefore z (List.mem_cons_of_mem y hz)) hafter
      rw [List.cons_append, List.orderedInsert, if_neg (hbefore y List.mem_cons_self), hrest]
      rfl

section Total

variable (trans : ∀ a b c, le a b → le b c → le a c) (total : ∀ a b, le a b || le b a)

include trans total

/-- **A merge sort is an insertion sort**, also where different elements may precede each other. -/
lemma mergeSort_cons_eq (x : α) (xs : List α) :
    (x :: xs).mergeSort le = (xs.mergeSort le).orderedInsert (fun a b => le a b) x := by
  obtain ⟨before, after, hcons, hxs, hbefore⟩ := List.mergeSort_cons trans total x xs
  have hsorted := List.pairwise_mergeSort trans total (x :: xs)
  rw [hcons] at hsorted
  have hafter : ∀ y ∈ after, le x y :=
    (List.pairwise_cons.mp (List.pairwise_append.mp hsorted).2.1).1
  have hnot : ∀ y ∈ before, ¬ le x y := fun y hy => by simpa using hbefore y hy
  rw [hcons, hxs, orderedInsert_between hnot hafter]

/-- Where one more element has its place behind those that may precede it, it keeps that place
when another element is inserted. -/
lemma orderedInsert_keeps_place (x last : α) {after : List α} (hafter : ∀ y ∈ after, ¬ le y last) :
    ∀ {before : List α}, (∀ y ∈ before, le y last) → ∃ before' after',
      (before ++ last :: after).orderedInsert (fun a b => le a b) x = before' ++ last :: after' ∧
      (before ++ after).orderedInsert (fun a b => le a b) x = before' ++ after' ∧
      (∀ y ∈ before', le y last) ∧ ∀ y ∈ after', ¬ le y last
  | [], _ => by
      by_cases hx : le x last
      · -- what comes after `last` may not precede it, so `x` precedes that as well
        have hall : ∀ y ∈ after, le x y := fun y hy => by
          have hlast : le last y := by simpa [hafter y hy] using total last y
          exact trans x last y hx hlast
        have hplace := orderedInsert_between (by simp : ∀ y ∈ [], ¬ le x y) hall
        refine ⟨[x], after, ?_, hplace, by simpa using hx, hafter⟩
        rw [List.nil_append, List.orderedInsert, if_pos hx]
        rfl
      · refine ⟨[], after.orderedInsert (fun a b => le a b) x, ?_, rfl, by simp, ?_⟩
        · rw [List.nil_append, List.orderedInsert, if_neg hx]
          rfl
        · intro y hy
          rcases (List.mem_orderedInsert _).mp hy with rfl | hy
          · exact hx
          · exact hafter y hy
  | y :: before, hbefore => by
      by_cases hy : le x y
      · have hx : le x last := trans x y last hy (hbefore y List.mem_cons_self)
        refine ⟨x :: y :: before, after, ?_, ?_, ?_, hafter⟩
        · rw [List.cons_append, List.orderedInsert, if_pos hy]
          rfl
        · rw [List.cons_append, List.orderedInsert, if_pos hy]
          rfl
        · simpa [hx] using hbefore
      · obtain ⟨before', after', hwith, hwithout, hbefore', hafter'⟩ :=
          orderedInsert_keeps_place x last hafter
            fun z hz => hbefore z (List.mem_cons_of_mem y hz)
        refine ⟨y :: before', after', ?_, ?_, ?_, hafter'⟩
        · rw [List.cons_append, List.orderedInsert, if_neg hy, hwith]
          rfl
        · rw [List.cons_append, List.orderedInsert, if_neg hy, hwithout]
          rfl
        · intro z hz
          rcases List.mem_cons.mp hz with rfl | hz
          · exact hbefore z List.mem_cons_self
          · exact hbefore' z hz

/-- **The last element of a list is sorted behind** every one that may precede it, and the others
keep the order they have without it. -/
theorem mergeSort_concat (xs : List α) (last : α) : ∃ before after,
    (xs ++ [last]).mergeSort le = before ++ last :: after ∧
    xs.mergeSort le = before ++ after ∧
    (∀ y ∈ before, le y last) ∧ ∀ y ∈ after, ¬ le y last := by
  induction xs with
  | nil => exact ⟨[], [], by simp⟩
  | cons x xs ih =>
      obtain ⟨before, after, hwith, hwithout, hbefore, hafter⟩ := ih
      obtain ⟨before', after', hwith', hwithout', hplace⟩ :=
        orderedInsert_keeps_place trans total x last hafter hbefore
      refine ⟨before', after', ?_, ?_, hplace⟩
      · rw [List.cons_append, mergeSort_cons_eq trans total, hwith, hwith']
      · rw [mergeSort_cons_eq trans total, hwithout, hwithout']

end Total

end Foundation
