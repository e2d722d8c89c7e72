import IplanRunner.Foundation.Dependencies

/-!
Orders that serve the first node that is ready.

* `FirstOf`, `Picks`: the first of some candidates; what is picked is the first ready node, or the
  first of all when none is ready.
* `FirstServed`: an order that picks at every turn; `FirstServed.served` connects it to the orders
  that serve what is ready, and `FirstServed.turn` says what stands at a place of it.
* `FirstServed.unique`: there is one such order, however what remains is listed.
* `greedyOrder_firstServed`: the greedy order is it for a linear order.
-/

namespace Foundation

variable {ι : Type} {lt lt' : ι → ι → Prop}

/-! ### The first of some candidates -/

/-- The first of the candidates. -/
structure FirstOf (lt : ι → ι → Prop) (candidates : List ι) (x : ι) : Prop where
  mem : x ∈ candidates
  first : ∀ y ∈ candidates, y = x ∨ lt x y

lemma FirstOf.unique (hasymm : ∀ a b, lt a b → ¬ lt b a) {candidates : List ι} {x y : ι}
    (hx : FirstOf lt candidates x) (hy : FirstOf lt candidates y) : x = y := by
  rcases hx.first y hy.mem with heq | hxy
  · exact heq.symm
  · exact (hy.first x hx.mem).resolve_right (hasymm x y hxy)

lemma FirstOf.congr {candidates candidates' : List ι} {x : ι} (h : FirstOf lt candidates x)
    (hmem : ∀ y, y ∈ candidates ↔ y ∈ candidates')
    (hlt : ∀ a ∈ candidates, ∀ b ∈ candidates, lt a b → lt' a b) : FirstOf lt' candidates' x :=
  ⟨(hmem x).mp h.mem, fun y hy =>
    have hy' := (hmem y).mpr hy
    (h.first y hy').imp id (hlt x h.mem y hy')⟩

/-! ### Picking -/

variable {ready ready' : List ι → ι → Bool} {done remaining remaining' order order' : List ι}

/-- What is picked: the first node that is ready, or the first of all when none is. -/
def Picks (lt : ι → ι → Prop) (isReady : ι → Bool) (remaining : List ι) (x : ι) : Prop :=
  FirstOf lt (remaining.filter isReady) x ∨ remaining.filter isReady = [] ∧ FirstOf lt remaining x

lemma Picks.mem {isReady : ι → Bool} {x : ι} (h : Picks lt isReady remaining x) :
    x ∈ remaining := by
  rcases h with hready | ⟨-, hall⟩
  · exact (List.mem_filter.mp hready.mem).1
  · exact hall.mem

/-- A picked node that is not ready was picked because none is. -/
lemma Picks.ready_or {isReady : ι → Bool} {x : ι} (h : Picks lt isReady remaining x) :
    isReady x = true ∨ ∀ y ∈ remaining, isReady y = false := by
  rcases h with hready | ⟨hnone, -⟩
  · exact Or.inl (List.mem_filter.mp hready.mem).2
  · exact Or.inr fun y hy => by simpa using List.filter_eq_nil_iff.mp hnone y hy

lemma Picks.unique (hasymm : ∀ a b, lt a b → ¬ lt b a) {isReady : ι → Bool} {x y : ι}
    (hx : Picks lt isReady remaining x) (hy : Picks lt isReady remaining y) : x = y := by
  rcases hx with hx | ⟨hnone, hx⟩
  · rcases hy with hy | ⟨hnone, -⟩
    · exact hx.unique hasymm hy
    · have hmem := hx.mem
      rw [hnone] at hmem
      cases hmem
  · rcases hy with hy | ⟨-, hy⟩
    · have hmem := hy.mem
      rw [hnone] at hmem
      cases hmem
    · exact hx.unique hasymm hy

/-- The pick does not depend on how the nodes are listed, nor on the order of other nodes. -/
lemma Picks.congr {isReady isReady' : ι → Bool} {x : ι} (h : Picks lt isReady remaining x)
    (hperm : remaining.Perm remaining') (hready : ∀ y ∈ remaining, isReady y = isReady' y)
    (hlt : ∀ a ∈ remaining, ∀ b ∈ remaining, lt a b → lt' a b) :
    Picks lt' isReady' remaining' x := by
  have hmem : ∀ y, y ∈ remaining.filter isReady ↔ y ∈ remaining'.filter isReady' := by
    intro y
    rw [List.mem_filter, List.mem_filter, ← hperm.mem_iff]
    exact and_congr_right fun hy => by rw [hready y hy]
  have hltReady : ∀ a ∈ remaining.filter isReady, ∀ b ∈ remaining.filter isReady,
      lt a b → lt' a b := fun a ha b hb =>
    hlt a (List.mem_filter.mp ha).1 b (List.mem_filter.mp hb).1
  rcases h with h | ⟨hnone, h⟩
  · exact Or.inl (h.congr hmem hltReady)
  · refine Or.inr ⟨List.eq_nil_iff_forall_not_mem.mpr fun y hy => ?_,
      h.congr (fun y => hperm.mem_iff) hlt⟩
    rw [← hmem, hnone] at hy
    cases hy

/-! ### Orders -/

/-- An order that serves `remaining`, behind what is done, and picks at every turn. -/
inductive FirstServed (lt : ι → ι → Prop) (ready : List ι → ι → Bool) :
    List ι → List ι → List ι → Prop
  | nil {done : List ι} : FirstServed lt ready done [] []
  | cons {done remaining rest order : List ι} {x : ι} (hperm : remaining.Perm (x :: rest))
      (hpick : Picks lt (ready done) remaining x)
      (hrest : FirstServed lt ready (x :: done) rest order) :
      FirstServed lt ready done remaining (x :: order)

namespace FirstServed

lemma served (h : FirstServed lt ready done remaining order) :
    Served ready done remaining order := by
  induction h with
  | nil => exact .nil
  | cons hperm hpick _ ih => exact .cons hperm hpick.ready_or ih

/-- **What stands at a place** is what is picked among the nodes from there on. -/
theorem turn (h : FirstServed lt ready done remaining order) {pre post : List ι} {x : ι}
    (hsplit : order = pre ++ x :: post) :
    Picks lt (ready (pre.reverse ++ done)) (x :: post) x := by
  induction h generalizing pre with
  | nil => simp at hsplit
  | @cons done remaining rest order y hperm hpick hrest ih =>
      cases pre with
      | nil =>
          obtain ⟨rfl, rfl⟩ := List.cons.inj hsplit
          have hall : remaining.Perm (y :: order) := hperm.trans (hrest.served.perm.symm.cons y)
          exact hpick.congr hall (fun _ _ => rfl) fun _ _ _ _ => id
      | cons z pre =>
          obtain ⟨rfl, htail⟩ := List.cons.inj hsplit
          have hturn := ih htail
          rwa [List.reverse_cons, List.append_assoc]

/-- **There is one such order**: it does not depend on how the nodes are listed, and only on what
is said of them. -/
theorem unique (hasymm : ∀ a b, lt' a b → ¬ lt' b a)
    (h : FirstServed lt ready done remaining order)
    (h' : FirstServed lt' ready' done remaining' order') (hperm : remaining.Perm remaining')
    (hready : ∀ done, ∀ t ∈ remaining, ready done t = ready' done t)
    (hlt : ∀ a ∈ remaining, ∀ b ∈ remaining, lt a b → lt' a b) : order = order' := by
  induction h generalizing remaining' order' with
  | nil =>
      obtain rfl := hperm.symm.eq_nil
      cases h' with
      | nil => rfl
      | cons hperm' _ _ => exact absurd hperm'.symm.eq_nil (List.cons_ne_nil _ _)
  | @cons done remaining rest order x hrem hpick hrest ih =>
      have hpick' := hpick.congr hperm (hready done) hlt
      cases h' with
      | nil => exact absurd (hrem.symm.trans hperm).eq_nil (List.cons_ne_nil _ _)
      | @cons _ _ rest' order' y hrem' hpickY hrest' =>
          obtain rfl : x = y := hpick'.unique hasymm hpickY
          have hsub : ∀ t ∈ rest, t ∈ remaining := fun t ht =>
            hrem.mem_iff.mpr (List.mem_cons_of_mem x ht)
          have hrests : rest.Perm rest' :=
            ((hrem.symm.trans hperm).trans hrem').cons_inv
          rw [ih hrest' hrests (fun done t ht => hready done t (hsub t ht))
            fun a ha b hb => hlt a (hsub a ha) b (hsub b hb)]

end FirstServed

/-! ### The greedy order -/

section Greedy

variable [LinearOrder ι]

lemma firstOf_of_min? {candidates : List ι} {x : ι} (h : candidates.min? = some x) :
    FirstOf (· < ·) candidates x := by
  refine ⟨List.min?_mem h, fun y hy => ?_⟩
  have hle : x ≤ y := (List.min?_eq_some_iff.mp h).2 y hy
  rcases lt_or_eq_of_le hle with hlt | rfl
  · exact Or.inr hlt
  · exact Or.inl rfl

lemma picks_of_pickNext {x : ι} (h : pickNext ready done remaining = some x) :
    Picks (· < ·) (ready done) remaining x := by
  rw [pickNext] at h
  split at h
  · rename_i y hy
    obtain rfl : y = x := Option.some.inj h
    exact Or.inl (firstOf_of_min? hy)
  · rename_i hnone
    exact Or.inr ⟨List.min?_eq_none_iff.mp hnone, firstOf_of_min? h⟩

/-- **The greedy order** picks the smallest node. -/
theorem greedyOrder_firstServed (ready : List ι → ι → Bool) (fuel : ℕ) (done remaining : List ι)
    (h : remaining.length ≤ fuel) :
    FirstServed (· < ·) ready done remaining (greedyOrder ready fuel done remaining) := by
  induction fuel generalizing done remaining with
  | zero =>
      obtain rfl : remaining = [] := List.eq_nil_of_length_eq_zero (by omega)
      exact .nil
  | succ fuel ih =>
      rw [greedyOrder]
      split
      · rename_i x hx
        have hpick := picks_of_pickNext hx
        have hlen : (remaining.erase x).length ≤ fuel := by
          rw [List.length_erase_of_mem hpick.mem]
          omega
        exact .cons (List.perm_cons_erase hpick.mem) hpick (ih (x :: done) _ hlen)
      · rename_i hnone
        rw [pickNext_eq_none hnone]
        exact .nil

end Greedy

end Foundation
