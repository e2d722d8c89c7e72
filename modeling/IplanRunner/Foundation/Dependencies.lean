import Mathlib.Data.List.Perm.Basic
import Mathlib.Data.Set.Finite.List
import Mathlib.Data.String.Basic
import Mathlib.Logic.Relation
import Mathlib.Order.WellFounded
import Mathlib.Order.Bounds.Defs
import Mathlib.Tactic.Common

/-!
Nodes that wait for other nodes, and the greedy order that serves them.

* `Derivable`: a node is derivable when it holds by itself and everything it depends on is
  derivable; `isLeast_derivable` says that this is the least fixpoint of the equation.
* `OverCycle`: a node that sits on a dependency cycle, or above one; the derivable nodes of a finite
  graph are the others.
* `Derivable.iff_done`: a pass over an order recognises the derivable nodes by what it has done.
* `Served`: an order that serves a node that is ready as long as there is one; `Served.perm` and
  `Served.deps_before` say that it serves every node once, and a derivable one after everything it
  depends on.
* `greedyOrder`: serve the smallest node that is ready, or the smallest of all when none is.
-/

namespace Foundation

variable {ι : Type}

/-! ### The least fixpoint -/

/-- The nodes whose dependencies, and theirs in turn, all hold. -/
inductive Derivable (deps : ι → List ι) (ok : ι → Prop) : ι → Prop
  | intro {t : ι} : ok t → (∀ d ∈ deps t, Derivable deps ok d) → Derivable deps ok t

namespace Derivable

variable {deps : ι → List ι} {ok ok' : ι → Prop} {t : ι}

lemma holds (h : Derivable deps ok t) : ok t := by
  cases h with
  | intro h _ => exact h

lemma of_dep (h : Derivable deps ok t) {d : ι} (hd : d ∈ deps t) : Derivable deps ok d := by
  cases h with
  | intro _ h => exact h d hd

lemma iff_deps : Derivable deps ok t ↔ ok t ∧ ∀ d ∈ deps t, Derivable deps ok d :=
  ⟨fun h => ⟨h.holds, fun _ => h.of_dep⟩, fun h => .intro h.1 h.2⟩

lemma mono (hok : ∀ s, ok s → ok' s) (h : Derivable deps ok t) : Derivable deps ok' t := by
  induction h with
  | intro h _ ih => exact .intro (hok _ h) ih

/-- What holds of every node whose dependencies it holds of, holds of the derivable ones. -/
lemma closed {C : ι → Prop} (hC : ∀ s, ok s → (∀ d ∈ deps s, C d) → C s)
    (h : Derivable deps ok t) : C t := by
  induction h with
  | intro h _ ih => exact hC _ h ih

end Derivable

/-- **The derivable nodes** are the least set that contains a node exactly when the node holds and
the set contains all it depends on. -/
theorem isLeast_derivable (deps : ι → List ι) (ok : ι → Prop) :
    IsLeast {C : Set ι | ∀ t, t ∈ C ↔ ok t ∧ ∀ d ∈ deps t, d ∈ C} {t | Derivable deps ok t} := by
  refine ⟨fun t => Derivable.iff_deps, fun C hC t ht => ?_⟩
  exact Derivable.closed (fun s hs hd => (hC s).mpr ⟨hs, hd⟩) ht

/-! ### Cycles -/

/-- The node sits on a dependency cycle, or above one. -/
def OverCycle (deps : ι → List ι) (t : ι) : Prop :=
  ∃ c, Relation.ReflTransGen (fun t d => d ∈ deps t) t c
    ∧ Relation.TransGen (fun t d => d ∈ deps t) c c

/-- **A derivable node is over no cycle.** -/
theorem Derivable.not_overCycle {deps : ι → List ι} {ok : ι → Prop} {t : ι}
    (h : Derivable deps ok t) : ¬ OverCycle deps t := by
  induction h with
  | @intro t _ _ ih =>
      rintro ⟨c, hpath, hcycle⟩
      rcases hpath.cases_head with rfl | ⟨d, hd, hrest⟩
      · obtain ⟨d, hd, hback⟩ := Relation.TransGen.head'_iff.mp hcycle
        exact ih d hd ⟨t, hback, hcycle⟩
      · exact ih d hd ⟨c, hrest, hcycle⟩

/-- What can be reached from a derivable node is derivable. -/
lemma Derivable.of_reached {deps : ι → List ι} {ok : ι → Prop} {t s : ι} (h : Derivable deps ok t)
    (hpath : Relation.ReflTransGen (fun t d => d ∈ deps t) t s) : Derivable deps ok s := by
  induction hpath with
  | refl => exact h
  | tail _ hd ih => exact ih.of_dep hd

/-- **The derivable nodes of a finite graph** are those from which only its own nodes and no cycle
can be reached. -/
theorem derivable_iff_reached {deps : ι → List ι} {ids : List ι} {t : ι} :
    Derivable deps (· ∈ ids) t
      ↔ (∀ s, Relation.ReflTransGen (fun t d => d ∈ deps t) t s → s ∈ ids)
        ∧ ¬ OverCycle deps t := by
  refine ⟨fun h => ⟨fun s hpath => (h.of_reached hpath).holds, h.not_overCycle⟩,
    fun ⟨hknown, hover⟩ => ?_⟩
  let S : Set ι := {s | Relation.ReflTransGen (fun t d => d ∈ deps t) t s}
  let below : S → S → Prop := fun d t => Relation.TransGen (fun t d => d ∈ deps t) t.1 d.1
  have hfin : Finite S := ((List.finite_toSet ids).subset fun s hs => hknown s hs).to_subtype
  have htrans : IsTrans S below := ⟨fun _ _ _ hab hbc => hbc.trans hab⟩
  have hirrefl : Std.Irrefl below := ⟨fun a ha => hover ⟨a.1, a.2, ha⟩⟩
  have hwf : WellFounded below := Finite.wellFounded_of_trans_of_irrefl below
  suffices h : ∀ a : S, Derivable deps (· ∈ ids) a.1 from h ⟨t, .refl⟩
  intro a
  induction a using hwf.induction with
  | _ a ih => exact .intro (hknown _ a.2) fun d hd => ih ⟨d, a.2.tail hd⟩ (.single hd)

/-- **In a finite graph that resolves its dependencies** the derivable nodes are those over no
cycle. -/
theorem derivable_iff_not_overCycle {deps : ι → List ι} {ids : List ι}
    (hclosed : ∀ t ∈ ids, ∀ d ∈ deps t, d ∈ ids) {t : ι} :
    Derivable deps (· ∈ ids) t ↔ t ∈ ids ∧ ¬ OverCycle deps t := by
  have hreached : t ∈ ids → ∀ s, Relation.ReflTransGen (fun t d => d ∈ deps t) t s → s ∈ ids := by
    intro ht s hpath
    induction hpath with
    | refl => exact ht
    | tail _ hd ih => exact hclosed _ ih _ hd
  rw [derivable_iff_reached]
  exact and_congr_left fun _ => ⟨fun h => h t .refl, hreached⟩

/-! ### A pass over an order -/

/-- **When everything before it has been settled**, a node is derivable exactly when it holds and
all it depends on is done. -/
theorem Derivable.iff_done {deps : ι → List ι} {ok : ι → Prop} {done pre : List ι} {t : ι}
    (hdone : ∀ d, d ∈ done ↔ d ∈ pre ∧ Derivable deps ok d)
    (hbefore : Derivable deps ok t → ∀ d ∈ deps t, d ∈ pre) :
    Derivable deps ok t ↔ ok t ∧ ∀ d ∈ deps t, d ∈ done := by
  constructor
  · intro h
    exact ⟨h.holds, fun d hd => (hdone d).mpr ⟨hbefore h d hd, h.of_dep hd⟩⟩
  · rintro ⟨hok, hdeps⟩
    exact .intro hok fun d hd => ((hdone d).mp (hdeps d hd)).2

/-! ### Orders that serve what is ready -/

section Served

variable {deps : ι → List ι} {ok : ι → Prop} {ready : List ι → ι → Bool}
  {done remaining order : List ι}

/-- An order that serves `remaining`, behind what is done: at every turn a node that is ready, or
any node when none is. -/
inductive Served (ready : List ι → ι → Bool) : List ι → List ι → List ι → Prop
  | nil {done : List ι} : Served ready done [] []
  | cons {done remaining rest order : List ι} {x : ι} (hperm : remaining.Perm (x :: rest))
      (hpick : ready done x = true ∨ ∀ y ∈ remaining, ready done y = false)
      (hrest : Served ready (x :: done) rest order) : Served ready done remaining (x :: order)

/-- **Every node is served once.** -/
theorem Served.perm (h : Served ready done remaining order) : order.Perm remaining := by
  induction h with
  | nil => exact List.Perm.refl _
  | @cons _ _ _ _ x hperm _ _ ih => exact (ih.cons x).trans hperm.symm

/-- If nothing that remains is ready, what remains waits in vain. -/
lemma not_derivable_of_stuck (hready : ∀ done t, ready done t = true ↔ ∀ d ∈ deps t, d ∈ done)
    (hall : ∀ t, Derivable deps ok t → t ∈ done ∨ t ∈ remaining)
    (hstuck : ∀ y ∈ remaining, ready done y = false) {t : ι} (ht : Derivable deps ok t) :
    t ∉ remaining := by
  induction ht with
  | @intro t hok hdeps ih =>
      intro hmem
      have hr : ready done t = true := by
        rw [hready]
        intro d hd
        rcases hall d (hdeps d hd) with h | h
        · exact h
        · exact absurd h (ih d hd)
      rw [hstuck t hmem] at hr
      exact absurd hr (by simp)

/-- **What a derivable node depends on is served before it.** -/
theorem Served.deps_before (h : Served ready done remaining order)
    (hready : ∀ done t, ready done t = true ↔ ∀ d ∈ deps t, d ∈ done)
    (hall : ∀ t, Derivable deps ok t → t ∈ done ∨ t ∈ remaining) {pre post : List ι} {t : ι}
    (hsplit : order = pre ++ t :: post) (ht : Derivable deps ok t) :
    ∀ d ∈ deps t, d ∈ done ∨ d ∈ pre := by
  induction h generalizing pre with
  | nil => simp at hsplit
  | @cons done remaining rest order x hperm hpick _ ih =>
      cases pre with
      | nil =>
          obtain rfl : x = t := (List.cons.inj hsplit).1
          rcases hpick with hr | hstuck
          · exact fun d hd => Or.inl ((hready done x).mp hr d hd)
          · exact absurd (hperm.mem_iff.mpr List.mem_cons_self)
              (not_derivable_of_stuck hready hall hstuck ht)
      | cons y pre =>
          obtain ⟨rfl, htail⟩ := List.cons.inj hsplit
          have hall' : ∀ s, Derivable deps ok s → s ∈ x :: done ∨ s ∈ rest := by
            intro s hs
            rcases hall s hs with h | h
            · exact Or.inl (List.mem_cons_of_mem _ h)
            · rcases List.mem_cons.mp (hperm.mem_iff.mp h) with rfl | h
              · exact Or.inl List.mem_cons_self
              · exact Or.inr h
          intro d hd
          rcases ih hall' htail d hd with h | h
          · rcases List.mem_cons.mp h with rfl | h'
            · exact Or.inr List.mem_cons_self
            · exact Or.inl h'
          · exact Or.inr (List.mem_cons_of_mem _ h)

end Served

/-! ### The greedy order -/

section Greedy

variable [LinearOrder ι]

/-- The next node: the smallest ready one, or the smallest when none is ready. -/
def pickNext (ready : List ι → ι → Bool) (done remaining : List ι) : Option ι :=
  match (remaining.filter (ready done)).min? with
  | some x => some x
  | none => remaining.min?

/-- Serves `remaining`, `done` being served already; the fuel is the number of nodes to serve. -/
def greedyOrder (ready : List ι → ι → Bool) : ℕ → List ι → List ι → List ι
  | 0, _, _ => []
  | fuel + 1, done, remaining =>
      match pickNext ready done remaining with
      | some x => x :: greedyOrder ready fuel (x :: done) (remaining.erase x)
      | none => []

lemma pickNext_eq_none {ready : List ι → ι → Bool} {done remaining : List ι}
    (h : pickNext ready done remaining = none) : remaining = [] := by
  rw [pickNext] at h
  split at h
  · simp at h
  · exact List.min?_eq_none_iff.mp h

end Greedy

end Foundation
