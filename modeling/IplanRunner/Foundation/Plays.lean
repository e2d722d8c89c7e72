import Mathlib.Tactic.Common

/-!
Runs of a system that makes one move after another, each recorded with the state it is made in.

* `Plays`: the moves lead from one state to another; `playAll` makes a list of moves of a system
  that computes its next state.
* `Plays.invariant_of`: what every move keeps holds of every state reached.
* `Plays.leads`: a transitive relation along every move.
* `Plays.safe_iff`: where a move keeps a property exactly when it meets a condition, a run keeps it
  exactly when all its moves do.
-/

namespace Foundation

variable {σ ι : Type*} {Step : σ → ι → σ → Prop}

/-- The moves lead from the first state to the last. -/
inductive Plays (Step : σ → ι → σ → Prop) (s₀ : σ) : List (σ × ι) → σ → Prop where
  | start : Plays Step s₀ [] s₀
  | move {moves : List (σ × ι)} {s : σ} {i : ι} {s' : σ} : Plays Step s₀ moves s → Step s i s' →
      Plays Step s₀ (moves ++ [(s, i)]) s'

namespace Plays

variable {s₀ s : σ} {moves : List (σ × ι)} {P : σ → Prop} {C : σ → ι → Prop}

/-- A property that every move of the run keeps. -/
lemma invariant_of (h : Plays Step s₀ moves s) (h0 : P s₀)
    (hstep : ∀ s i s', (s, i) ∈ moves → P s → Step s i s' → P s') :
    (∀ m ∈ moves, P m.1) ∧ P s := by
  induction h with
  | start => exact ⟨by simp, h0⟩
  | move _ hs ih =>
      obtain ⟨hbefore, hP⟩ := ih fun s i s' hmem => hstep s i s' (List.mem_append_left _ hmem)
      refine ⟨fun m hm => ?_, hstep _ _ _ (by simp) hP hs⟩
      rcases List.mem_append.mp hm with hm | hm
      · exact hbefore m hm
      · rw [List.mem_singleton] at hm
        rwa [hm]

/-- **A run keeps a property exactly when each of its moves meets the condition under which a move
keeps it.** -/
theorem safe_iff (h : Plays Step s₀ moves s) (h0 : P s₀)
    (hstep : ∀ s i s', P s → Step s i s' → (P s' ↔ C s i)) :
    ((∀ m ∈ moves, P m.1) ∧ P s) ↔ ∀ m ∈ moves, C m.1 m.2 := by
  constructor
  · rintro ⟨hbefore, hP⟩
    induction h with
    | start => simp
    | @move moves s i s' _ hs ih =>
        have hPs : P s := hbefore (s, i) (by simp)
        intro m hm
        rcases List.mem_append.mp hm with hm | hm
        · exact ih (fun m hm => hbefore m (List.mem_append_left _ hm)) hPs m hm
        · rw [List.mem_singleton] at hm
          rw [hm]
          exact (hstep s i s' hPs hs).mp hP
  · intro hC
    exact h.invariant_of h0 fun s i s' hmem hP hs => (hstep s i s' hP hs).mpr (hC _ hmem)

/-- A transitive relation each move leads along leads from every state of the run to the last. -/
theorem leads {R : σ → σ → Prop} (h : Plays Step s₀ moves s)
    (htrans : ∀ {a b c}, R a b → R b c → R a c)
    (hstep : ∀ s i s', (s, i) ∈ moves → Step s i s' → R s s') : ∀ m ∈ moves, R m.1 s := by
  induction h with
  | start => simp
  | @move moves t i t' _ hs ih =>
      have hlast : R t t' := hstep t i t' (by simp) hs
      intro m hm
      rcases List.mem_append.mp hm with hm | hm
      · exact htrans (ih (fun s i s' hmem => hstep s i s' (List.mem_append_left _ hmem)) m hm) hlast
      · rw [List.mem_singleton.mp hm]
        exact hlast

end Plays

/-! ### Systems that compute their next state -/

/-- The run with the given moves; none when one of them is refused. -/
def playAll (next : σ → ι → Option σ) : σ → List ι → Option (List (σ × ι) × σ)
  | s, [] => some ([], s)
  | s, i :: is => (next s i).bind fun s' => (playAll next s' is).map fun r => ((s, i) :: r.1, r.2)

lemma Plays.playAll {next : σ → ι → Option σ} {s₀ s t : σ} {before moves : List (σ × ι)}
    {is : List ι}
    (h : Plays (fun s i s' => next s i = some s') s₀ before s)
    (hplay : playAll next s is = some (moves, t)) :
    Plays (fun s i s' => next s i = some s') s₀ (before ++ moves) t := by
  induction is generalizing s before moves with
  | nil =>
      cases hplay
      rwa [List.append_nil]
  | cons i is ih =>
      obtain ⟨s', hs', hrest⟩ := Option.bind_eq_some_iff.mp hplay
      obtain ⟨⟨rest, t'⟩, hr, hmoves⟩ := Option.map_eq_some_iff.mp hrest
      cases hmoves
      have := ih (h.move hs') hr
      rwa [List.append_assoc, List.singleton_append] at this

end Foundation
