import Mathlib.Algebra.BigOperators.Group.List.Basic
import Mathlib.Algebra.Ring.Int.Defs
import IplanRunner.Foundation.Interleaving

/-!
A resource that the threads of a platform share out.

* `Ration`: how much of it is free, what a job starts with, and what a call takes or gives back.
* `Ration.balance`, `Ration.held`: what a thread has of it, and what it can still give back.
* `Ration.step`: what is free and what is held make up the same amount after a step, but for what a
  killed thread held; a restart makes up the whole.
-/

namespace Foundation

variable {ε Op σ Job : Type} {Res : Op → Type}

namespace Platform

/-- A resource of which a fixed amount is shared out. -/
structure Ration (S : Platform ε Op Res σ Job) where
  total : ℤ
  free : σ → ℤ
  given : Job → ℤ
  taken : Exchange ε Op Res → ℤ
  effect : ∀ op s out s' jobs, S.effect op s out s' jobs →
    free s' + taken ⟨op, out⟩ + (jobs.map given).sum = free s
  arrives : ∀ job, S.arrives job → given job = 0
  recover : ∀ s, free (S.recover s) = total

namespace Ration

variable {S : Platform ε Op Res σ Job} (A : S.Ration)

/-- What a job has of the resource after its calls. -/
def balance (job : Job) (past : List (Exchange ε Op Res)) : ℤ :=
  A.given job + (past.map A.taken).sum

/-- What a thread can still give back; one that was killed gives nothing back. -/
def held (t : Thread ε Op Res Job) : ℤ := if t.left.isSome then A.balance t.job t.past else 0

/-- What is free and what is held. -/
def account (P : Pool ε Op Res σ Job) : ℤ := A.free P.shared + (P.threads.map A.held).sum

variable {P P' : Pool ε Op Res σ Job} {m : ThreadMove ε Op Res Job}

lemma balance_snoc (job : Job) (past : List (Exchange ε Op Res)) (x : Exchange ε Op Res) :
    A.balance job (past ++ [x]) = A.balance job past + A.taken x := by
  rw [balance, balance, List.map_append, List.sum_append, List.map_singleton, List.sum_singleton,
    add_assoc]

lemma held_killed (t : Thread ε Op Res Job) : A.held t.killed = 0 := rfl

lemma held_fresh (job : Job) : A.held (S.fresh job) = A.given job :=
  add_zero _

/-- A sum over a list one entry of which is replaced. -/
lemma sum_map_set {α : Type} (f : α → ℤ) {l : List α} {i : ℕ} {a : α} (h : l[i]? = some a)
    (b : α) : ((l.set i b).map f).sum = (l.map f).sum - f a + f b := by
  induction l generalizing i with
  | nil => cases h
  | cons c l ih =>
      cases i with
      | zero =>
          cases h
          rw [List.set_cons_zero, List.map_cons, List.sum_cons, List.map_cons, List.sum_cons]
          omega
      | succ i =>
          rw [List.set_cons_succ, List.map_cons, List.sum_cons, ih h, List.map_cons, List.sum_cons]
          omega

/-- **What a step does to the account**: nothing, a restart apart, which makes it whole, and what a
killed thread held is lost. -/
theorem step (h : S.Step P m P') : A.account P' = A.account P ∨ A.account P' = A.total
    ∨ ∃ i t, m = .kill i ∧ P.threads[i]? = some t ∧ A.account P' = A.account P - A.held t := by
  cases h with
  | @start job harrives =>
      refine Or.inl ?_
      rw [account, account, List.map_append, List.sum_append, List.map_singleton,
        List.sum_singleton, held_fresh, A.arrives job harrives, add_zero]
  | @call i job past op next out s jobs hthread heffect =>
      refine Or.inl ?_
      have hjobs : (jobs.map S.fresh).map A.held = jobs.map A.given := by
        rw [List.map_map]
        exact List.map_congr_left fun job' _ => A.held_fresh job'
      have hgrown : A.held ⟨job, past ++ [⟨op, out⟩], some (next out)⟩
          = A.held ⟨job, past, some (.call op next)⟩ + A.taken ⟨op, out⟩ := A.balance_snoc ..
      have hmade := A.effect op _ out s jobs heffect
      rw [account, account, List.map_append, List.sum_append, hjobs, sum_map_set _ hthread, hgrown]
      change A.free s + _ = _
      omega
  | @kill i t hthread =>
      refine Or.inr (Or.inr ⟨i, t, rfl, hthread, ?_⟩)
      rw [account, account, sum_map_set _ hthread, held_killed]
      change A.free P.shared + _ = _
      omega
  | restart =>
      refine Or.inr (Or.inl ?_)
      have hnone : (P.threads.map Thread.killed).map A.held = P.threads.map fun _ => 0 := by
        rw [List.map_map]
        exact List.map_congr_left fun t _ => A.held_killed t
      rw [account, hnone, A.recover]
      simp

variable {P₀ : Pool ε Op Res σ Job} {trail : List (Change ε Op Res σ Job)}

/-- Where no thread is killed on its own, the account is whole in every run. -/
lemma account_eq (h : S.Run P₀ trail P) (hstart : A.account P₀ = A.total)
    (hkill : ∀ c ∈ trail, ∀ i, c.move ≠ .kill i) : A.account P = A.total := by
  refine h.invariant (fun c => ∀ i, c.move ≠ .kill i) (fun Q => A.account Q = A.total)
    (fun Q m Q' hstep hok hQ => ?_) hkill hstart
  rcases A.step hstep with hsame | hwhole | ⟨i, t, hm, -⟩
  · rw [hsame, hQ]
  · exact hwhole
  · exact absurd hm (hok i)

end Ration

end Platform

end Foundation
