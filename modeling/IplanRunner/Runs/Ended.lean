import IplanRunner.Runs.Leases

/-!
How a turn ends for its task, as far as its status, its key and its blockers go.

* `Ledger.Committed`: the task has a committed transaction.
* `Ended`: the ways, and `Turn.ended`.
* `Turn.done_self`, `Turn.commits_self`, `Turn.blocks_committed`: what can be read off the status
  and the key a turn leaves.
-/

namespace IplanRunner

open Foundation

/-- The task has a committed transaction. -/
def Ledger.Committed (L : Ledger) (taskId : String) : Prop :=
  alreadyCommitted L (executeKey taskId) = true

instance (L : Ledger) (taskId : String) : Decidable (L.Committed taskId) := by
  unfold Ledger.Committed
  infer_instance

lemma not_committed_iff (L : Ledger) (taskId : String) :
    ¬ L.Committed taskId ↔ alreadyCommitted L (executeKey taskId) = false := by
  rw [Ledger.Committed, Bool.not_eq_true]

section Runtime

variable [PyRuntime]

/-! ### How a turn ends -/

/-- How a turn ends for its task. -/
inductive Ended (node : TaskNode) (taskId : String) (completed : List String) (L : Ledger)
    (r : Except PyErr Unit) (δ : Delta) : Prop
  /-- Its key is committed: nothing happens. -/
  | stayed : DepsMet node completed → L.Committed taskId → r = .ok () → δ = {} →
      Ended node taskId completed L r δ
  /-- It waits for a dependency or for a lease, or its executor failed. -/
  | blocked : (DepsMet node completed → ¬ L.Committed taskId) → r = .ok () →
      (∀ e, (δ.entry e).status = .blocked) → δ.blockers ≠ [] →
      (∀ x ∈ δ.txns, x.status ≠ .committed) → Ended node taskId completed L r δ
  /-- Something raised. -/
  | crashed {e : PyErr} : ¬ L.Committed taskId → r = .error e →
      (∀ e, (δ.entry e).status = .inProgress) → (∀ x ∈ δ.txns, x.status ≠ .committed) →
      Ended node taskId completed L r δ
  /-- Its executor succeeded. -/
  | completed : DepsMet node completed → ¬ L.Committed taskId → L.LeaseFree taskId → r = .ok () →
      (∀ e, (δ.entry e).status = .completed) → (∃ x ∈ δ.txns, x.status = .committed) →
      δ.blockers = [] → Ended node taskId completed L r δ

section Turn

variable {W : Type} {h : Host W} {cfg : RunConfig} {node : TaskNode} {taskId : String}
  {completed : List String} {L : Ledger} {r : Except PyErr Unit} {δ : Delta} {fx : List Effect}

/-- **Every turn ends one of the ways of `Ended`.** -/
theorem Turn.ended (hturn : Turn h cfg node taskId completed L r δ fx) (hL : NoExpiry L) :
    Ended node taskId completed L r δ := by
  cases hturn with
  | unmet hunmet =>
      exact .blocked (fun hmet => absurd hmet hunmet) rfl (fun _ => rfl) (by simp [blockDelta])
        (by simp [blockDelta])
  | ran hmet hrun =>
      cases hrun with
      | committed hc => exact .stayed hmet hc rfl rfl
      | conflict hc _ =>
          exact .blocked (fun _ => (not_committed_iff _ _).mpr hc) rfl (fun _ => rfl)
            (by simp [blockDelta]) (by simp [blockDelta])
      | crashed hc _ _ _ =>
          exact .crashed ((not_committed_iff _ _).mpr hc) rfl (fun _ => rfl)
            (by simp [crashDelta, Begun.txn])
      | succeeded hc hl _ _ _ _ _ =>
          exact .completed hmet ((not_committed_iff _ _).mpr hc) ((canAcquire_iff hL _ _).mp hl) rfl
            (fun _ => rfl) ⟨_, List.mem_singleton_self _, rfl⟩ rfl
      | failed hc _ _ _ _ =>
          refine .blocked (fun _ => (not_committed_iff _ _).mpr hc) rfl (fun _ => rfl)
            (by simp [failureDelta]) fun x hx => ?_
          rw [List.mem_singleton.mp hx, compensateTxn]
          split <;> simp [Begun.txn]

/-- A turn commits at most the key of its task. -/
lemma Turn.committed_apply (hturn : Turn h cfg node taskId completed L r δ fx) (t : String) :
    (L.apply taskId δ).Committed t
      ↔ L.Committed t ∨ t = taskId ∧ ∃ x ∈ δ.txns, x.status = .committed := by
  have hkey := hturn.own.2
  rw [Ledger.Committed, Ledger.Committed, alreadyCommitted, alreadyCommitted,
    Ledger.apply_sagaJournal, List.any_append, Bool.or_eq_true]
  refine or_congr_right ?_
  rw [List.any_eq_true]
  constructor
  · rintro ⟨x, hx, hxk⟩
    rw [Bool.and_eq_true, beq_iff_eq, beq_iff_eq, hkey x hx] at hxk
    exact ⟨(executeKey_inj.mp hxk.1).symm, x, hx, hxk.2⟩
  · rintro ⟨rfl, x, hx, hst⟩
    exact ⟨x, hx, by simp [hkey x hx, hst]⟩

/-- The statuses after a turn, for a task the ledger knows. -/
lemma Turn.status?_self (hturn : Turn h cfg node taskId completed L r δ fx)
    (hsome : (L.task? taskId).isSome) {st : TaskStatus} (hst : ∀ e, (δ.entry e).status = st) :
    (L.apply taskId δ).status? taskId = some st := by
  obtain ⟨e, he⟩ := Option.isSome_iff_exists.mp hsome
  rw [hturn.status?_apply, if_pos rfl, he, Option.map_some, hst]

lemma Turn.done_of_ne (hturn : Turn h cfg node taskId completed L r δ fx) {t : String}
    (ht : t ≠ taskId) : (L.apply taskId δ).Done t ↔ L.Done t := by
  rw [Ledger.done_iff, Ledger.done_iff, hturn.status?_apply, if_neg ht]

/-- A turn completes its task only by committing it. -/
lemma Turn.done_self (hturn : Turn h cfg node taskId completed L r δ fx) (hL : NoExpiry L)
    (hdone : ¬ L.Done taskId) (hafter : (L.apply taskId δ).Done taskId) :
    DepsMet node completed ∧ ¬ L.Committed taskId ∧ L.LeaseFree taskId
      ∧ (L.apply taskId δ).Committed taskId := by
  have hst : ∀ st, (∀ e, (δ.entry e).status = st) → st = .completed := by
    intro st hst
    rw [Ledger.done_iff, hturn.status?_apply, if_pos rfl] at hafter
    obtain ⟨e, -, he⟩ := Option.map_eq_some_iff.mp hafter
    rw [← hst e, he]
  cases hturn.ended hL with
  | stayed _ _ _ hδ =>
      rw [hδ, Ledger.apply_empty] at hafter
      exact absurd hafter hdone
  | blocked _ _ hs _ _ => exact absurd (hst _ hs) (by simp)
  | crashed _ _ hs _ => exact absurd (hst _ hs) (by simp)
  | completed hmet hc hfree _ _ htxn _ =>
      exact ⟨hmet, hc, hfree, (hturn.committed_apply taskId).mpr (Or.inr ⟨rfl, htxn⟩)⟩

/-- A turn commits its task only when its dependencies are met, and completes it. -/
lemma Turn.commits_self (hturn : Turn h cfg node taskId completed L r δ fx) (hL : NoExpiry L)
    (hsome : (L.task? taskId).isSome) (hc : ¬ L.Committed taskId)
    (hafter : (L.apply taskId δ).Committed taskId) :
    DepsMet node completed ∧ (L.apply taskId δ).Done taskId := by
  rcases (hturn.committed_apply taskId).mp hafter with hold | ⟨-, x, hx, hxs⟩
  · exact absurd hold hc
  cases hturn.ended hL with
  | stayed _ hcom _ _ => exact absurd hcom hc
  | blocked _ _ _ _ hn => exact absurd hxs (hn x hx)
  | crashed _ _ _ hn => exact absurd hxs (hn x hx)
  | completed hmet _ _ _ hs _ _ =>
      exact ⟨hmet, (Ledger.done_iff _ _).mpr (hturn.status?_self hsome hs)⟩

/-- A turn that leaves its committed task blocked found a dependency missing. -/
lemma Turn.blocks_committed (hturn : Turn h cfg node taskId completed L r δ fx) (hL : NoExpiry L)
    (hc : (L.apply taskId δ).Committed taskId)
    (hst : (L.apply taskId δ).status? taskId = some .blocked) :
    (L.Committed taskId ∧ L.status? taskId = some .blocked)
      ∨ (L.Committed taskId ∧ ¬ DepsMet node completed) := by
  have hst' : ∀ st, (∀ e, (δ.entry e).status = st) → st = .blocked := by
    intro st hs
    rw [hturn.status?_apply, if_pos rfl] at hst
    obtain ⟨e, -, he⟩ := Option.map_eq_some_iff.mp hst
    rw [← hs e, he]
  cases hturn.ended hL with
  | stayed _ hcom _ hδ =>
      rw [hδ, Ledger.apply_empty] at hst
      exact Or.inl ⟨hcom, hst⟩
  | blocked hfree _ _ _ hn =>
      rcases (hturn.committed_apply taskId).mp hc with hold | ⟨-, x, hx, hxs⟩
      · exact Or.inr ⟨hold, fun hmet => hfree hmet hold⟩
      · exact absurd hxs (hn x hx)
  | crashed _ _ hs _ => exact absurd (hst' _ hs) (by simp)
  | completed _ _ _ _ hs _ _ => exact absurd (hst' _ hs) (by simp)

end Turn

end Runtime

end IplanRunner
