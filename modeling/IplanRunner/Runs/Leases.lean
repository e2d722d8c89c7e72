import IplanRunner.Runs.History

/-!
Leases over whole histories.  The loop gives a lease no expiry, so only its release ends it.

* `NoExpiry`: no lease of the ledger expires; true of every ledger reached.
* `Ledger.LeaseFree`: every lease of a task is released; then, and only then, a new one can be
  acquired, at any time.
-/

namespace IplanRunner

open Foundation

/-- No lease expires. -/
def NoExpiry (L : Ledger) : Prop := ∀ l ∈ L.agentLeases, l.expiresAt = .none

/-- Every lease of the task is released. -/
def Ledger.LeaseFree (L : Ledger) (taskId : String) : Prop :=
  ∀ l ∈ L.agentLeases, l.taskId = taskId → l.releasedAt.truthy = true

instance (L : Ledger) (taskId : String) : Decidable (L.LeaseFree taskId) := by
  unfold Ledger.LeaseFree
  infer_instance

variable [PyRuntime]

/-- **Without expiry a lease is active until it is released.** -/
theorem canAcquire_iff {L : Ledger} (hL : NoExpiry L) (taskId now : String) :
    canAcquire L.agentLeases taskId now = true ↔ L.LeaseFree taskId := by
  have hstate : ∀ l ∈ L.agentLeases, leaseState l now = .active ↔ l.releasedAt.truthy = false := by
    intro l hl
    rw [leaseState, hL l hl]
    cases l.releasedAt.truthy <;> simp [Val.truthy]
  rw [canAcquire, Bool.not_eq_true', List.any_eq_false]
  refine forall₂_congr fun l hl => ?_
  rw [Bool.and_eq_true, beq_iff_eq, beq_iff_eq, hstate l hl, not_and, Bool.not_eq_false]

/-- A turn adds no lease that expires. -/
lemma Turn.noExpiry {W : Type} {h : Host W} {cfg : RunConfig} {node : TaskNode} {taskId : String}
    {completed : List String} {L : Ledger} {r : Except PyErr Unit} {δ : Delta} {fx : List Effect}
    (hturn : Turn h cfg node taskId completed L r δ fx) (hL : NoExpiry L) :
    NoExpiry (L.apply taskId δ) := by
  intro l hl
  rcases List.mem_append.mp hl with h1 | h1
  · exact hL l h1
  · exact (hturn.own.1 l h1).2

lemma noExpiry_history {manifests : Manifest → Prop} {overrides : Ledger → String → Prop} :
    HistoryInvariant manifests overrides NoExpiry where
  start := by
    intro m L _ hstart l hl
    obtain ⟨-, -, hnone, -⟩ := startLedger_empty hstart
    rw [hnone] at hl
    exact absurd hl (by simp)
  turn := fun _ _ _ _ _ hturn hL => hturn.noExpiry hL
  state := fun _ hL => hL
  reconcile := fun hL => hL
  override := fun _ _ hL => hL
  record := fun _ _ hL => hL

end IplanRunner
