import IplanRunner.Foundation.Plays
import IplanRunner.Foundation.Runtime
import IplanRunner.Orchestrator.State

/-!
The lifecycle of leases (`orchestrator/leases.py` and LEASE_MODEL.md): acquire, renew, release and
the passing of time, in any order.

* `renew`, `LeaseBook.perform`: the operations; `acquire` is guarded by `canAcquire`, `renew` by
  nothing.
* `OneActive`: at most one lease of a task is active.
* `lease_exclusion_iff`: it holds along a run exactly when no renewal brings an expired lease back
  while another one is active.
-/

namespace IplanRunner

open Foundation

/-- A timestamp.  Texts of one ISO-8601 UTC format compare as the times they name do; of the format
only its order is used, and that no timestamp is empty. -/
structure Stamp where
  text : String
  nonempty : text ≠ ""

/-- `renew`. -/
def renew (lease : Lease) (newExpiry : Stamp) : Lease :=
  { lease with expiresAt := .str newExpiry.text }

/-- `released_at = now`. -/
def release (lease : Lease) (now : Stamp) : Lease := { lease with releasedAt := .str now.text }

/-- The leases there are, and the time. -/
structure LeaseBook where
  leases : List Lease
  now : String

/-- An operation on the leases; `renew` and `release` are handed any lease there is. -/
inductive LeaseOp where
  | acquire (leaseId taskId agentId : String) (expiresAt : Option Stamp)
  | renew (index : ℕ) (newExpiry : Stamp)
  | release (index : ℕ)
  | pass

section Runtime

variable [PyRuntime]

/-- The leases after an operation at a time; an acquisition the guard refuses is not made. -/
def LeaseOp.apply (leases : List Lease) (now : Stamp) : LeaseOp → Option (List Lease)
  | .acquire leaseId taskId agentId expiresAt =>
      if canAcquire leases taskId now.text then
        some (leases ++
          [⟨leaseId, taskId, agentId, .str now.text, expiresAt.elim .none (.str ·.text), .none⟩])
      else none
  | .renew index newExpiry => some (leases.modify index (IplanRunner.renew · newExpiry))
  | .release index => some (leases.modify index (IplanRunner.release · now))
  | .pass => some leases

/-- An operation at a time that is not before the last one. -/
def LeaseBook.perform (b : LeaseBook) (m : Stamp × LeaseOp) : Option LeaseBook :=
  if m.1.text < b.now then none else (m.2.apply b.leases m.1).map (⟨·, m.1.text⟩)

/-- A run of lease operations at non-decreasing times. -/
def LeaseRun (start : LeaseBook) (moves : List (LeaseBook × Stamp × LeaseOp)) (b : LeaseBook) :
    Prop :=
  Plays (fun b m b' => b.perform m = some b') start moves b

/-! ### How many leases are active -/

/-- The lease is one of the task's and active. -/
def activeFor (taskId now : String) (lease : Lease) : Bool :=
  lease.taskId == taskId && leaseState lease now == .active

/-- At most one lease of the task is active. -/
def OneActive (taskId : String) (b : LeaseBook) : Prop :=
  b.leases.countP (activeFor taskId b.now) ≤ 1

instance (taskId : String) (b : LeaseBook) : Decidable (OneActive taskId b) :=
  inferInstanceAs (Decidable (_ ≤ _))

/-- A renewal keeps to the task's guard: it brings an expired lease of the task back only when a
new one could be acquired. -/
def RenewsInTurn (taskId : String) (b : LeaseBook) (m : Stamp × LeaseOp) : Prop :=
  ∀ index newExpiry lease, m.2 = .renew index newExpiry → b.leases[index]? = some lease →
    lease.taskId = taskId → leaseState lease m.1.text = .expired → m.1.text ≤ newExpiry.text →
      canAcquire b.leases taskId m.1.text = true

lemma canAcquire_iff_countP (leases : List Lease) (taskId now : String) :
    canAcquire leases taskId now = true ↔ leases.countP (activeFor taskId now) = 0 := by
  rw [canAcquire, Bool.not_eq_true', List.any_eq_false, List.countP_eq_zero]
  rfl

/-- Time makes no lease active. -/
lemma activeFor_of_later {taskId now later : String} {lease : Lease} (hle : now ≤ later)
    (h : activeFor taskId later lease = true) : activeFor taskId now lease = true := by
  rw [activeFor, Bool.and_eq_true, beq_iff_eq, beq_iff_eq] at h ⊢
  refine ⟨h.1, ?_⟩
  have hstate := h.2
  unfold leaseState at hstate ⊢
  by_cases hrel : lease.releasedAt.truthy = true
  · simp [hrel] at hstate
  · by_cases hexp : lease.expiresAt.truthy = true
    · simp only [hrel, hexp, Bool.false_eq_true, if_false, Bool.true_and, decide_eq_true_eq]
        at hstate ⊢
      by_cases hlate : lease.expiresAt.pyStr < later
      · simp [hlate] at hstate
      · have hnow : ¬ lease.expiresAt.pyStr < now := fun h => hlate (Std.lt_of_lt_of_le h hle)
        simp [hnow]
    · simp [hrel, hexp]

lemma countP_later (leases : List Lease) {taskId now later : String} (hle : now ≤ later) :
    leases.countP (activeFor taskId later) ≤ leases.countP (activeFor taskId now) :=
  List.countP_mono_left fun _ _ h => activeFor_of_later hle h

omit [PyRuntime] in
/-- A change to one of the leases changes how many are active by that lease alone. -/
lemma countP_modify (leases : List Lease) (p : Lease → Bool) (f : Lease → Lease) {index : ℕ}
    {lease : Lease} (hget : leases[index]? = some lease) :
    (leases.modify index f).countP p + (if p lease then 1 else 0)
      = leases.countP p + (if p (f lease) then 1 else 0) := by
  obtain ⟨hlt, hlease⟩ := List.getElem?_eq_some_iff.mp hget
  obtain ⟨before, x, after, hsplit, hlen, hmod⟩ := List.exists_of_modify f hlt
  obtain rfl : x = lease := by
    rw [← hlease]
    subst hlen
    simp [hsplit]
  rw [hmod, hsplit]
  simp only [List.countP_append, List.countP_cons]
  omega

omit [PyRuntime] in
/-- A change that makes no lease active. -/
lemma countP_modify_le (leases : List Lease) (p : Lease → Bool) (f : Lease → Lease) (index : ℕ)
    (h : ∀ lease, leases[index]? = some lease → p (f lease) = true → p lease = true) :
    (leases.modify index f).countP p ≤ leases.countP p := by
  cases hget : leases[index]? with
  | none =>
      rw [List.modify_eq_self (by simpa using hget)]
  | some lease =>
      have hcount := countP_modify leases p f hget
      have hp := h lease hget
      by_cases hf : p (f lease) = true
      · rw [if_pos hf, if_pos (hp hf)] at hcount
        omega
      · rw [if_neg hf] at hcount
        omega

/-! ### What one operation keeps -/

lemma activeFor_release (taskId : String) (now : Stamp) (lease : Lease) :
    activeFor taskId now.text (release lease now) = false := by
  have htrue : (Val.str now.text).truthy = true := by simpa [Val.truthy] using now.nonempty
  rw [activeFor, leaseState, release, if_pos htrue]
  simp

/-- A renewed lease is active when the lease was, or when it had expired and the new window has not
passed. -/
lemma activeFor_renew (taskId now : String) (lease : Lease) (newExpiry : Stamp) :
    activeFor taskId now (renew lease newExpiry) = true ↔
      lease.taskId = taskId ∧ now ≤ newExpiry.text ∧
        (activeFor taskId now lease = true ∨ leaseState lease now = .expired) := by
  have htrue : (Val.str newExpiry.text).truthy = true := by
    simpa [Val.truthy] using newExpiry.nonempty
  have hrenewed : leaseState (renew lease newExpiry) now = .active ↔
      lease.releasedAt.truthy = false ∧ now ≤ newExpiry.text := by
    rw [leaseState, renew]
    by_cases hrel : lease.releasedAt.truthy = true
    · simp [hrel]
    · by_cases hlate : newExpiry.text < now
      · simp [hrel, htrue, hlate, Std.not_le.mpr hlate]
      · simp [hrel, htrue, hlate, Std.not_lt.mp hlate]
  have hheld : lease.releasedAt.truthy = false ↔
      leaseState lease now = .active ∨ leaseState lease now = .expired := by
    rw [leaseState]
    by_cases hrel : lease.releasedAt.truthy = true
    · simp [hrel]
    · by_cases hexp : (lease.expiresAt.truthy && decide (lease.expiresAt.pyStr < now)) = true
      · rw [if_neg hrel, if_pos hexp]
        simp [hrel]
      · rw [if_neg hrel, if_neg hexp]
        simp [hrel]
  rw [activeFor, activeFor, Bool.and_eq_true, Bool.and_eq_true, beq_iff_eq, beq_iff_eq, beq_iff_eq,
    beq_iff_eq, hrenewed, hheld]
  show lease.taskId = taskId ∧ _ ↔ _
  tauto

/-- The leases after an operation, when at most one was active before. -/
lemma apply_active {leases leases' : List Lease} {taskId : String} {now : Stamp} {op : LeaseOp}
    {b : LeaseBook} (hb : b.leases = leases)
    (hone : leases.countP (activeFor taskId now.text) ≤ 1)
    (happly : op.apply leases now = some leases') :
    leases'.countP (activeFor taskId now.text) ≤ 1 ↔ RenewsInTurn taskId b (now, op) := by
  cases op with
  | acquire leaseId other agentId expiresAt =>
      refine iff_of_true ?_ (by simp [RenewsInTurn])
      rw [LeaseOp.apply] at happly
      split_ifs at happly with hfree
      obtain rfl := Option.some.inj happly
      rw [List.countP_append]
      by_cases hother : other = taskId
      · have hnone := (canAcquire_iff_countP _ _ _).mp hfree
        have hnew := List.countP_le_length (p := activeFor taskId now.text)
          (l := [⟨leaseId, other, agentId, .str now.text,
            expiresAt.elim .none (.str ·.text), .none⟩])
        rw [hother] at hnone
        rw [List.length_singleton] at hnew
        omega
      · have hnot : activeFor taskId now.text ⟨leaseId, other, agentId, .str now.text,
            expiresAt.elim .none (.str ·.text), .none⟩ = false := by
          simp [activeFor, hother]
        simpa [hnot] using hone
  | renew index newExpiry =>
      obtain rfl := Option.some.inj happly
      cases hget : leases[index]? with
      | none =>
          refine iff_of_true ?_ ?_
          · rwa [List.modify_eq_self (by simpa using hget)]
          · rintro i e lease ⟨⟩ hlease
            rw [hb, hget] at hlease
            cases hlease
      | some lease =>
          have hcount := countP_modify leases (activeFor taskId now.text) (renew · newExpiry) hget
          have hcond : RenewsInTurn taskId b (now, .renew index newExpiry) ↔
              (lease.taskId = taskId → leaseState lease now.text = .expired →
                now.text ≤ newExpiry.text → leases.countP (activeFor taskId now.text) = 0) := by
            rw [← canAcquire_iff_countP]
            constructor
            · intro h
              have := h index newExpiry lease rfl (by rw [hb, hget])
              rwa [hb] at this
            · rintro h i e l ⟨⟩ hl
              rw [hb, hget] at hl
              obtain rfl := Option.some.inj hl
              rwa [hb]
          rw [hcond]
          by_cases hwas : activeFor taskId now.text lease = true
          · -- it is the one that is active, so no other is, and it has not expired
            have hstate : leaseState lease now.text = .active := by
              rw [activeFor, Bool.and_eq_true, beq_iff_eq, beq_iff_eq] at hwas
              exact hwas.2
            refine iff_of_true ?_ (by simp [hstate])
            rw [if_pos hwas] at hcount
            have : (if activeFor taskId now.text (renew lease newExpiry) = true then 1 else 0)
                ≤ 1 := by
              split_ifs <;> omega
            omega
          · rw [if_neg hwas] at hcount
            by_cases hback : activeFor taskId now.text (renew lease newExpiry) = true
            · rw [if_pos hback] at hcount
              obtain ⟨htask, hwindow, hact⟩ := (activeFor_renew _ _ _ _).mp hback
              have hexpired := hact.resolve_left hwas
              constructor
              · intro hle _ _ _
                omega
              · intro hzero
                have := hzero htask hexpired hwindow
                omega
            · rw [if_neg hback] at hcount
              refine iff_of_true (by omega) fun htask hexpired hwindow => ?_
              exact absurd ((activeFor_renew _ _ _ _).mpr ⟨htask, hwindow, Or.inr hexpired⟩) hback
  | release index =>
      obtain rfl := Option.some.inj happly
      refine iff_of_true ?_ (by simp [RenewsInTurn])
      refine (countP_modify_le _ _ _ _ fun lease _ h => ?_).trans hone
      rw [activeFor_release] at h
      cases h
  | pass =>
      obtain rfl := Option.some.inj happly
      exact iff_of_true hone (by simp [RenewsInTurn])

/-- **One operation**: at most one lease stays active, unless it renews out of turn. -/
lemma perform_active {b b' : LeaseBook} {m : Stamp × LeaseOp} {taskId : String}
    (hone : OneActive taskId b) (hperform : b.perform m = some b') :
    OneActive taskId b' ↔ RenewsInTurn taskId b m := by
  rw [LeaseBook.perform] at hperform
  split_ifs at hperform with hback
  obtain ⟨leases', happly, rfl⟩ := Option.map_eq_some_iff.mp hperform
  have hle : b.now ≤ m.1.text := Std.not_lt.mp hback
  exact apply_active rfl ((countP_later b.leases hle).trans hone) happly

/-! ### Main results -/

/-- **Lease mutual exclusion, exactly.**  Along a run that begins with no lease, at most one lease
of a task is active at every time if and only if no renewal brings an expired lease of the task back
while another one is active. -/
theorem lease_exclusion_iff (taskId start : String) (moves : List (LeaseBook × Stamp × LeaseOp))
    (b : LeaseBook) (hrun : LeaseRun ⟨[], start⟩ moves b) :
    ((∀ m ∈ moves, OneActive taskId m.1) ∧ OneActive taskId b) ↔
      ∀ m ∈ moves, RenewsInTurn taskId m.1 m.2 :=
  Plays.safe_iff hrun (by simp [OneActive]) fun _ _ _ hone hperform => perform_active hone hperform

end Runtime

section Example

attribute [local instance] cpython

/-- A quarter of an hour past ten. -/
private def quarterPast : Stamp := ⟨"2026-05-24T10:15:00Z", by decide⟩

/-- Half past ten. -/
private def halfPast : Stamp := ⟨"2026-05-24T10:30:00Z", by decide⟩

/-- Eleven o'clock. -/
private def eleven : Stamp := ⟨"2026-05-24T11:00:00Z", by decide⟩

/-- A lease of `T1` expires, a second one is acquired and the first is renewed. -/
private def renewedLate : List (Stamp × LeaseOp) :=
  [(quarterPast, .acquire "L1" "T1" "claude" (some quarterPast)),
    (halfPast, .acquire "L2" "T1" "claude" none), (halfPast, .renew 0 eleven)]

/-- A lease that is renewed before it expires keeps the others out. -/
theorem lease_exclusion_renewed :
    ∃ moves b, LeaseRun ⟨[], ""⟩ moves b ∧ b.leases.length = 1
      ∧ canAcquire b.leases "T1" halfPast.text = false
      ∧ ∀ m ∈ moves, RenewsInTurn "T1" m.1 m.2 := by
  obtain ⟨⟨moves, b⟩, hplay, hb⟩ : ∃ x, playAll LeaseBook.perform ⟨[], ""⟩
      [(quarterPast, .acquire "L1" "T1" "claude" (some quarterPast)),
        (quarterPast, .renew 0 eleven), (halfPast, .pass)] = some x
      ∧ decide (x.2.leases.length = 1 ∧ canAcquire x.2.leases "T1" halfPast.text = false
        ∧ (∀ m ∈ x.1, OneActive "T1" m.1) ∧ OneActive "T1" x.2) = true := by
    refine (Option.any_eq_true _ _).mp ?_
    decide +kernel
  obtain ⟨hlen, hkept, hone⟩ := of_decide_eq_true hb
  have hrun : LeaseRun ⟨[], ""⟩ moves b := Plays.start.playAll hplay
  exact ⟨moves, b, hrun, hlen, hkept, (lease_exclusion_iff "T1" "" moves b hrun).mp hone⟩

/-- **An expired lease that is renewed after a second one was acquired**: both are active. -/
theorem lease_renewed_late : ∃ moves b, LeaseRun ⟨[], ""⟩ moves b ∧ ¬ OneActive "T1" b := by
  obtain ⟨⟨moves, b⟩, hplay, hb⟩ : ∃ x, playAll LeaseBook.perform ⟨[], ""⟩ renewedLate = some x
      ∧ decide (¬ OneActive "T1" x.2) = true := by
    refine (Option.any_eq_true _ _).mp ?_
    decide +kernel
  exact ⟨moves, b, Plays.start.playAll hplay, of_decide_eq_true hb⟩

end Example

end IplanRunner
