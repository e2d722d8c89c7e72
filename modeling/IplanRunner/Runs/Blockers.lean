import IplanRunner.Runs.Script

/-!
Blocked tasks and their blockers, over whole histories.

* `BlockedHeld`: every blocked task has an open blocker of its own.
* `OverrideSpares`: an override leaves the other blocked tasks theirs; `override_blockedHeld_iff`
  says that this is exactly when it keeps `BlockedHeld`.
* `allowed_completed`: in a history whose overrides all spare, `reconciliation.allowed` means that
  every task is completed.
* `allowed_not_completed`: a history in which an id is shared, and it does not.
-/

namespace IplanRunner

open Foundation

/-- Every blocked task has an open blocker. -/
def BlockedHeld (L : Ledger) : Prop :=
  ∀ e ∈ L.taskLedger, e.status = .blocked → ∃ b ∈ L.blockers, e.named b.taskId = true

/-- An override of `blockerId` resets the task of the first blocker with the id and drops all of
them: every other blocked task keeps an open blocker, one with another id. -/
def OverrideSpares (L : Ledger) (blockerId : String) : Prop :=
  ∀ b, L.blocker? blockerId = some b → ∀ e ∈ L.taskLedger, e.status = .blocked →
    e.named b.taskId = false → ∃ b' ∈ L.blockers, b'.blockerId ≠ blockerId
      ∧ e.named b'.taskId = true

instance (L : Ledger) (blockerId : String) : Decidable (OverrideSpares L blockerId) := by
  unfold OverrideSpares
  cases L.blocker? blockerId with
  | none => exact isTrue (by simp)
  | some b =>
      exact decidable_of_iff (∀ e ∈ L.taskLedger, e.status = .blocked →
        e.named b.taskId = false → ∃ b' ∈ L.blockers, b'.blockerId ≠ blockerId
          ∧ e.named b'.taskId = true) (by simp)

lemma blocker?_id {L : Ledger} {blockerId : String} {b : Blocker}
    (h : L.blocker? blockerId = some b) : b.blockerId = blockerId := by
  simpa using List.find?_some h

/-- **Exactly the sparing overrides** keep every blocked task held. -/
theorem override_blockedHeld_iff {L : Ledger} {blockerId : String} {b : Blocker}
    (hb : L.blocker? blockerId = some b) :
    BlockedHeld (L.override b) ↔ OverrideSpares L blockerId := by
  have hid := blocker?_id hb
  constructor
  · intro h b₁ hb₁ e he hst hnamed
    obtain rfl : b = b₁ := by rw [hb] at hb₁; exact Option.some.inj hb₁
    have hmem : e ∈ (L.override b).taskLedger :=
      List.mem_map.mpr ⟨e, he, by rw [if_neg (by simp [hnamed])]⟩
    obtain ⟨b', hb', hn⟩ := h e hmem hst
    obtain ⟨h1, h2⟩ := List.mem_filter.mp hb'
    exact ⟨b', h1, by simpa [hid] using h2, hn⟩
  · intro h e he hst
    obtain ⟨x, hx, rfl⟩ := List.mem_map.mp he
    by_cases hn : x.named b.taskId = true
    · simp [hn] at hst
    · rw [if_neg hn] at hst ⊢
      obtain ⟨b', hb', hne, hn'⟩ := h b hb x hx hst (by simpa using hn)
      exact ⟨b', List.mem_filter.mpr ⟨hb', by simpa [hid] using hne⟩, hn'⟩

section Runtime

variable [PyRuntime]

/-- A turn that leaves its task blocked leaves a blocker of it, or has left the entry as it was. -/
lemma Turn.blocks {W : Type} {h : Host W} {cfg : RunConfig} {node : TaskNode} {taskId : String}
    {completed : List String} {L : Ledger} {r : Except PyErr Unit} {δ : Delta} {fx : List Effect}
    (hturn : Turn h cfg node taskId completed L r δ fx) {e : TaskEntry}
    (hst : (δ.entry e).status = .blocked) :
    δ.entry e = e ∨ ∃ b ∈ δ.blockers, b.taskId = taskId := by
  cases hturn with
  | unmet _ => exact Or.inr ⟨_, List.mem_singleton_self _, rfl⟩
  | ran _ hrun =>
      cases hrun with
      | committed _ => exact Or.inl rfl
      | conflict _ _ => exact Or.inr ⟨_, List.mem_singleton_self _, rfl⟩
      | crashed _ _ _ _ => simp [crashDelta] at hst
      | succeeded _ _ _ _ _ _ _ => simp [successDelta, completeEntry] at hst
      | failed _ _ _ _ _ => exact Or.inr ⟨_, List.mem_singleton_self _, rfl⟩

/-- `reconciliation.allowed` tells the truth about the tasks, and leaves no blocker open. -/
def AllowedDone (L : Ledger) : Prop :=
  L.reconciliation.allowed = true → (∀ e ∈ L.taskLedger, e.status = .completed) ∧ L.blockers = []

omit [PyRuntime] in
lemma reconcile_allowed (L : Ledger) : (reconcile L).reconciliation.allowed = true
    ↔ (∀ e ∈ L.taskLedger, e.status ≠ .pending ∧ e.status ≠ .inProgress) ∧ L.blockers = [] := by
  simp [reconcile, List.countP_eq_zero, not_or]

omit [PyRuntime] in
/-- A reconciliation that allows completion, with every blocked task held, has nothing left. -/
lemma allowedDone_reconcile {L : Ledger} (hL : BlockedHeld L) : AllowedDone (reconcile L) := by
  intro hallowed
  obtain ⟨htasks, hnone⟩ := (reconcile_allowed L).mp hallowed
  refine ⟨fun e he => ?_, hnone⟩
  obtain ⟨h1, h2⟩ := htasks e he
  cases hst : e.status with
  | pending => exact absurd hst h1
  | inProgress => exact absurd hst h2
  | completed => rfl
  | blocked =>
      obtain ⟨b, hb, -⟩ := hL e he hst
      rw [hnone] at hb
      exact absurd hb (by simp)

lemma allowed_history : HistoryInvariant (fun _ => True) OverrideSpares
    (fun L => BlockedHeld L ∧ AllowedDone L) where
  start := by
    intro m L _ hstart
    refine ⟨fun e he hst => ?_, fun hallowed => ?_⟩
    · rw [(startLedger_entries hstart).1 e he] at hst
      exact absurd hst (by simp)
    · obtain ⟨-, -, -, -, -, -, hfalse⟩ := startLedger_empty hstart
      rw [hfalse] at hallowed
      exact absurd hallowed (by simp)
  turn := by
    intro W h cfg m node taskId completed L r δ fx _ _ hsome hdone _ hturn hI
    obtain ⟨hheld, hallowed⟩ := hI
    refine ⟨fun e he hst => ?_, fun hall => ?_⟩
    · rw [Ledger.apply_blockers]
      have hold : ∀ x ∈ L.taskLedger, x.status = .blocked →
          ∃ b ∈ L.blockers ++ δ.blockers, x.named b.taskId = true := by
        intro x hx hxs
        obtain ⟨b, hb, hn⟩ := hheld x hx hxs
        exact ⟨b, List.mem_append_left _ hb, hn⟩
      rcases mem_updateFirst he with h1 | ⟨x, hx, hxn, rfl⟩
      · exact hold e h1 hst
      · rcases hturn.blocks hst with h2 | ⟨b, hb, hbt⟩
        · rw [h2] at hst ⊢
          exact hold x hx hst
        · refine ⟨b, List.mem_append_right _ hb, ?_⟩
          rw [TaskEntry.named, hturn.entry_taskId, hbt]
          exact hxn
    · -- a ledger that is all completed has no task left to take up
      obtain ⟨entry, hentry⟩ := Option.isSome_iff_exists.mp hsome
      have hcomp := (hallowed hall).1 entry (List.mem_of_find?_eq_some hentry)
      exact absurd ⟨entry, hentry, hcomp⟩ hdone
  state := fun _ hI => hI
  reconcile := fun hI => ⟨hI.1, allowedDone_reconcile hI.1⟩
  override := by
    intro L blockerId b hb hspares hI
    refine ⟨(override_blockedHeld_iff hb).mpr hspares, fun hall => ?_⟩
    have hnone := (hI.2 hall).2
    rw [Ledger.blocker?, hnone] at hb
    exact absurd hb (by simp)
  record := fun _ _ hI => hI

/-- **Reconciliation is sound over the histories whose overrides all spare**: where it allows
completion every task is completed, and no task is ever blocked without an open blocker. -/
theorem allowed_completed {L : Ledger} (hL : Reached (fun _ => True) OverrideSpares L) :
    (L.reconciliation.allowed = true → ∀ e ∈ L.taskLedger, e.status = .completed)
      ∧ ∀ e ∈ L.taskLedger, e.status = .blocked → ∃ b ∈ L.blockers, e.named b.taskId = true := by
  obtain ⟨hheld, hallowed⟩ := hL.invariant allowed_history
  exact ⟨fun h => (hallowed h).1, hheld⟩

end Runtime

section Example

attribute [local instance] cpython

/-- A task that failed in the run and again in a resume, under two ids that no other task has. -/
theorem allowed_completed_after_retries :
    ∃ L, playRun (fun L i => decide (OverrideSpares L i)) (scriptManifest [("T1", []), ("T2", [])])
        [("T1", .always mockFailure)] []
        [.decide "B1" "override", .resume [("T1", .always mockFailure)] [],
          .decide "B1" "override", .resume [] []] = some L
      ∧ L.reconciliation.allowed = true ∧ ∀ e ∈ L.taskLedger, e.status = .completed := by
  obtain ⟨L, hL, hall⟩ : ∃ L, playRun (fun L i => decide (OverrideSpares L i))
      (scriptManifest [("T1", []), ("T2", [])]) [("T1", .always mockFailure)] []
      [.decide "B1" "override", .resume [("T1", .always mockFailure)] [],
        .decide "B1" "override", .resume [] []] = some L
      ∧ L.reconciliation.allowed = true := by
    refine (Option.any_eq_true _ _).mp ?_
    decide +kernel
  have hreached : Reached (fun _ => True) (fun L i => decide (OverrideSpares L i) = true) L :=
    playRun_reached trivial (scriptManifest_roots _) hL
  refine ⟨L, hL, hall, (allowed_completed (hreached.mono (fun _ _ => trivial) fun L i h => ?_)).1
    hall⟩
  exact of_decide_eq_true h

/-- **Ids restart in every process, so two tasks can share one.**  `T1` is blocked in the run as
`B2` and in the resume as `B1`, where `T2` gets `B2`: the override of `B2` resets `T1` and takes the
blocker of `T2` with it.  The last resume stops before `T2`, and allows completion. -/
theorem allowed_not_completed :
    ∃ L, Reached (fun _ => True) (fun _ _ => True) L ∧ L.reconciliation.allowed = true
      ∧ L.blockers = []
      ∧ L.taskLedger.map (fun e => (e.taskId, e.status))
        = [(.str "T0", .completed), (.str "T1", .completed), (.str "T2", .blocked)] := by
  obtain ⟨L, hL, hview⟩ : ∃ L, playRun (fun _ _ => true)
      (scriptManifest [("T0", []), ("T1", []), ("T2", [])])
      [("T0", .always mockFailure), ("T1", .always mockFailure)] [.running, .running, .paused]
      [.decide "B1" "override",
        .resume [("T1", .always mockFailure), ("T2", .always mockFailure)] [],
        .decide "B2" "override", .decide "B1" "override", .resume [] [.running, .paused]] = some L
      ∧ decide (L.reconciliation.allowed = true ∧ L.blockers = []
        ∧ L.taskLedger.map (fun e => (e.taskId, e.status))
          = [(.str "T0", .completed), (.str "T1", .completed), (.str "T2", .blocked)]) = true := by
    refine (Option.any_eq_true _ _).mp ?_
    decide +kernel
  have hreached : Reached (fun _ => True) (fun _ _ => true = true) L :=
    playRun_reached trivial (scriptManifest_roots _) hL
  exact ⟨L, hreached.mono (fun _ _ => trivial) fun _ _ _ => trivial, of_decide_eq_true hview⟩

end Example

end IplanRunner
