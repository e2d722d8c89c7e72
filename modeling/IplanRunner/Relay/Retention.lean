import IplanRunner.Relay.Outbox

/-!
What the outbox forgets (`relay/store.py`), over any history of calls at any readings of the clock.

* `delivery_step`, `task_step`: what a call can do to a row, said once for all calls.
* `OutboxPast`: the histories of a new database; `Stamped`: every row carries the text of a moment.
* `Sweeps`: a sweep deletes the settled rows from before its cutoff, as moments; `OnlyOwn`: a call
  changes its own row.
* `latestDeadLetter`: what the last `dead_letter` of a key has recorded; `outbox_retention`: the
  law.
-/

namespace IplanRunner

open Foundation

/-! ### One call -/

/-- The row of `delivery` a call is about. -/
def OutboxOp.deliveryKey : OutboxOp → Option (String × String)
  | .markSettled ledgerId key => some (ledgerId, key)
  | .deadLetter ledgerId e _ => some (ledgerId, e.key)
  | _ => none

/-- The row of `accepted_task` a call is about. -/
def OutboxOp.taskKey : OutboxOp → Option TaskKey
  | .acceptTask key => some key
  | .claimTask key => some key
  | .settleTask key _ => some key
  | _ => none

/-- The call is a sweep. -/
def OutboxOp.IsSweep (op : OutboxOp) : Prop := ∃ maxAgeS, op = .pruneSettled maxAgeS

variable {env : Option String} {now : UtcTime} {op : OutboxOp} {T T' : RelayTables}

/-- What a call does to a row of `delivery`: nothing, or it writes it, or a sweep deletes it. -/
lemma delivery_step (h : Performs env now op T T') (k : String × String) :
    T'.delivery.lookup k = T.delivery.lookup k
      ∨ (op.deliveryKey = some k
        ∧ ∃ row, T'.delivery.lookup k = some row ∧ row.updatedAt = now.isoformat)
      ∨ (op.IsSweep ∧ T'.delivery.lookup k = none) := by
  cases op with
  | markSettled ledgerId key =>
      subst h
      rw [RelayTables.markSettled, Table.lookup_insertIgnore]
      by_cases hk : k = (ledgerId, key)
      · rw [if_pos hk, ← hk]
        cases T.delivery.lookup k with
        | none => exact Or.inr (Or.inl ⟨by rw [hk]; rfl, _, rfl, rfl⟩)
        | some row => exact Or.inl rfl
      · exact Or.inl (if_neg hk)
  | deadLetter ledgerId e reason =>
      rcases h with ⟨-, rfl⟩ | ⟨-, rfl⟩
      · rw [RelayTables.deadLetter, Table.lookup_insertReplace, e.eventKey_eq]
        by_cases hk : k = (ledgerId, e.key)
        · rw [if_pos hk]
          exact Or.inr (Or.inl ⟨by rw [hk]; rfl, _, rfl, rfl⟩)
        · exact Or.inl (if_neg hk)
      · exact Or.inl rfl
  | acceptTask key =>
      subst h
      rw [RelayTables.acceptTask]
      split_ifs
      · exact Or.inl rfl
      · exact Or.inl rfl
      · exact Or.inl rfl
  | claimTask key =>
      subst h
      exact Or.inl rfl
  | settleTask key ok =>
      subst h
      exact Or.inl rfl
  | pruneSettled maxAgeS =>
      rcases h with ⟨cutoff, -, rfl⟩ | ⟨-, rfl⟩
      · rw [RelayTables.pruneSettled, Table.lookup_deleteWhere]
        cases T.delivery.lookup k with
        | none => exact Or.inl rfl
        | some row =>
            rw [Option.filter_some]
            split_ifs
            · exact Or.inl rfl
            · exact Or.inr (Or.inr ⟨⟨maxAgeS, rfl⟩, rfl⟩)
      · exact Or.inl rfl

/-- What a call does to a row of `accepted_task`. -/
lemma task_step (h : Performs env now op T T') (k : TaskKey) :
    T'.acceptedTask.lookup k = T.acceptedTask.lookup k
      ∨ (op.taskKey = some k
        ∧ ∃ row, T'.acceptedTask.lookup k = some row ∧ row.updatedAt = now.isoformat)
      ∨ (op.IsSweep ∧ T'.acceptedTask.lookup k = none) := by
  cases op with
  | markSettled ledgerId key =>
      subst h
      exact Or.inl rfl
  | deadLetter ledgerId e reason =>
      rcases h with ⟨-, rfl⟩ | ⟨-, rfl⟩
      · exact Or.inl rfl
      · exact Or.inl rfl
  | acceptTask key =>
      subst h
      have hrow : (T.acceptTask key now.isoformat).2.acceptedTask
          = T.acceptedTask.insertIgnore key ⟨.accepted, now.isoformat⟩ := by
        rw [RelayTables.acceptTask]
        split_ifs
        · rfl
        · rfl
        · rfl
      rw [hrow, Table.lookup_insertIgnore]
      by_cases hk : k = key
      · rw [if_pos hk, ← hk]
        cases T.acceptedTask.lookup k with
        | none => exact Or.inr (Or.inl ⟨by rw [hk]; rfl, _, rfl, rfl⟩)
        | some row => exact Or.inl rfl
      · exact Or.inl (if_neg hk)
  | claimTask key =>
      subst h
      rw [RelayTables.claimTask, Table.lookup_update]
      by_cases hk : k = key
      · rw [if_pos hk, ← hk]
        cases T.acceptedTask.lookup k with
        | none => exact Or.inl rfl
        | some row =>
            rw [Option.map_some]
            split_ifs
            · exact Or.inr (Or.inl ⟨by rw [hk]; rfl, _, rfl, rfl⟩)
            · exact Or.inl rfl
      · exact Or.inl (if_neg hk)
  | settleTask key ok =>
      subst h
      rw [RelayTables.settleTask, Table.lookup_update]
      by_cases hk : k = key
      · rw [if_pos hk, ← hk]
        cases T.acceptedTask.lookup k with
        | none => exact Or.inl rfl
        | some row => exact Or.inr (Or.inl ⟨by rw [hk]; rfl, _, rfl, rfl⟩)
      · exact Or.inl (if_neg hk)
  | pruneSettled maxAgeS =>
      rcases h with ⟨cutoff, -, rfl⟩ | ⟨-, rfl⟩
      · rw [RelayTables.pruneSettled, Table.lookup_deleteWhere]
        cases T.acceptedTask.lookup k with
        | none => exact Or.inl rfl
        | some row =>
            rw [Option.filter_some]
            split_ifs
            · exact Or.inl rfl
            · exact Or.inr (Or.inr ⟨⟨maxAgeS, rfl⟩, rfl⟩)
      · exact Or.inl rfl

/-- The identities are not touched. -/
lemma identity_step (h : Performs env now op T T') : T'.identity = T.identity := by
  cases op with
  | acceptTask key =>
      subst h
      rw [RelayTables.acceptTask]
      split_ifs
      · rfl
      · rfl
      · rfl
  | deadLetter ledgerId e reason =>
      rcases h with ⟨-, rfl⟩ | ⟨-, rfl⟩
      · rfl
      · rfl
  | pruneSettled maxAgeS =>
      rcases h with ⟨cutoff, -, rfl⟩ | ⟨-, rfl⟩
      · rfl
      · rfl
  | _ =>
      subst h
      rfl

/-- **A call changes its own row**: no other row, unless it is a sweep, and what it writes carries
its reading of the clock. -/
structure OnlyOwn (now : UtcTime) (op : OutboxOp) (T T' : RelayTables) : Prop where
  identity : T'.identity = T.identity
  delivery : ¬ op.IsSweep → ∀ k, op.deliveryKey ≠ some k →
    T'.delivery.lookup k = T.delivery.lookup k
  task : ¬ op.IsSweep → ∀ k, op.taskKey ≠ some k →
    T'.acceptedTask.lookup k = T.acceptedTask.lookup k
  deliveryAt : ∀ k row, T'.delivery.lookup k = some row →
    T.delivery.lookup k = some row ∨ row.updatedAt = now.isoformat
  taskAt : ∀ k row, T'.acceptedTask.lookup k = some row →
    T.acceptedTask.lookup k = some row ∨ row.updatedAt = now.isoformat

lemma onlyOwn (h : Performs env now op T T') : OnlyOwn now op T T' := by
  refine ⟨identity_step h, fun hsweep k hk => ?_, fun hsweep k hk => ?_, fun k row hrow => ?_,
    fun k row hrow => ?_⟩
  · rcases delivery_step h k with hsame | ⟨hkey, -⟩ | ⟨hsweep', -⟩
    · exact hsame
    · exact absurd hkey hk
    · exact absurd hsweep' hsweep
  · rcases task_step h k with hsame | ⟨hkey, -⟩ | ⟨hsweep', -⟩
    · exact hsame
    · exact absurd hkey hk
    · exact absurd hsweep' hsweep
  · rcases delivery_step h k with hsame | ⟨-, row', hrow', hat⟩ | ⟨-, hnone⟩
    · exact Or.inl (hsame.symm.trans hrow)
    · cases hrow'.symm.trans hrow
      exact Or.inr hat
    · cases hnone.symm.trans hrow
  · rcases task_step h k with hsame | ⟨-, row', hrow', hat⟩ | ⟨-, hnone⟩
    · exact Or.inl (hsame.symm.trans hrow)
    · cases hrow'.symm.trans hrow
      exact Or.inr hat
    · cases hnone.symm.trans hrow

/-! ### Histories -/

/-- What a call records as the dead letter of a key. -/
def OutboxOp.records (ledgerId key : String) : OutboxOp → Option (Dict × Option String)
  | .deadLetter l e reason =>
      if l = ledgerId ∧ e.key = key ∧ holdsStamp (.dict e.event) = false then
        some (e.event, some reason)
      else none
  | _ => none

/-- What the last `dead_letter` of a key has recorded. -/
def latestDeadLetter (past : List (OutboxOp × UtcTime)) (ledgerId key : String) :
    Option (Dict × Option String) :=
  past.reverse.findSome? fun x => x.1.records ledgerId key

/-- The tables that a history of calls, each at a reading of the clock, makes of new ones. -/
inductive OutboxPast (env : Option String) : List (OutboxOp × UtcTime) → RelayTables → Prop
  | start : OutboxPast env [] .empty
  | step {past : List (OutboxOp × UtcTime)} {now : UtcTime} {op : OutboxOp} {T T' : RelayTables} :
      OutboxPast env past T → Performs env now op T T' → OutboxPast env (past ++ [(op, now)]) T'

/-- Every row carries the text of a moment. -/
structure Stamped (T : RelayTables) : Prop where
  delivery : ∀ k row, T.delivery.lookup k = some row →
    ∃ at' : UtcTime, row.updatedAt = at'.isoformat
  task : ∀ k row, T.acceptedTask.lookup k = some row →
    ∃ at' : UtcTime, row.updatedAt = at'.isoformat

variable {past : List (OutboxOp × UtcTime)}

lemma OutboxPast.stamped (h : OutboxPast env past T) : Stamped T := by
  induction h with
  | start =>
      refine ⟨fun k row hrow => ?_, fun k row hrow => ?_⟩
      · cases hrow
      · cases hrow
  | step hpast hop ih =>
      refine ⟨fun k row hrow => ?_, fun k row hrow => ?_⟩
      · rcases (onlyOwn hop).deliveryAt k row hrow with hold | hnew
        · exact ih.delivery k row hold
        · exact ⟨_, hnew⟩
      · rcases (onlyOwn hop).taskAt k row hrow with hold | hnew
        · exact ih.task k row hold
        · exact ⟨_, hnew⟩

/-! ### Sweeps -/

/-- **A sweep deletes the settled rows from before its cutoff**, as moments, and keeps every other
row; one whose cutoff the calendar does not have does nothing. -/
structure Sweeps (seconds : ℤ) (now : UtcTime) (T T' : RelayTables) : Prop where
  delivery : ∀ cutoff : UtcTime, cutoff.SecondsBefore now seconds → ∀ k row, ∀ at' : UtcTime,
    T.delivery.lookup k = some row → row.updatedAt = at'.isoformat →
      T'.delivery.lookup k
        = if row.status = .delivered ∧ at'.micros < cutoff.micros then none else some row
  task : ∀ cutoff : UtcTime, cutoff.SecondsBefore now seconds → ∀ k row, ∀ at' : UtcTime,
    T.acceptedTask.lookup k = some row → row.updatedAt = at'.isoformat →
      T'.acceptedTask.lookup k
        = if (row.status = .done ∨ row.status = .failed) ∧ at'.micros < cutoff.micros then none
          else some row
  absent : (∀ k, T.delivery.lookup k = none → T'.delivery.lookup k = none)
    ∧ ∀ k, T.acceptedTask.lookup k = none → T'.acceptedTask.lookup k = none
  raises : (¬ ∃ cutoff : UtcTime, cutoff.SecondsBefore now seconds) → T' = T

lemma DeliveryRow.stale_isoformat {row : DeliveryRow} {at' cutoff : UtcTime}
    (h : row.updatedAt = at'.isoformat) : row.stale cutoff.isoformat = true
      ↔ row.status = .delivered ∧ at'.micros < cutoff.micros := by
  rw [DeliveryRow.stale, Bool.and_eq_true, decide_eq_true_eq, decide_eq_true_eq, h,
    UtcTime.isoformat_lt_iff]

lemma AcceptRow.stale_isoformat {row : AcceptRow} {at' cutoff : UtcTime}
    (h : row.updatedAt = at'.isoformat) : row.stale cutoff.isoformat = true
      ↔ (row.status = .done ∨ row.status = .failed) ∧ at'.micros < cutoff.micros := by
  rw [AcceptRow.stale, Bool.and_eq_true, Bool.or_eq_true, decide_eq_true_eq, decide_eq_true_eq,
    decide_eq_true_eq, h, UtcTime.isoformat_lt_iff]

/-- Moments that lie as far before one moment are equal as numbers. -/
lemma secondsBefore_unique {c c' : UtcTime} {seconds : ℤ} (h : c.SecondsBefore now seconds)
    (h' : c'.SecondsBefore now seconds) : c.micros = c'.micros := by
  have heq : (c.micros : ℤ) = c'.micros := h.trans h'.symm
  omega

lemma sweeps {maxAgeS : Option ℤ} (h : Performs env now (.pruneSettled maxAgeS) T T') :
    Sweeps (retentionWindow env maxAgeS) now T T' := by
  rcases h with ⟨cutoff, hcutoff, rfl⟩ | ⟨hnone, rfl⟩
  · refine ⟨fun c hc k row at' hrow hat => ?_, fun c hc k row at' hrow hat => ?_, ⟨?_, ?_⟩, ?_⟩
    · rw [secondsBefore_unique hc hcutoff]
      exact Table.lookup_deleteWhere_of_some hrow (DeliveryRow.stale_isoformat hat)
    · rw [secondsBefore_unique hc hcutoff]
      exact Table.lookup_deleteWhere_of_some hrow (AcceptRow.stale_isoformat hat)
    · exact fun k hk => Table.lookup_deleteWhere_of_none hk
    · exact fun k hk => Table.lookup_deleteWhere_of_none hk
    · exact fun hnone => absurd ⟨cutoff, hcutoff⟩ hnone
  · exact ⟨fun c hc => absurd ⟨c, hc⟩ hnone, fun c hc => absurd ⟨c, hc⟩ hnone,
      ⟨fun k hk => hk, fun k hk => hk⟩, fun _ => rfl⟩

/-! ### Dead letters -/

/-- A call leaves the dead letter of a key as it is, unless it records one. -/
lemma deadLettered_step (h : Performs env now op T T') (ledgerId key : String) :
    (T'.delivery.lookup (ledgerId, key)).bind (·.deadLettered)
      = (op.records ledgerId key).or
        ((T.delivery.lookup (ledgerId, key)).bind (·.deadLettered)) := by
  cases op with
  | markSettled l k =>
      subst h
      rw [RelayTables.markSettled, Table.lookup_insertIgnore]
      by_cases hk : (ledgerId, key) = (l, k)
      · rw [if_pos hk, ← hk]
        cases T.delivery.lookup (ledgerId, key) with
        | none => rfl
        | some row => rfl
      · rw [if_neg hk]
        rfl
  | deadLetter l e reason =>
      rcases h with ⟨hdumps, rfl⟩ | ⟨hdumps, rfl⟩
      · rw [RelayTables.deadLetter, Table.lookup_insertReplace, e.eventKey_eq, OutboxOp.records]
        by_cases hk : (ledgerId, key) = (l, e.key)
        · rw [if_pos hk]
          cases hk
          rw [if_pos ⟨rfl, rfl, hdumps⟩]
          rfl
        · rw [if_neg hk, if_neg fun hsame => hk (by rw [hsame.1, hsame.2.1])]
          rfl
      · rw [OutboxOp.records, if_neg fun hsame => hdumps hsame.2.2]
        rfl
  | pruneSettled maxAgeS =>
      rcases h with ⟨cutoff, -, rfl⟩ | ⟨-, rfl⟩
      · rw [RelayTables.pruneSettled, Table.lookup_deleteWhere]
        cases T.delivery.lookup (ledgerId, key) with
        | none => rfl
        | some row =>
            rw [Option.filter_some]
            split_ifs with hkept
            · rfl
            · -- Only a delivered row is stale, and it is no dead letter.
              have hdelivered : row.status = .delivered := by
                rw [DeliveryRow.stale] at hkept
                simp_all
              rw [Option.bind_some, Option.bind_none, DeliveryRow.deadLettered, hdelivered]
              rfl
      · rfl
  | acceptTask k =>
      subst h
      rw [RelayTables.acceptTask]
      split_ifs
      · rfl
      · rfl
      · rfl
  | claimTask k =>
      subst h
      rfl
  | settleTask k ok =>
      subst h
      rfl

/-- The dead letter of a key is what its last `dead_letter` has recorded. -/
lemma OutboxPast.deadLettered (h : OutboxPast env past T) (ledgerId key : String) :
    (T.delivery.lookup (ledgerId, key)).bind (·.deadLettered)
      = latestDeadLetter past ledgerId key := by
  induction h with
  | start => rfl
  | step hpast hop ih =>
      rw [deadLettered_step hop, ih, latestDeadLetter, latestDeadLetter, List.reverse_append,
        List.reverse_singleton, List.singleton_append, List.findSome?_cons]
      cases OutboxOp.records ledgerId key _ with
      | none => rfl
      | some x => rfl

/-- **A dead-lettered key stays**: it is settled, and listed with what its last `dead_letter` has
recorded; nothing else is listed. -/
structure KeepsDeadLetters (past : List (OutboxOp × UtcTime)) (T : RelayTables)
    (ledgerId : String) :
    Prop where
  settled : ∀ key, (∃ x ∈ past, x.1.records ledgerId key ≠ none) → key ∈ T.loadSettled ledgerId
  listed : ∀ key, (∃ x ∈ past, x.1.records ledgerId key ≠ none) →
    ∃ letter ∈ T.loadDeadLetter ledgerId, latestDeadLetter past ledgerId key = some letter
  only : ∀ letter ∈ T.loadDeadLetter ledgerId,
    ∃ key, latestDeadLetter past ledgerId key = some letter

lemma exists_latest {ledgerId key : String} (h : ∃ x ∈ past, x.1.records ledgerId key ≠ none) :
    ∃ letter, latestDeadLetter past ledgerId key = some letter := by
  obtain ⟨x, hx, hrecords⟩ := h
  rw [← Option.isSome_iff_exists, latestDeadLetter, List.findSome?_isSome_iff]
  exact ⟨x, List.mem_reverse.mpr hx, Option.isSome_iff_ne_none.mpr hrecords⟩

lemma OutboxPast.keepsDeadLetters (h : OutboxPast env past T) (ledgerId : String) :
    KeepsDeadLetters past T ledgerId := by
  refine ⟨fun key hkey => ?_, fun key hkey => ?_, fun letter hletter => ?_⟩
  · obtain ⟨letter, hletter⟩ := exists_latest hkey
    rw [← h.deadLettered] at hletter
    obtain ⟨row, hrow, -⟩ := Option.bind_eq_some_iff.mp hletter
    rw [RelayTables.mem_loadSettled, loadSettled, Option.isSome_iff_exists]
    exact ⟨row, hrow⟩
  · obtain ⟨letter, hletter⟩ := exists_latest hkey
    refine ⟨letter, T.mem_loadDeadLetter.mpr ⟨key, ?_⟩, hletter⟩
    rw [h.deadLettered, hletter]
  · obtain ⟨key, hkey⟩ := T.mem_loadDeadLetter.mp hletter
    exact ⟨key, h.deadLettered ledgerId key ▸ hkey⟩

/-! ### The law -/

/-- **The outbox forgets only what it may**: in every state a history of calls leads to, every row
carries the text of a moment, a sweep deletes exactly the settled rows from before its cutoff, the
dead letters are the last ones recorded, and a call changes no row but its own. -/
theorem outbox_retention (h : OutboxPast env past T) :
    Stamped T
      ∧ (∀ maxAgeS now T', Performs env now (.pruneSettled maxAgeS) T T' →
        Sweeps (retentionWindow env maxAgeS) now T T')
      ∧ (∀ ledgerId, KeepsDeadLetters past T ledgerId)
      ∧ ∀ now op T', Performs env now op T T' → OnlyOwn now op T T' :=
  ⟨h.stamped, fun _ _ _ hop => sweeps hop, h.keepsDeadLetters, fun _ _ _ hop => onlyOwn hop⟩

/-! ### A key given up twice -/

/-- Midnight. -/
def midnight : UtcTime :=
  ⟨2026, 6, 26, 0, 0, 0,
    0, by decide, by decide, by decide, by decide, by decide, by decide, by decide⟩

/-- A second later. -/
def secondPast : UtcTime :=
  ⟨2026, 6, 26, 0, 0, 1,
    0, by decide, by decide, by decide, by decide, by decide, by decide, by decide⟩

example : secondPast.isoformat = "2026-06-26T00:00:01+00:00" := by decide

/-- An event with a key and nothing else. -/
def bareEvent : KeyedEvent := ⟨[("idempotency_key", .str "k1")], "k1", rfl⟩

/-- The tables after the event has been given up twice. -/
def givenUpTwice : RelayTables :=
  (RelayTables.empty.deadLetter "L" bareEvent.event "first" midnight.isoformat).deadLetter "L"
    bareEvent.event "second" midnight.isoformat

/-- The calls that do so. -/
def givingUp : List (OutboxOp × UtcTime) :=
  [(.deadLetter "L" bareEvent "first", midnight), (.deadLetter "L" bareEvent "second", midnight)]

lemma givenUpTwice_past : OutboxPast none givingUp givenUpTwice := by
  have hfirst : OutboxPast none [(.deadLetter "L" bareEvent "first", midnight)]
      (RelayTables.empty.deadLetter "L" bareEvent.event "first" midnight.isoformat) :=
    @OutboxPast.step none [] midnight _ _ _ .start (Or.inl ⟨rfl, rfl⟩)
  exact hfirst.step (Or.inl ⟨rfl, rfl⟩)

/-- The key is marked, and a sweep with a cutoff in the future follows: the second reason is
listed. -/
theorem outbox_keeps_second : ∃ T, OutboxPast none (givingUp ++ [(.markSettled "L" "k1", midnight)]
      ++ [(.pruneSettled (some (-1)), midnight)]) T
    ∧ "k1" ∈ T.loadSettled "L" ∧ (bareEvent.event, some "second") ∈ T.loadDeadLetter "L" := by
  have hmarked : OutboxPast none (givingUp ++ [(.markSettled "L" "k1", midnight)])
      (givenUpTwice.markSettled "L" "k1" midnight.isoformat) := givenUpTwice_past.step rfl
  have hcutoff : secondPast.SecondsBefore midnight (retentionWindow none (some (-1))) := by
    rw [UtcTime.SecondsBefore]
    decide +kernel
  have hswept : OutboxPast none (givingUp ++ [(.markSettled "L" "k1", midnight)]
      ++ [(.pruneSettled (some (-1)), midnight)])
      ((givenUpTwice.markSettled "L" "k1" midnight.isoformat).pruneSettled
        secondPast.isoformat).2 :=
    hmarked.step (Or.inl ⟨secondPast, hcutoff, rfl⟩)
  obtain ⟨-, -, hkeeps, -⟩ := outbox_retention hswept
  have hrecords : ∃ x ∈ givingUp ++ [(.markSettled "L" "k1", midnight)]
      ++ [(.pruneSettled (some (-1)), midnight)], x.1.records "L" "k1" ≠ none :=
    ⟨_, List.mem_cons_self, by decide⟩
  obtain ⟨letter, hletter, hlatest⟩ := (hkeeps "L").listed "k1" hrecords
  cases hlatest
  exact ⟨_, hswept, (hkeeps "L").settled "k1" hrecords, hletter⟩

/-- A second `dead_letter` of a key replaces the reason of the first. -/
theorem first_reason_lost : ¬ ∀ (env : Option String) (past : List (OutboxOp × UtcTime))
    (T : RelayTables) (ledgerId : String) (e : KeyedEvent) (reason : String) (now : UtcTime),
    OutboxPast env past T → (.deadLetter ledgerId e reason, now) ∈ past → e.Dumps →
      (e.event, some reason) ∈ T.loadDeadLetter ledgerId := by
  intro hall
  have hfirst :=
    hall none _ _ "L" bareEvent "first" midnight givenUpTwice_past List.mem_cons_self rfl
  have hlisted : givenUpTwice.loadDeadLetter "L" = [(bareEvent.event, some "second")] := by
    decide +kernel
  rw [hlisted] at hfirst
  simp at hfirst

end IplanRunner
