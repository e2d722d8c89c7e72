import IplanRunner.Foundation.Table
import IplanRunner.Foundation.UtcTime
import IplanRunner.Relay.Calls

/-!
The tables of the relay's database, row by row (`relay/store.py`).

* `RelayTables`: the three tables, their rows in the order of `rowid`; each function of the module
  as its SQL statements.
* `view`: the tables by their primary keys, as `RelayDb` has them; one lemma for each function says
  that the two do the same.
* `OutboxOp`, `Performs`: a call at a reading of the clock; `performs_effect`: it does to the
  view what the calls of the relay do.
-/

namespace IplanRunner

open Foundation

/-! ### The tables -/

/-- `relay.db`, with its rows. -/
structure RelayTables where
  delivery : Table (String × String) DeliveryRow
  identity : Table String Dict
  acceptedTask : Table TaskKey AcceptRow

/-- What `load_dead_letter` makes of a row. -/
def DeliveryRow.deadLettered (row : DeliveryRow) : Option (Dict × Option String) :=
  if row.status = .deadLettered then row.event.map fun event => (event, row.reason) else none

namespace RelayTables

/-- A database that has just been made. -/
def empty : RelayTables := ⟨∅, ∅, ∅⟩

/-- `load_settled`. -/
def loadSettled (T : RelayTables) (ledgerId : String) : List String :=
  T.delivery.rows.filterMap fun r => if r.1.1 = ledgerId then some r.1.2 else none

/-- `load_dead_letter`. -/
def loadDeadLetter (T : RelayTables) (ledgerId : String) : List (Dict × Option String) :=
  T.delivery.rows.filterMap fun r => if r.1.1 = ledgerId then r.2.deadLettered else none

/-- `mark_settled`. -/
def markSettled (T : RelayTables) (ledgerId key now : String) : RelayTables :=
  { T with delivery := T.delivery.insertIgnore (ledgerId, key) ⟨.delivered, none, none, now⟩ }

/-- `dead_letter`. -/
def deadLetter (T : RelayTables) (ledgerId : String) (event : Dict) (reason now : String) :
    RelayTables :=
  { T with
    delivery := T.delivery.insertReplace (ledgerId, eventKey event)
      ⟨.deadLettered, some reason, some event, now⟩ }

/-- `accept_task`. -/
def acceptTask (T : RelayTables) (key : TaskKey) (now : String) : AcceptDecision × RelayTables :=
  let inserted := T.acceptedTask.insertIgnore key ⟨.accepted, now⟩
  if key ∉ T.acceptedTask then (.accept, { T with acceptedTask := inserted })
  else (if (T.acceptedTask.lookup key).map (·.status) = some .accepted then .accept else .replay,
    { T with acceptedTask := inserted })

/-- `claim_task`: a row past `accepted` is not updated. -/
def claimTask (T : RelayTables) (key : TaskKey) (now : String) : Bool × RelayTables :=
  (decide ((T.acceptedTask.lookup key).map (·.status) = some .accepted),
    { T with
      acceptedTask := T.acceptedTask.update key fun row =>
        if row.status = .accepted then ⟨.running, now⟩ else row })

/-- `settle_task`. -/
def settleTask (T : RelayTables) (key : TaskKey) (ok : Bool) (now : String) : RelayTables :=
  { T with
    acceptedTask := T.acceptedTask.update key fun _ => ⟨if ok then .done else .failed, now⟩ }

/-- `prune_settled`, with its cutoff: the counts of the deleted rows. -/
def pruneSettled (T : RelayTables) (cutoff : String) : (ℕ × ℕ) × RelayTables :=
  ((T.delivery.countWhere (·.stale cutoff), T.acceptedTask.countWhere (·.stale cutoff)),
    { T with
      delivery := T.delivery.deleteWhere (·.stale cutoff)
      acceptedTask := T.acceptedTask.deleteWhere (·.stale cutoff) })

/-! ### The tables by their keys -/

/-- The tables as functions of their primary keys. -/
def view (T : RelayTables) : RelayDb :=
  ⟨fun k => T.delivery.lookup k, fun k => T.identity.lookup k, fun k => T.acceptedTask.lookup k⟩

variable (T : RelayTables) {ledgerId key now : String}

lemma mem_loadSettled : key ∈ T.loadSettled ledgerId
    ↔ IplanRunner.loadSettled T.view ledgerId key = true := by
  rw [loadSettled, List.mem_filterMap, IplanRunner.loadSettled, Option.isSome_iff_exists]
  constructor
  · rintro ⟨⟨⟨l, k⟩, row⟩, hmem, heq⟩
    split_ifs at heq with hl
    cases heq
    cases hl
    exact ⟨row, Table.mem_rows_iff.mp hmem⟩
  · rintro ⟨row, hrow⟩
    exact ⟨((ledgerId, key), row), Table.mem_rows_iff.mpr hrow, if_pos rfl⟩

lemma mem_loadDeadLetter {x : Dict × Option String} : x ∈ T.loadDeadLetter ledgerId
    ↔ ∃ key, (T.delivery.lookup (ledgerId, key)).bind (·.deadLettered) = some x := by
  rw [loadDeadLetter, List.mem_filterMap]
  constructor
  · rintro ⟨⟨⟨l, k⟩, row⟩, hmem, heq⟩
    split_ifs at heq with hl
    cases hl
    exact ⟨k, Option.bind_eq_some_iff.mpr ⟨row, Table.mem_rows_iff.mp hmem, heq⟩⟩
  · rintro ⟨k, hk⟩
    obtain ⟨row, hrow, hx⟩ := Option.bind_eq_some_iff.mp hk
    exact ⟨((ledgerId, k), row), Table.mem_rows_iff.mpr hrow, (if_pos rfl).trans hx⟩

lemma view_markSettled : (T.markSettled ledgerId key now).view
    = IplanRunner.markSettled T.view ledgerId key now := by
  refine (RelayDb.mk.injEq ..).mpr ⟨funext fun k => ?_, rfl, rfl⟩
  exact Table.lookup_insertIgnore.trans (Function.update_apply T.view.delivery ..).symm

lemma view_deadLetter {event : Dict} {reason : String} :
    (T.deadLetter ledgerId event reason now).view
      = IplanRunner.deadLetter T.view ledgerId event reason now := by
  refine (RelayDb.mk.injEq ..).mpr ⟨funext fun k => ?_, rfl, rfl⟩
  exact Table.lookup_insertReplace.trans (Function.update_apply T.view.delivery ..).symm

lemma view_acceptTask {key : TaskKey} : ((T.acceptTask key now).1, (T.acceptTask key now).2.view)
    = IplanRunner.acceptTask T.view key now := by
  have hinserted : ∀ k, (T.acceptedTask.insertIgnore key ⟨.accepted, now⟩).lookup k
      = Function.update T.view.acceptedTask key
        (some ((T.acceptedTask.lookup key).getD ⟨.accepted, now⟩)) k :=
    fun k => Table.lookup_insertIgnore.trans (Function.update_apply T.view.acceptedTask ..).symm
  have hview : (T.acceptTask key now).2.view = { T.view with
      acceptedTask := Function.update T.view.acceptedTask key
        (some ((T.acceptedTask.lookup key).getD ⟨.accepted, now⟩)) } := by
    rw [acceptTask]
    split_ifs
    · exact (RelayDb.mk.injEq ..).mpr ⟨rfl, rfl, funext hinserted⟩
    · exact (RelayDb.mk.injEq ..).mpr ⟨rfl, rfl, funext hinserted⟩
    · exact (RelayDb.mk.injEq ..).mpr ⟨rfl, rfl, funext hinserted⟩
  rw [hview, IplanRunner.acceptTask, show T.view.acceptedTask key
    = T.acceptedTask.lookup key from rfl]
  cases hrow : T.acceptedTask.lookup key with
  | none =>
      rw [acceptTask, if_pos (AList.lookup_eq_none.mp hrow)]
      rfl
  | some row =>
      have hmem : key ∈ T.acceptedTask := AList.lookup_isSome.mp (by rw [hrow]; rfl)
      have hsame : Function.update T.view.acceptedTask key (some row) = T.view.acceptedTask :=
        Function.update_eq_self_iff.mpr hrow.symm
      rw [Option.getD_some, hsame, acceptTask, if_neg (not_not_intro hmem), hrow]
      simp

lemma view_claimTask {key : TaskKey} : ((T.claimTask key now).1, (T.claimTask key now).2.view)
    = IplanRunner.claimTask T.view key now := by
  have hview : (T.claimTask key now).2.view = { T.view with
      acceptedTask := Function.update T.view.acceptedTask key ((T.acceptedTask.lookup key).map
        fun row => if row.status = .accepted then ⟨.running, now⟩ else row) } :=
    (RelayDb.mk.injEq ..).mpr ⟨rfl, rfl, funext fun _ =>
      Table.lookup_update.trans (Function.update_apply T.view.acceptedTask ..).symm⟩
  rw [hview, IplanRunner.claimTask, claimTask,
    show T.view.acceptedTask key = T.acceptedTask.lookup key from rfl]
  cases hrow : T.acceptedTask.lookup key with
  | none =>
      have hsame : Function.update T.view.acceptedTask key none = T.view.acceptedTask :=
        Function.update_eq_self_iff.mpr hrow.symm
      simp [hsame]
  | some row =>
      by_cases hstatus : row.status = .accepted
      · simp [hstatus]
      · have hsame : Function.update T.view.acceptedTask key (some row) = T.view.acceptedTask :=
          Function.update_eq_self_iff.mpr hrow.symm
        simp [hstatus, hsame]

lemma view_settleTask {key : TaskKey} {ok : Bool} :
    (T.settleTask key ok now).view = IplanRunner.settleTask T.view key ok now := by
  refine (RelayDb.mk.injEq ..).mpr ⟨rfl, rfl, funext fun k => ?_⟩
  exact Table.lookup_update.trans (Function.update_apply T.view.acceptedTask ..).symm

lemma view_pruneSettled {cutoff : String} :
    (T.pruneSettled cutoff).2.view = IplanRunner.pruneSettled T.view cutoff := by
  refine (RelayDb.mk.injEq ..).mpr ⟨funext fun k => ?_, rfl, funext fun k => ?_⟩
  · exact Table.lookup_deleteWhere
  · exact Table.lookup_deleteWhere

end RelayTables

/-! ### Calls at a reading of the clock -/

/-- An event with a text for its key. -/
structure KeyedEvent where
  event : Dict
  key : String
  keyed : event.lookup "idempotency_key" = some (.str key)

lemma KeyedEvent.eventKey_eq (e : KeyedEvent) : eventKey e.event = e.key := by
  rw [eventKey, Dict.get, e.keyed]
  rfl

/-- `json.dumps(event)` returns: JSON has no form for a timestamp. -/
def KeyedEvent.Dumps (e : KeyedEvent) : Prop := holdsStamp (.dict e.event) = false

/-- A call of the outbox or of the task table. -/
inductive OutboxOp where
  | markSettled (ledgerId key : String)
  | deadLetter (ledgerId : String) (event : KeyedEvent) (reason : String)
  | acceptTask (key : TaskKey)
  | claimTask (key : TaskKey)
  | settleTask (key : TaskKey) (ok : Bool)
  | pruneSettled (maxAgeS : Option ℤ)

/-- `_DEFAULT_RETENTION_S`. -/
def defaultRetentionS : ℤ := 7 * 24 * 3600

/-- `_retention_window`, with what the environment holds for `IOPS_RELAY_RETENTION_S`. -/
def retentionWindow (env : Option String) (maxAgeS : Option ℤ) : ℤ :=
  match maxAgeS, env with
  | some seconds, _ => seconds
  | none, some raw => ((Val.str raw).pyInt.toOption).getD defaultRetentionS
  | none, none => defaultRetentionS

/-- A call at a reading of the clock.  A `dead_letter` whose event has no JSON text raises, and so
does a sweep whose cutoff the calendar does not have. -/
def Performs (env : Option String) (now : UtcTime) : OutboxOp → RelayTables → RelayTables → Prop
  | .markSettled ledgerId key, T, T' => T' = T.markSettled ledgerId key now.isoformat
  | .deadLetter ledgerId e reason, T, T' =>
      e.Dumps ∧ T' = T.deadLetter ledgerId e.event reason now.isoformat ∨ ¬ e.Dumps ∧ T' = T
  | .acceptTask key, T, T' => T' = (T.acceptTask key now.isoformat).2
  | .claimTask key, T, T' => T' = (T.claimTask key now.isoformat).2
  | .settleTask key ok, T, T' => T' = T.settleTask key ok now.isoformat
  | .pruneSettled maxAgeS, T, T' =>
      (∃ cutoff : UtcTime, cutoff.SecondsBefore now (retentionWindow env maxAgeS)
          ∧ T' = (T.pruneSettled cutoff.isoformat).2)
        ∨ (¬ ∃ cutoff : UtcTime, cutoff.SecondsBefore now (retentionWindow env maxAgeS)) ∧ T' = T

/-- The call of the relay. -/
def OutboxOp.call : OutboxOp → RelayOp
  | .markSettled ledgerId key => .markSettled ledgerId key
  | .deadLetter ledgerId e reason => .deadLetter ledgerId e.event reason
  | .acceptTask key => .acceptTask key
  | .claimTask key => .claimTask key
  | .settleTask key ok => .settleTask key ok
  | .pruneSettled maxAgeS => .pruneSettled maxAgeS

/-- The tables do what the calls of the relay do to the database. -/
theorem performs_effect [PyRuntime] {env : Option String} {now : UtcTime} {op : OutboxOp}
    {T T' : RelayTables} (h : Performs env now op T T') (ledgers : String →
      Option Val) (slots : ℕ) :
    ∃ out, op.call.effect ⟨T.view, ledgers, slots⟩ out ⟨T'.view, ledgers, slots⟩ [] := by
  cases op with
  | markSettled ledgerId key =>
      subst h
      exact ⟨.ok (), now.isoformat, by rw [T.view_markSettled], rfl⟩
  | deadLetter ledgerId e reason =>
      rcases h with ⟨-, rfl⟩ | ⟨-, rfl⟩
      · exact ⟨.ok (), now.isoformat, by rw [T.view_deadLetter], rfl⟩
      · exact ⟨.error (.exception .typeError), rfl, rfl, rfl⟩
  | acceptTask key =>
      subst h
      have hview := Prod.ext_iff.mp (@RelayTables.view_acceptTask T now.isoformat key)
      exact ⟨.ok _, now.isoformat, hview.1, by rw [← hview.2], rfl⟩
  | claimTask key =>
      subst h
      have hview := Prod.ext_iff.mp (@RelayTables.view_claimTask T now.isoformat key)
      exact ⟨.ok _, now.isoformat, hview.1, by rw [← hview.2], rfl⟩
  | settleTask key ok =>
      subst h
      exact ⟨.ok (), now.isoformat, by rw [T.view_settleTask], rfl⟩
  | pruneSettled maxAgeS =>
      rcases h with ⟨cutoff, -, rfl⟩ | ⟨-, rfl⟩
      · exact ⟨.ok (), cutoff.isoformat, by rw [T.view_pruneSettled], rfl⟩
      · exact ⟨.error (.exception (.other "OverflowError")), rfl, rfl, rfl⟩

end IplanRunner
