import Mathlib.Logic.Function.Basic
import IplanRunner.Foundation.Runtime
import IplanRunner.Ledger.Projection

/-!
The relay's database (`relay/store.py`).

* `RelayDb`: the three tables, each a function of its primary key.
* `loadSettled`, `markSettled`, `deadLetter`: the outbox; `saveIdentity`, `loadIdentity`: the
  identities; `acceptTask`, `claimTask`, `settleTask`: the dispatched tasks; `pruneSettled`: the
  retention sweep.  The moment a row is written and the sweep's cutoff are texts of the clock.
* One lemma for each table an operation does not touch, and one for each row it does.
-/

namespace IplanRunner

open Foundation

/-! ### The tables -/

/-- The two statuses of a settled event. -/
inductive DeliveryStatus where
  | delivered
  | deadLettered
  deriving DecidableEq, Repr

/-- A row of `delivery`; a delivered row has neither reason nor event. -/
structure DeliveryRow where
  status : DeliveryStatus
  reason : Option String
  event : Option Dict
  updatedAt : String
  deriving DecidableEq

/-- The statuses of a dispatched task. -/
inductive AcceptStatus where
  | accepted
  | running
  | done
  | failed
  deriving DecidableEq, Repr

/-- A row of `accepted_task`. -/
structure AcceptRow where
  status : AcceptStatus
  updatedAt : String
  deriving DecidableEq, Repr

/-- `(run_id, task_id)`. -/
abbrev TaskKey : Type := String × String

/-- `relay.db`. -/
structure RelayDb where
  delivery : String × String → Option DeliveryRow
  identity : String → Option Dict
  acceptedTask : TaskKey → Option AcceptRow

/-- A database that has just been made. -/
def RelayDb.empty : RelayDb := ⟨fun _ => none, fun _ => none, fun _ => none⟩

/-! ### The outbox -/

/-- `load_settled`, a set of keys being its membership test. -/
def loadSettled (db : RelayDb) (ledgerId key : String) : Bool :=
  (db.delivery (ledgerId, key)).isSome

/-- `INSERT OR IGNORE` of a row. -/
def RelayDb.insertDelivery (db : RelayDb) (key : String × String) (row : DeliveryRow) : RelayDb :=
  { db with delivery := Function.update db.delivery key (some ((db.delivery key).getD row)) }

/-- `mark_settled`. -/
def markSettled (db : RelayDb) (ledgerId key now : String) : RelayDb :=
  db.insertDelivery (ledgerId, key) ⟨.delivered, none, none, now⟩

/-- `dead_letter`: the row replaces the one that is there. -/
def deadLetter (db : RelayDb) (ledgerId : String) (event : Dict) (reason now : String) : RelayDb :=
  { db with
    delivery := Function.update db.delivery (ledgerId, eventKey event)
      (some ⟨.deadLettered, some reason, some event, now⟩) }

/-! ### The identities -/

/-- `save_identity`. -/
def saveIdentity (db : RelayDb) (ledgerId : String) (payload : Dict) : Dict × RelayDb :=
  (identityOf payload,
    { db with identity := Function.update db.identity ledgerId (some (identityOf payload)) })

/-- `load_identity`. -/
def loadIdentity (db : RelayDb) (ledgerId : String) : Option Dict := db.identity ledgerId

/-! ### The dispatched tasks -/

/-- The two answers of `accept_task`. -/
inductive AcceptDecision where
  | accept
  | replay
  deriving DecidableEq, Repr

/-- `accept_task`. -/
def acceptTask (db : RelayDb) (key : TaskKey) (now : String) : AcceptDecision × RelayDb :=
  match db.acceptedTask key with
  | none => (.accept,
      { db with acceptedTask := Function.update db.acceptedTask key (some ⟨.accepted, now⟩) })
  | some row => (if row.status = .accepted then .accept else .replay, db)

/-- `claim_task`: the update of a row that is still `accepted`. -/
def claimTask (db : RelayDb) (key : TaskKey) (now : String) : Bool × RelayDb :=
  if (db.acceptedTask key).map (·.status) = some .accepted then
    (true, { db with acceptedTask := Function.update db.acceptedTask key (some ⟨.running, now⟩) })
  else (false, db)

/-- `settle_task`: the update of the row, whatever its status. -/
def settleTask (db : RelayDb) (key : TaskKey) (ok : Bool) (now : String) : RelayDb :=
  { db with
    acceptedTask := Function.update db.acceptedTask key
      ((db.acceptedTask key).map fun _ => ⟨if ok then .done else .failed, now⟩) }

/-! ### Retention -/

/-- A delivered row from before the cutoff. -/
def DeliveryRow.stale (cutoff : String) (row : DeliveryRow) : Bool :=
  row.status = .delivered && decide (row.updatedAt < cutoff)

/-- A terminal row from before the cutoff. -/
def AcceptRow.stale (cutoff : String) (row : AcceptRow) : Bool :=
  (row.status = .done || row.status = .failed) && decide (row.updatedAt < cutoff)

/-- `prune_settled`, with its cutoff. -/
def pruneSettled (db : RelayDb) (cutoff : String) : RelayDb :=
  { db with
    delivery := fun key => (db.delivery key).filter fun row => !row.stale cutoff
    acceptedTask := fun key => (db.acceptedTask key).filter fun row => !row.stale cutoff }

end IplanRunner
