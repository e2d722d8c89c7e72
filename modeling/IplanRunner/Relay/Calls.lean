import IplanRunner.Foundation.Interleaving
import IplanRunner.Intake.Payload
import IplanRunner.Orchestrator.Loop
import IplanRunner.Relay.Reject
import IplanRunner.Relay.Store

/-!
The calls of the relay and of the receiver, and what each does to the store they share.

* `Raised`, `Notice`, `RelayOp`, `RelayOp.Res`: what can be raised, logged, called and answered.
* `RelayState`: the database, the ledger files and the free run slots.
* `RelayOp.effect`: a call of the database is one transaction, and a call that raises changes
  nothing.
-/

namespace IplanRunner

open Foundation

/-- What a call raises: an `Exception` of the program or of a library, an `OSError` of the system,
or something that is no `Exception`. -/
inductive Raised where
  | exception (e : PyErr)
  | osError
  | exit
  deriving DecidableEq, Repr

/-- An `OSError`, of which `URLError` is one. -/
def Raised.isOSError : Raised → Bool
  | .osError => true
  | .exception (.permissionError _) => true
  | _ => false

/-- An `Exception`. -/
def Raised.isException : Raised → Bool
  | .exit => false
  | _ => true

/-- What is handed to `deps.log`, known by what the line is about. -/
inductive Notice where
  | replay (key : TaskKey)
  | receiverBusy (key : TaskKey)
  | accepted (key : TaskKey)
  | claimLost (key : TaskKey)
  | runStart (key : TaskKey)
  | runDone (key : TaskKey) (ledgerId : String) (delivered pending : ℕ) (ok : Bool)
  | error (key : TaskKey) (e : Raised)
  | pruneSkip (runId : String) (e : Raised)
  deriving DecidableEq, Repr

/-- The calls. -/
inductive RelayOp where
  | log (notice : Notice)
  | now
  | acceptTask (key : TaskKey)
  | claimTask (key : TaskKey)
  | settleTask (key : TaskKey) (ok : Bool)
  | pruneSettled (maxAgeS : Option ℤ)
  | acquireSlot
  | releaseSlot
  | startWorker (payload : Dict)
  | reply (status : ℕ) (body : Dict)
  | rmtree (path : String)
  | makeParent (path : String)
  | clone (url ref : Val) (dest : String)
  | runEngine (manifest : Manifest) (workspace : String)
  | save (ledger : Ledger)
  | saveIdentity (ledgerId : String) (payload : Dict)
  | loadSettled (ledgerId : String)
  | post (event : Dict)
  | markSettled (ledgerId key : String)
  | deadLetter (ledgerId : String) (event : Dict) (reason : String)
  deriving DecidableEq

/-- What a call returns. -/
@[reducible] def RelayOp.Res : RelayOp → Type
  | .now => ℤ
  | .acceptTask _ => AcceptDecision
  | .claimTask _ => Bool
  | .acquireSlot => Bool
  | .runEngine _ _ => Ledger
  | .saveIdentity _ _ => Dict
  | .loadSettled _ => String → Bool
  | .post _ => RawResponse
  | _ => Unit

/-- A routine of the relay or the receiver. -/
abbrev Relay : Type → Type := Routine Raised RelayOp RelayOp.Res

/-- A call with its answer. -/
abbrev RelayExchange : Type := Exchange Raised RelayOp RelayOp.Res

/-- A call. -/
def invoke (op : RelayOp) : Relay op.Res := Routine.perform op

/-- A computation that may raise. -/
def pyLift {α : Type} : Except PyErr α → Relay α
  | .ok a => .done (.ok a)
  | .error e => .done (.error (.exception e))

lemma only_pyLift {α : Type} {kind : RelayOp → Prop} (x : Except PyErr α) :
    (pyLift x).Only kind := by
  cases x with
  | ok a => exact Routine.only_done _
  | error e => exact Routine.only_done _

/-- The kind of what follows a computation matters only for what it returns. -/
lemma only_pyLift_bind {α β : Type} {kind : RelayOp → Prop} {x : Except PyErr α} {f : α → Relay β}
    (h : ∀ a, x = .ok a → (f a).Only kind) : (pyLift x >>= f).Only kind := by
  cases x with
  | ok a => exact h a rfl
  | error e => exact Routine.only_done _

lemma does_pyLift {α : Type} {x : Except PyErr α} {calls : List RelayExchange} {a : α}
    (h : (pyLift x).Does calls (.ok a)) : calls = [] ∧ x = .ok a := by
  cases x with
  | ok a' =>
      obtain ⟨rfl, heq⟩ := h
      cases heq
      exact ⟨rfl, rfl⟩
  | error e => cases h.2

/-! ### The shared state -/

/-- The store directory and the semaphore of the receiver. -/
structure RelayState where
  db : RelayDb
  ledgers : String → Option Val
  slots : ℕ

/-- The arguments of `drain`. -/
structure DrainJob where
  ledger : Val
  identity : Dict
  ledgerId : String
  key : String
  keyId : Option String
  maxRetries : ℕ
  now : Option ℤ
  maxAgeS : ℤ

/-- What a thread runs: a handler whose request has passed the door, the worker it starts, a drain,
or a retention sweep. -/
inductive RelayJob where
  | postTask (payload : Dict)
  | execute (payload : Dict)
  | drain (job : DrainJob)
  | sweep (maxAgeS : Option ℤ)

namespace RelayOp

variable [PyRuntime]

/-- What a call that returns has done.  The time a row is written and the cutoff of a sweep may be
any texts, the ledger of an engine is one that a run can end with, and a response is any. -/
def returns : (op : RelayOp) → RelayState → op.Res → RelayState → List RelayJob → Prop
  | .acceptTask key, s, answer, s', jobs => ∃ now, answer = (IplanRunner.acceptTask s.db key now).1
      ∧ s' = { s with db := (IplanRunner.acceptTask s.db key now).2 } ∧ jobs = []
  | .claimTask key, s, answer, s', jobs => ∃ now, answer = (IplanRunner.claimTask s.db key now).1
      ∧ s' = { s with db := (IplanRunner.claimTask s.db key now).2 } ∧ jobs = []
  | .settleTask key ok, s, _, s', jobs =>
      ∃ now, s' = { s with db := IplanRunner.settleTask s.db key ok now } ∧ jobs = []
  | .pruneSettled _, s, _, s', jobs =>
      ∃ cutoff, s' = { s with db := IplanRunner.pruneSettled s.db cutoff } ∧ jobs = []
  | .acquireSlot, s, answer, s', jobs =>
      answer = decide (0 < s.slots) ∧ s' = { s with slots := s.slots - 1 } ∧ jobs = []
  | .releaseSlot, s, _, s', jobs => s' = { s with slots := s.slots + 1 } ∧ jobs = []
  | .startWorker payload, s, _, s', jobs => s' = s ∧ jobs = [.execute payload]
  | .runEngine manifest _, s, answer, s', jobs =>
      (∃ (W : Type) (h : Host W) (cfg : RunConfig) (w : W) (result : RunResult),
        (run h cfg manifest w).1 = .ok result ∧ answer = result.ledger) ∧ s' = s ∧ jobs = []
  | .save ledger, s, _, s', jobs =>
      s' = { s with
        ledgers :=
          Function.update s.ledgers ledger.control.ledgerId (some ledger.toDoc) } ∧ jobs = []
  | .saveIdentity ledgerId payload, s, answer, s', jobs =>
      answer = (IplanRunner.saveIdentity s.db ledgerId payload).1
      ∧ s' = { s with db := (IplanRunner.saveIdentity s.db ledgerId payload).2 } ∧ jobs = []
  | .loadSettled ledgerId, s, answer, s', jobs =>
      answer = IplanRunner.loadSettled s.db ledgerId ∧ s' = s ∧ jobs = []
  | .markSettled ledgerId key, s, _, s', jobs =>
      ∃ now, s' = { s with db := IplanRunner.markSettled s.db ledgerId key now } ∧ jobs = []
  | .deadLetter ledgerId event reason, s, _, s', jobs =>
      ∃ now, s' = { s with db := IplanRunner.deadLetter s.db ledgerId event reason now } ∧ jobs = []
  | _, s, _, s', jobs => s' = s ∧ jobs = []

omit [PyRuntime] in
/-- The calls that may raise: the clock and the semaphore do not, nor does a removal that ignores
its errors. -/
def mayRaise : RelayOp → Bool
  | .now => false
  | .acquireSlot => false
  | .releaseSlot => false
  | .rmtree _ => false
  | _ => true

/-- What a call does: one that raises leaves the state as it was. -/
def effect (op : RelayOp) (s : RelayState) (out : Except Raised op.Res) (s' : RelayState)
    (jobs : List RelayJob) : Prop :=
  match out with
  | .ok answer => op.returns s answer s' jobs
  | .error _ => op.mayRaise = true ∧ s' = s ∧ jobs = []

end RelayOp

end IplanRunner
