import IplanRunner.Relay.Calls

/-!
Delivering a ledger's events (`relay/client.py`, `relay/worker.py`).

* `deliver`, `deliverWithRefresh`: one event, with the retries of the transport and the single
  refresh.
* `drain`: the events past the settled ones, in order, up to the first that has to wait.
-/

namespace IplanRunner

open Foundation

/-! ### The client -/

/-- One attempt: `self._open(self._url, data, headers)` with a fresh token. -/
def post (event : Dict) : Relay RawResponse := invoke (.post event)

/-- The loop of `IplanicClient.deliver`, with `left` retries left. -/
def deliverFrom (event : Dict) : ℕ → Relay Response
  | 0 => (post event).resume fun
      | .error e => .done (.error (if e.isOSError then .exception (.other "TransportError") else e))
      | .ok response => .done (.ok response.parsed)
  | left + 1 => (post event).resume fun
      | .error e => if e.isOSError then deliverFrom event left else .done (.error e)
      | .ok response =>
          if 500 ≤ response.status then deliverFrom event left
          else .done (.ok response.parsed)

/-- `IplanicClient.deliver`: an event that has no JSON text raises before the first attempt. -/
def deliver (event : Dict) (maxRetries : ℕ) : Relay Response :=
  if holdsStamp (.dict event) then .raise (.exception .typeError) else deliverFrom event maxRetries

/-! ### The drain -/

/-- `DrainReport`. -/
structure DrainReport where
  delivered : List String
  deadLettered : List String
  pending : List String
  halted : Option String
  deriving DecidableEq, Repr

/-- `DrainReport.ok`. -/
def DrainReport.ok (report : DrainReport) : Bool := report.halted.isNone

variable [PyRuntime] (job : DrainJob)

/-- `reject.classify(client.deliver(event), event, ...)`. -/
def deliverOnce (now : ℤ) (event : Dict) : Relay RelayOutcome := do
  let response ← deliver event job.maxRetries
  pyLift (classify response event now job.maxAgeS)

/-- `_deliver_with_refresh`. -/
def deliverWithRefresh (now : ℤ) (event : Dict) : Relay RelayOutcome := do
  let outcome ← deliverOnce job now event
  if outcome.action = .refresh then
    let again ← deliverOnce job now event
    if again.action = .refresh then
      return ⟨.halt, "auth refresh failed (401 after refresh)"⟩
    else return again
  else return outcome

/-- The loop of `drain`. -/
def drainFrom (now : ℤ) (settled : String → Bool) : List Dict → DrainReport → Relay DrainReport
  | [], report => return report
  | event :: rest, report =>
      let idem := eventKey event
      if settled idem then drainFrom now settled rest report
      else do
        let outcome ← deliverWithRefresh job now event
        match outcome.action with
        | .advance =>
            invoke (.markSettled job.ledgerId idem)
            drainFrom now settled rest { report with delivered := report.delivered ++ [idem] }
        | .deadLetter =>
            invoke (.deadLetter job.ledgerId event outcome.reason)
            drainFrom now settled rest { report with deadLettered := report.deadLettered ++ [idem] }
        | .retry => return { report with pending := report.pending ++ [idem] }
        | _ =>
            return { report with
              pending := report.pending ++ [idem]
              halted := some outcome.reason }

/-- `key_id or identity.get("executor_id") or "default"`. -/
def DrainJob.resolvedKeyId : Val :=
  (optStr job.keyId).orElse ((job.identity.get "executor_id").orElse (.str "default"))

/-- The events a drain projects. -/
def DrainJob.events : Except PyErr (List Dict) :=
  toExecutionEvents job.ledger job.identity job.key job.resolvedKeyId

/-- `store.load_settled(store_dir, ledger_id)`. -/
def loadedSettled (ledgerId : String) : Relay (String → Bool) := invoke (.loadSettled ledgerId)

/-- `now or datetime.now(UTC)`. -/
def DrainJob.stamp : Relay ℤ :=
  match job.now with
  | some now => .done (.ok now)
  | none => invoke .now

/-- `drain`. -/
def drain : Relay DrainReport := do
  let stamp ← job.stamp
  let events ← pyLift job.events
  let settled ← loadedSettled job.ledgerId
  drainFrom job stamp settled events ⟨[], [], [], none⟩

/-! ### The calls of a drain -/

/-- The calls a drain makes: it reads and writes the outbox of its ledger only. -/
def DrainJob.calls : RelayOp → Prop
  | .now => True
  | .post _ => True
  | .loadSettled ledgerId => ledgerId = job.ledgerId
  | .markSettled ledgerId _ => ledgerId = job.ledgerId
  | .deadLetter ledgerId _ _ => ledgerId = job.ledgerId
  | _ => False

omit [PyRuntime] in
lemma only_deliverFrom (event : Dict) (left : ℕ) :
    (deliverFrom event left).Only (· = .post event) := by
  induction left with
  | zero =>
      refine Routine.Only.resume (Routine.only_perform rfl) fun out => ?_
      cases out with
      | ok r => exact Routine.only_done _
      | error e => exact Routine.only_done _
  | succ left ih =>
      refine Routine.Only.resume (Routine.only_perform rfl) fun out => ?_
      cases out with
      | ok r =>
          dsimp only
          split_ifs
          · exact ih
          · exact Routine.only_done _
      | error e =>
          dsimp only
          split_ifs
          · exact ih
          · exact Routine.only_done _

lemma only_deliverOnce (now : ℤ) (event : Dict) :
    (deliverOnce job now event).Only (· = .post event) := by
  refine Routine.Only.bind ?_ fun r => only_pyLift _
  rw [deliver]
  split_ifs
  · exact Routine.only_done _
  · exact only_deliverFrom event _

/-- The delivery of an event posts that event only. -/
lemma only_deliverWithRefresh (now : ℤ) (event : Dict) :
    (deliverWithRefresh job now event).Only (· = .post event) := by
  refine Routine.Only.bind (only_deliverOnce job now event) fun outcome => ?_
  split_ifs
  · refine Routine.Only.bind (only_deliverOnce job now event) fun again => ?_
    split_ifs
    · exact Routine.only_done _
    · exact Routine.only_done _
  · exact Routine.only_done _

lemma only_drainFrom (now : ℤ) (settled : String → Bool) (events : List Dict)
    (report : DrainReport) : (drainFrom job now settled events report).Only job.calls := by
  induction events generalizing report with
  | nil => exact Routine.only_done _
  | cons event rest ih =>
      rw [drainFrom]
      split_ifs
      · exact ih report
      · have hposts : (deliverWithRefresh job now event).Only job.calls := by
          refine (only_deliverWithRefresh job now event).mono fun op hop => ?_
          subst hop
          exact trivial
        refine Routine.Only.bind hposts fun outcome => ?_
        split
        · exact Routine.Only.bind (Routine.only_perform rfl) fun _ => ih _
        · exact Routine.Only.bind (Routine.only_perform rfl) fun _ => ih _
        · exact Routine.only_done _
        · exact Routine.only_done _

lemma only_drain : (drain job).Only job.calls := by
  refine Routine.Only.bind ?_ fun stamp => Routine.Only.bind (only_pyLift _) fun events =>
    Routine.Only.bind (Routine.only_perform rfl) fun settled => only_drainFrom ..
  rw [DrainJob.stamp]
  split
  · exact Routine.only_done _
  · exact Routine.only_perform trivial

end IplanRunner
