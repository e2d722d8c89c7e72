import IplanRunner.Receiver.Service
import IplanRunner.Runs.Script

/-!
Played runs over a store.

* `RelayChoice`, `relayAnswers`: the answers of the calls, an engine run being one with a fresh mock
  executor.
* `emptyStore`, `oneTodoPayload`: a store that has just been made, and a dispatched task.
-/

namespace IplanRunner

open Foundation

/-- What a call is answered with: an exception, or what it returns, with the text of the clock or
the cutoff, the stamp and the response where it needs one. -/
inductive RelayChoice where
  | raise (e : Raised)
  | ok
  | at (text : String)
  | stamp (now : ℤ)
  | respond (response : RawResponse)

/-- The text a choice gives to the clock. -/
def RelayChoice.text : RelayChoice → String
  | .at text => text
  | _ => "2026-06-26T00:00:00+00:00"

section Runtime

variable [PyRuntime]

/-- The ledger of a run whose tasks all succeed. -/
def mockRun (manifest : Manifest) : Option Ledger :=
  match (run (steadyHost []) scriptConfig manifest (.fresh [])).1 with
  | .ok result => some result.ledger
  | .error _ => none

/-- What a call returns under a choice. -/
def returned : (op : RelayOp) → RelayState → RelayChoice →
    Option (op.Res × RelayState × List RelayJob)
  | .acceptTask key, s, c =>
      let r := acceptTask s.db key c.text
      some (r.1, { s with db := r.2 }, [])
  | .claimTask key, s, c =>
      let r := claimTask s.db key c.text
      some (r.1, { s with db := r.2 }, [])
  | .settleTask key ok, s, c => some ((), { s with db := settleTask s.db key ok c.text }, [])
  | .pruneSettled _, s, c => some ((), { s with db := pruneSettled s.db c.text }, [])
  | .acquireSlot, s, _ => some (decide (0 < s.slots), { s with slots := s.slots - 1 }, [])
  | .releaseSlot, s, _ => some ((), { s with slots := s.slots + 1 }, [])
  | .startWorker payload, s, _ => some ((), s, [.execute payload])
  | .runEngine manifest _, s, _ => (mockRun manifest).map fun L => (L, s, [])
  | .save L, s, _ =>
      some ((), { s with
        ledgers := Function.update s.ledgers L.control.ledgerId (some L.toDoc) }, [])
  | .saveIdentity ledgerId payload, s, _ =>
      let r := saveIdentity s.db ledgerId payload
      some (r.1, { s with db := r.2 }, [])
  | .loadSettled ledgerId, s, _ => some (loadSettled s.db ledgerId, s, [])
  | .markSettled ledgerId key, s, c =>
      some ((), { s with db := markSettled s.db ledgerId key c.text }, [])
  | .deadLetter ledgerId event reason, s, c =>
      some ((), { s with db := deadLetter s.db ledgerId event reason c.text }, [])
  | .now, s, c => match c with | .stamp now => some (now, s, []) | _ => some (0, s, [])
  | .post _, s, c =>
      match c with | .respond response => some (response, s, []) | _ => some (⟨202, .empty⟩, s, [])
  | .log _, s, _ => some ((), s, [])
  | .reply _ _, s, _ => some ((), s, [])
  | .rmtree _, s, _ => some ((), s, [])
  | .makeParent _, s, _ => some ((), s, [])
  | .clone _ _ _, s, _ => some ((), s, [])

/-- How a call is answered under a choice. -/
def answered (op : RelayOp) (s : RelayState) (c : RelayChoice) :
    Option (Except Raised op.Res × RelayState × List RelayJob) :=
  match c with
  | .raise e => if op.mayRaise then some (.error e, s, []) else none
  | c => (returned op s c).map fun r => (.ok r.1, r.2)

lemma returned_returns {op : RelayOp} {s s' : RelayState} {c : RelayChoice} {a : op.Res}
    {jobs : List RelayJob} (h : returned op s c = some (a, s', jobs)) : op.returns s a s' jobs := by
  cases op with
  | runEngine manifest workspace =>
      obtain ⟨L, hL, heq⟩ := Option.map_eq_some_iff.mp h
      rw [mockRun] at hL
      split at hL
      · rename_i result hrun
        cases hL
        cases heq
        exact ⟨⟨_, steadyHost [], scriptConfig, .fresh [], result, hrun, rfl⟩, rfl, rfl⟩
      · cases hL
  | now => cases c <;> · cases h; exact ⟨rfl, rfl⟩
  | post event => cases c <;> · cases h; exact ⟨rfl, rfl⟩
  | acceptTask key => cases h; exact ⟨c.text, rfl, rfl, rfl⟩
  | claimTask key => cases h; exact ⟨c.text, rfl, rfl, rfl⟩
  | settleTask key ok => cases h; exact ⟨c.text, rfl, rfl⟩
  | pruneSettled maxAgeS => cases h; exact ⟨c.text, rfl, rfl⟩
  | markSettled ledgerId key => cases h; exact ⟨c.text, rfl, rfl⟩
  | deadLetter ledgerId event reason => cases h; exact ⟨c.text, rfl, rfl⟩
  | acquireSlot => cases h; exact ⟨rfl, rfl, rfl⟩
  | saveIdentity ledgerId payload => cases h; exact ⟨rfl, rfl, rfl⟩
  | loadSettled ledgerId => cases h; exact ⟨rfl, rfl, rfl⟩
  | _ => cases h; exact ⟨rfl, rfl⟩

lemma answered_effect {op : RelayOp} {s s' : RelayState} {c : RelayChoice}
    {out : Except Raised op.Res} {jobs : List RelayJob} (h : answered op s c
      = some (out, s', jobs)) :
    op.effect s out s' jobs := by
  cases c with
  | raise e =>
      by_cases hmay : op.mayRaise = true
      · have hanswer : answered op s (.raise e) = some (.error e, s, []) := if_pos hmay
        rw [hanswer] at h
        cases h
        exact ⟨hmay, rfl, rfl⟩
      · have hanswer : answered op s (.raise e) = none := if_neg hmay
        rw [hanswer] at h
        cases h
  | _ =>
      obtain ⟨⟨a, s'', jobs'⟩, hreturned, heq⟩ := Option.map_eq_some_iff.mp h
      cases heq
      exact returned_returns hreturned

variable [SqlText]

/-- The answers. -/
def relayAnswers (deps : ReceiverDeps) : AnswerBook (relayPlatform deps) RelayChoice where
  starts
    | .execute _ => false
    | _ => true
  answer := answered
  arrives job h payload heq := by
    subst heq
    cases h
  effect _ _ _ _ _ _ h := answered_effect h

end Runtime

/-! ### A dispatched task -/

/-- The texts of strings; other values are refused. -/
@[reducible] def stringText : SqlText where
  column
    | .str s => some s
    | _ => none

/-- A dispatched task of one todo, of the run `R1`. -/
def oneTodoPayload (taskId : String) : Dict :=
  [("org_id", .str "org1"), ("project_id", .str "p1"), ("iplan_id", .str "IPLAN-1"),
    ("plan_version_id", .str "1"), ("run_id", .str "R1"), ("task_id", .str taskId),
    ("step_id", .str taskId), ("executor_id", .str "exec:abcdefghijklmnop"),
    ("work_order", .dict [("work_order_id", .str "W1"), ("todos", .list
      [.dict [("todo_id", .str "TODO-1"), ("description", .str "d"),
        ("acceptance_criteria", .list [.str "c"])]])]),
    ("context_package", .dict [("repository", .str ".")])]

/-- The key of the task. -/
def oneTodoKey (taskId : String) : TaskKey := ("R1", taskId)

/-- A receiver that does not repeat a failed request. -/
def scriptDeps : ReceiverDeps := ⟨"/w", 0, "k", none, 4⟩

/-- A store that has just been made, without threads. -/
def freshPool : RelayPool := ⟨⟨RelayDb.empty, fun _ => none, 4⟩, []⟩

/-- A request for the task is taken by the thread `i`, which starts the worker `i + 1`. -/
def takenRequest (i : ℕ) (taskId : String) : List (Cue RelayJob RelayChoice) :=
  [.start (.postTask (oneTodoPayload taskId)), .call i .ok, .call i .ok, .call i .ok]

/-- The worker `i` runs its task up to the end of the drain, the first event being answered by an
error of the server. -/
def runsUnanswered (i : ℕ) : List (Cue RelayJob RelayChoice) :=
  [.call i .ok, .call i .ok, .call i .ok, .call i .ok, .call i .ok, .call i .ok, .call i .ok,
    .call i (.respond ⟨500, .empty⟩)]

/-- The thread `i` deletes what is settled. -/
def sweepsAll (i : ℕ) : List (Cue RelayJob RelayChoice) :=
  [.start (.sweep none), .call i (.at "2027")]

end IplanRunner
