import IplanRunner.Cli.Handover
import IplanRunner.Foundation.Tally

/-!
The `status` command on a store that other commands save to (`ledger/index.py`, `cli/commands.py`).

* `RunStatus`, `status`: what is printed of a stored ledger.
* `Store.All`: a property of every ledger that is stored or that a command has loaded.
* `StoreEvent.Spares`: an override spares the other blocked tasks of the ledger it was given.
* `status_truthful`: in every interleaving of such commands a stored ledger can be loaded, its tasks
  are counted, and it is only said to be allowed to complete when all of them have.
-/

namespace IplanRunner

open Foundation

section Runtime

variable [PyRuntime]

/-! ### Status -/

/-- What `status` prints: `tasks` is in the order the statuses first occur in. -/
structure RunStatus where
  ledgerId : String
  sourceIplan : Val
  tasks : List (TaskStatus × ℕ)
  reconciliation : Reconciliation
  openBlockers : ℕ

/-- `status`; `none` when `load` raises. -/
def status (stored : String → Option Ledger) (ledgerId : String) : Option RunStatus := do
  let ledger ← loadLedger stored ledgerId
  return {
    ledgerId := ledgerId
    sourceIplan := ledger.control.sourceIplan
    tasks := tally (ledger.taskLedger.map (·.status))
    reconciliation := ledger.reconciliation
    openBlockers := ledger.blockers.length }

/-! ### Every ledger of a store -/

/-- A property, by the id it is stored under, of every ledger that is stored or loaded. -/
structure Store.All (P : String → Ledger → Prop) (s : Store) : Prop where
  stored : ∀ ledgerId L, s.stored ledgerId = some L → P ledgerId L
  running : ∀ p cmd L, s.running p = some (cmd, some L) → P cmd.ledgerId L

/-- What a command loads is what is stored under its id. -/
lemma SavingCommand.load_stored {stored : String → Option Ledger} {cmd : SavingCommand}
    {L : Ledger} (hload : cmd.load stored = some (some L)) : stored cmd.ledgerId = some L := by
  cases cmd with
  | run h cfg manifest w landing => cases hload
  | resume h cfg manifest w =>
      obtain ⟨L', hL', heq⟩ := Option.map_eq_some_iff.mp hload
      cases heq
      exact loadLedger_eq hL'
  | resolve ledgerId blockerId decision atTime actor =>
      obtain ⟨L', hL', heq⟩ := Option.map_eq_some_iff.mp hload
      cases heq
      exact loadLedger_eq hL'

/-- **One event** keeps a property that commands keep. -/
lemma Store.All.after {P : String → Ledger → Prop} {s : Store} {event : StoreEvent} (hs : s.All P)
    (hsaved : ∀ p cmd base L, event = .save p → s.running p = some (cmd, base) →
      (∀ B, base = some B → P cmd.ledgerId B) → cmd.saved base = some L →
      P L.control.ledgerId L) :
    (s.after event).All P := by
  cases event with
  | load p cmd =>
      rw [Store.after]
      split
      · rename_i base _ hload
        refine ⟨hs.stored, fun q cmd' B hq => ?_⟩
        by_cases hqp : q = p
        · subst hqp
          obtain ⟨rfl, rfl⟩ : cmd = cmd' ∧ base = some B := by
            simpa [Function.update_self] using hq
          exact hs.stored _ B (SavingCommand.load_stored hload)
        · exact hs.running q cmd' B (by simpa [Function.update_of_ne hqp] using hq)
      · exact hs
  | save p =>
      cases hrunning : s.running p with
      | none =>
          rw [Store.after, hrunning]
          exact hs
      | some held =>
          obtain ⟨cmd, base⟩ := held
          let ended : Store := { s with running := Function.update s.running p none }
          have hended : ended.All P := by
            refine ⟨hs.stored, fun q cmd' B hq => ?_⟩
            by_cases hqp : q = p
            · subst hqp
              simp [ended, Function.update_self] at hq
            · exact hs.running q cmd' B (by simpa [ended, Function.update_of_ne hqp] using hq)
          cases hresult : cmd.saved base with
          | none =>
              have hafter : s.after (.save p) = ended := by
                rw [Store.after, hrunning]
                dsimp only
                rw [hresult]
              rw [hafter]
              exact hended
          | some L =>
              rw [Store.after_save hrunning hresult]
              have hL : P L.control.ledgerId L := hsaved p cmd base L rfl hrunning
                (fun B hB => hs.running p cmd B (hB ▸ hrunning)) hresult
              refine ⟨fun ledgerId B hB => ?_, hended.running⟩
              by_cases hid : ledgerId = L.control.ledgerId
              · subst hid
                have hself := Store.put_stored ended L
                rw [show (ended.put L).stored L.control.ledgerId = some B from hB] at hself
                cases hself
                exact hL
              · refine hended.stored ledgerId B ?_
                simpa [ended, Store.put, Function.update_of_ne hid] using hB

/-! ### Lives in a store -/

/-- A command that spares the other blocked tasks of a ledger, if it overrides at all. -/
def SavingCommand.Spares (L : Ledger) : SavingCommand → Prop
  | .resolve _ blockerId decision _ _ => decision = "override" → OverrideSpares L blockerId
  | _ => True

/-- The save of a command that spares the other blocked tasks of what it was given. -/
def StoreEvent.Spares (s : Store) : StoreEvent → Prop
  | .load .. => True
  | .save p => ∀ cmd L, s.running p = some (cmd, some L) → cmd.Spares L

lemma SparingLife.landSigned {W : Type} {h : Host W} {repo : Repo W} {key branch message : String}
    {w : W} {L L' : Ledger} {r : Except PyErr Unit} (hL : SparingLife L)
    (hland : landSigned key h repo branch message w L = (r, L')) : SparingLife L' := by
  have hlanded := @SparingLife.land _ _ h repo branch message (some defaultGate) ⟨L, w, []⟩ hL
  rw [IplanRunner.landSigned] at hland
  split at hland
  · rename_i e s heq
    rw [heq] at hlanded
    cases hland
    exact hlanded
  · rename_i res s heq
    rw [heq] at hlanded
    split at hland
    · cases hland
      exact hlanded
    · obtain rfl := (Prod.mk.inj hland).2
      exact hlanded.sign key

/-- **What a command saves** goes on with the life of what it was given. -/
lemma SavingCommand.saved_life {cmd : SavingCommand} {base : Option Ledger} {L : Ledger}
    (hbase : ∀ B, base = some B → SparingLife B ∧ cmd.Spares B) (hsaved : cmd.saved base = some L) :
    SparingLife L := by
  cases cmd with
  | run h cfg manifest w landing =>
      cases base with
      | some B => cases hsaved
      | none =>
          rw [SavingCommand.saved, runSaved] at hsaved
          split at hsaved
          · cases hsaved
          · rename_i res w' fx hrun
            have hlife : SparingLife res.ledger := .run hrun
            split at hsaved
            · cases hsaved
              exact hlife
            · split at hsaved
              · split at hsaved
                · rename_i L' hland
                  cases hsaved
                  exact hlife.landSigned hland
                · cases hsaved
              · cases hsaved
                exact hlife
  | resume h cfg manifest w =>
      cases base with
      | none => cases hsaved
      | some B =>
          have hlife := (hbase B rfl).1.resume (s := ⟨B, w, []⟩) h cfg manifest
          obtain ⟨res, hres, rfl⟩ := Option.map_eq_some_iff.mp hsaved
          obtain ⟨r, state, L', fx, w', hdrive, hexec, hends⟩ :=
            resume_spec h cfg manifest ⟨B, w, []⟩
          rw [hexec] at hres hlife
          obtain ⟨rfl, -⟩ := hends res (eq_ok_of_toOption hres)
          exact hlife
  | resolve ledgerId blockerId decision atTime actor =>
      cases base with
      | none => cases hsaved
      | some B => exact (hbase B rfl).1.resolve (hbase B rfl).2 (eq_ok_of_toOption hsaved)

/-- **Status is truthful.**  Take any commands on one store, their loads and saves in any order,
such that every override spares the other blocked tasks of the ledger it was given.  Of what is
stored at any time `status` can be asked; it names the plan the ledger is named after, counts each
task under its status, and says that completion is allowed only when all it has counted is completed
and no blocker is open. -/
theorem status_truthful {moves : List (Store × StoreEvent)} {s : Store}
    (hrun : StoreHistory moves s) (hspares : ∀ m ∈ moves, m.2.Spares m.1) {ledgerId : String}
    {L : Ledger} (hstored : s.stored ledgerId = some L) :
    SparingLife L ∧ ∃ st, status s.stored ledgerId = some st
      ∧ ledgerId = "LEDGER-" ++ st.sourceIplan.pyStr
      ∧ Tallies st.tasks (L.taskLedger.map (·.status)) ∧ st.openBlockers = L.blockers.length
      ∧ (st.reconciliation.allowed = true →
        (∀ p ∈ st.tasks, p.1 = .completed) ∧ st.openBlockers = 0) := by
  let P : String → Ledger → Prop := fun ledgerId L => L.control.ledgerId = ledgerId ∧ SparingLife L
  have hall : s.All P := by
    refine (hrun.invariant_of ⟨fun _ _ h => (by cases h), fun _ _ _ h => (by cases h)⟩
      fun t event t' hmem ht hstep => hstep ▸ ht.after fun p cmd base L hevent hrunning hbase
        hsaved => ⟨rfl, ?_⟩).2
    subst hevent
    refine SavingCommand.saved_life (fun B hB => ⟨(hbase B hB).2, ?_⟩) hsaved
    subst hB
    exact hspares _ hmem cmd B hrunning
  obtain ⟨hid, hlife⟩ := hall.stored ledgerId L hstored
  have hload : loadLedger s.stored ledgerId = some L := by
    have hchain : verifyChain L.logDoc = .ok true :=
      (verifyChain_toVal _).mpr hlife.lived.wellKept.chained
    rw [loadLedger, hstored]
    dsimp only
    rw [hchain]
  have htasks := tallies_tally (L.taskLedger.map (·.status))
  have hstatus : status s.stored ledgerId = some ⟨ledgerId, L.control.sourceIplan,
      tally (L.taskLedger.map (·.status)), L.reconciliation, L.blockers.length⟩ := by
    rw [status, hload]
    rfl
  refine ⟨hlife, _, hstatus, hid ▸ hlife.lived.ledgerId, htasks, rfl, fun hallowed => ?_⟩
  obtain ⟨hdone, hnone⟩ := hlife.sound.2 hallowed
  refine ⟨fun p hp => ?_, by rw [hnone]; rfl⟩
  obtain ⟨hcount, hpos⟩ := (htasks.mem p.1 p.2).mp hp
  rw [hcount] at hpos
  obtain ⟨t, ht, hst⟩ := List.mem_map.mp (List.count_pos_iff.mp hpos)
  exact hst ▸ hdone t ht

end Runtime

section Example

attribute [local instance] cpython

/-- The task succeeds with evidence. -/
private def provingHost : Host MockWorld :=
  steadyHost [("T1", ⟨.success, [], some [("kind", .str "test")], none, false⟩)]

/-- `run` of a plan with that task. -/
private def provingRun : SavingCommand :=
  .run provingHost scriptConfig (scriptManifest [("T1", [])]) (.fresh []) none

/-- The run saves a ledger that is allowed to complete. -/
private lemma provingRun_saved : ∃ L, provingRun.saved none = some L
    ∧ L.control.ledgerId = "LEDGER-IPLAN-1" ∧ L.reconciliation.allowed = true := by
  obtain ⟨res, w', fx, hrun, hcheck⟩ := exists_run provingHost scriptConfig (.fresh [])
    (scriptManifest_roots [("T1", [])])
    (fun s => decide (s.ledger.reconciliation.allowed = true)) (by decide +kernel)
  have hran : runSaved provingHost scriptConfig (scriptManifest [("T1", [])]) (.fresh []) none
      = some res.ledger := by
    rw [runSaved, hrun]
  have hid : "LEDGER-" ++ (scriptManifest [("T1", [])]).control.sourceIplan.pyStr
      = "LEDGER-IPLAN-1" := by decide +kernel
  refine ⟨res.ledger, ?_, (runSaved_ledgerId hran).trans hid, of_decide_eq_true hcheck⟩
  rw [provingRun, SavingCommand.saved, hran]

/-- The store behind that run. -/
private lemma provingRun_history : ∃ (moves : List (Store × StoreEvent)) (s : Store) (L : Ledger),
    StoreHistory moves s ∧ (∀ m ∈ moves, m.2.Spares m.1) ∧ moves.length = 2
      ∧ s.stored "LEDGER-IPLAN-1" = some L ∧ L.reconciliation.allowed = true := by
  obtain ⟨L, hsaved, hid, hallows⟩ := provingRun_saved
  have hload := @Store.after_load _ .empty 0 provingRun none rfl rfl
  have hrunning : (Store.empty.after (.load 0 provingRun)).running 0 = some (provingRun, none) := by
    simp [hload]
  have hsave := Store.after_save hrunning hsaved
  have hhistory : StoreHistory [(.empty, .load 0 provingRun),
      (Store.empty.after (.load 0 provingRun), .save 0)] _ :=
    (Plays.start.move rfl).move rfl
  refine ⟨_, _, L, hhistory, fun m hm => ?_, rfl, ?_, hallows⟩
  · rcases List.mem_pair.mp hm with rfl | rfl
    · trivial
    · intro cmd B hB
      rw [hrunning] at hB
      cases hB
  · rw [hsave, ← hid]
    exact Store.put_stored _ L

/-- A plan is run and its task succeeds: the status says that completion is allowed, and counts no
task but as completed. -/
theorem status_truthful_of_run : ∃ (moves : List (Store × StoreEvent)) (s : Store) (st : RunStatus),
    StoreHistory moves s ∧ moves.length = 2 ∧ status s.stored "LEDGER-IPLAN-1" = some st
      ∧ st.reconciliation.allowed = true ∧ ∀ p ∈ st.tasks, p.1 = .completed := by
  obtain ⟨moves, s, L, hhistory, hspares, hlength, hstored, hallows⟩ := provingRun_history
  obtain ⟨-, st, hstatus, -, -, -, hallowed⟩ := status_truthful hhistory hspares hstored
  have hsame : st.reconciliation = L.reconciliation := by
    obtain ⟨L', hload, hst⟩ := Option.bind_eq_some_iff.mp hstatus
    obtain rfl : L' = L := Option.some.inj ((loadLedger_eq hload).symm.trans hstored)
    cases hst
    rfl
  rw [← hsame] at hallows
  exact ⟨moves, s, st, hhistory, hlength, hstatus, hallows, (hallowed hallows).1⟩

end Example

end IplanRunner
