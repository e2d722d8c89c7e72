import IplanRunner.Engine.Signed
import IplanRunner.Foundation.Plays
import IplanRunner.Runs.Script

/-!
Commands that save a ledger (`run`, `resume` and `resolve` of `cli/commands.py`), several of them on
one store.

* `SavingCommand`: a command and what it is given; `load` and `saved`: what it loads first and saves
  last.
* `Store`: the stored ledgers, and the commands between their load and their save; `StoreRun`: these
  in any order.
* `Fresh`: no events are stored that a saving command has not loaded.
* `stored_grows`: under that condition stored logs only grow.
-/

namespace IplanRunner

open Foundation

section Runtime

variable [PyRuntime]

/-! ### Commands -/

/-- `--land` of `run`: the signing key of the engine, if any, and the repository. -/
structure Landing (W : Type) where
  key : String
  repo : Repo W
  branch : String

/-- A command that saves a ledger, with what it is given. -/
inductive SavingCommand : Type 1 where
  | run {W : Type} (h : Host W) (cfg : RunConfig) (manifest : Manifest) (w : W)
      (landing : Option (Landing W))
  | resume {W : Type} (h : Host W) (cfg : RunConfig) (manifest : Manifest) (w : W)
  | resolve (ledgerId blockerId decision atTime : String) (actor : Actor)

/-- The id of the ledger a command is about. -/
def SavingCommand.ledgerId : SavingCommand → String
  | .run _ _ manifest _ _ => "LEDGER-" ++ manifest.control.sourceIplan.pyStr
  | .resume _ _ manifest _ => "LEDGER-" ++ manifest.control.sourceIplan.pyStr
  | .resolve ledgerId _ _ _ _ => ledgerId

/-- `load`: a ledger that is not there, or whose log is no chain, raises. -/
def loadLedger (stored : String → Option Ledger) (ledgerId : String) : Option Ledger :=
  match stored ledgerId with
  | none => none
  | some L =>
      match verifyChain L.logDoc with
      | .ok true => some L
      | _ => none

/-- The ledger `run` saves: a run that passed its gate is landed first, if that is asked for. -/
def runSaved {W : Type} (h : Host W) (cfg : RunConfig) (manifest : Manifest) (w : W)
    (landing : Option (Landing W)) : Option Ledger :=
  match run h cfg manifest w with
  | (.error _, _, _) => none
  | (.ok res, w', _) =>
      match landing with
      | none => some res.ledger
      | some l =>
          if res.gateResult.status = .passed ∧ res.ledger.reconciliation.allowed = true then
            match landSigned l.key h l.repo l.branch
                ("iops: land " ++ res.ledger.control.ledgerId) w' res.ledger with
            | (.ok (), L) => some L
            | (.error _, _) => none
          else some res.ledger

/-- What a command has in hand behind its load; `none` when that raises. -/
def SavingCommand.load (stored : String → Option Ledger) :
    SavingCommand → Option (Option Ledger)
  | .run .. => some none
  | .resume _ _ manifest _ =>
      (loadLedger stored ("LEDGER-" ++ manifest.control.sourceIplan.pyStr)).map some
  | .resolve ledgerId _ _ _ _ => (loadLedger stored ledgerId).map some

/-- The ledger a command saves in the end; `none` when it raises. -/
def SavingCommand.saved : SavingCommand → Option Ledger → Option Ledger
  | .run h cfg manifest w landing, none => runSaved h cfg manifest w landing
  | .resume h cfg manifest w, some L =>
      ((IplanRunner.resume h cfg manifest ⟨L, w, []⟩).1.toOption).map (·.ledger)
  | .resolve _ blockerId decision atTime actor, some L =>
      (resolveBlocker L blockerId decision actor atTime).toOption
  | _, _ => none

/-! ### The store -/

/-- The stored ledgers, and the commands that are past their load, with what they loaded. -/
structure Store : Type 1 where
  stored : String → Option Ledger
  running : ℕ → Option (SavingCommand × Option Ledger)

/-- An empty store. -/
def Store.empty : Store := ⟨fun _ => none, fun _ => none⟩

/-- A process starts a command and loads, or saves and ends. -/
inductive StoreEvent : Type 1 where
  | load (p : ℕ) (cmd : SavingCommand)
  | save (p : ℕ)

/-- The store with a ledger saved. -/
def Store.put (s : Store) (L : Ledger) : Store :=
  { s with stored := Function.update s.stored L.control.ledgerId (some L) }

/-- What an event makes of the store. -/
def Store.after (s : Store) : StoreEvent → Store
  | .load p cmd =>
      match s.running p, cmd.load s.stored with
      | none, some base => { s with running := Function.update s.running p (some (cmd, base)) }
      | _, _ => s
  | .save p =>
      match s.running p with
      | none => s
      | some (cmd, base) =>
          let ended : Store := { s with running := Function.update s.running p none }
          match cmd.saved base with
          | none => ended
          | some L => ended.put L

/-- Loads and saves in any order, each recorded with the store before it. -/
def StoreHistory (moves : List (Store × StoreEvent)) (s : Store) : Prop :=
  Plays (fun s event s' => s.after event = s') .empty moves s

/-- Every stored ledger stays, and its log is continued. -/
def Store.Grows (s s' : Store) : Prop :=
  ∀ ledgerId L, s.stored ledgerId = some L →
    ∃ L', s'.stored ledgerId = some L' ∧ L.executionLog <+: L'.executionLog

/-- The log a command has loaded: `run` loads none. -/
def loadedLog (base : Option Ledger) : List Event := (base.map (·.executionLog)).getD []

/-- A save by a command that has loaded all the events that are stored by then. -/
def StoreEvent.Fresh (s : Store) : StoreEvent → Prop
  | .load _ _ => True
  | .save p => ∀ cmd base L, s.running p = some (cmd, base) → s.stored cmd.ledgerId = some L →
      L.executionLog <+: loadedLog base

/-! ### What a command saves -/

section Commands

variable {W : Type} {h : Host W} {cfg : RunConfig}

lemma LoopRun.control {graph : List TaskNode} {order completed : List String} {L L' : Ledger}
    {r : Except PyErr RunState} {fx : List Effect}
    (hrun : LoopRun h cfg graph order completed L r L' fx) : L'.control = L.control := by
  induction hrun with
  | finished => rfl
  | unknown _ => rfl
  | skip _ _ ih => exact ih
  | paused _ _ _ => rfl
  | aborted _ _ _ => rfl
  | noNode _ _ _ => rfl
  | raised _ _ _ _ => rfl
  | turned _ _ _ _ _ ih => exact ih

omit [PyRuntime] in
lemma reconcile_ledgerId (L : Ledger) : (reconcile L).control.ledgerId = L.control.ledgerId := by
  rw [reconcile]
  dsimp only
  split_ifs <;> rfl

lemma DriveRun.ledgerId {manifest : Manifest} {completed : List String} {L L' : Ledger}
    {state : Option RunState} {fx : List Effect}
    (hrun : DriveRun h cfg manifest completed L state L' fx) :
    L'.control.ledgerId = L.control.ledgerId := by
  cases hrun with
  | noOrder _ => rfl
  | raised _ hloop => rw [hloop.control]
  | ended _ hloop =>
      rw [reconcile_ledgerId, ← hloop.control]
      rfl

/-- The id of a new ledger. -/
lemma startLedger_ledgerId {manifest : Manifest} {L : Ledger}
    (hstart : startLedger manifest = .ok L) :
    L.control.ledgerId = "LEDGER-" ++ manifest.control.sourceIplan.pyStr := by
  rw [startLedger] at hstart
  obtain ⟨fs, -, hstart⟩ := except_bind_eq_ok.mp hstart
  simp only [bind, Except.bind] at hstart
  split at hstart
  · cases hstart
  · obtain ⟨entries, -, hinit⟩ := except_bind_eq_ok.mp hstart
    cases hinit
    rfl

/-- Landing keeps the id. -/
lemma land_ledgerId (repo : Repo W) (branch message : String) (gate : Option Gate) :
    Call.Moves (fun s s' : Session W => s'.ledger.control.ledgerId = s.ledger.control.ledgerId)
      (land h repo branch message gate) := by
  have hbind : ∀ {α β : Type} {m : Loop W α} {f : α → Loop W β},
      Call.Moves (fun s s' : Session W => s'.ledger.control.ledgerId = s.ledger.control.ledgerId)
      m →
      (∀ a, Call.Moves (fun s s' : Session W =>
        s'.ledger.control.ledgerId = s.ledger.control.ledgerId) (f a)) →
      Call.Moves (fun s s' : Session W => s'.ledger.control.ledgerId = s.ledger.control.ledgerId)
        (m >>= f) := fun hm hf => Call.Moves.bind (fun h h' => h'.trans h) hm hf
  have hcommit : Call.Moves (fun s s' : Session W =>
      s'.ledger.control.ledgerId
        = s.ledger.control.ledgerId) (commitRun h repo branch message) := by
    rw [commitRun]
    refine hbind (fun s => rfl) fun sha => hbind (fun s => rfl) fun atTime => ?_
    exact hbind (fun s => rfl) fun ledger => hbind (fun s => rfl) fun touched => fun s => rfl
  have hgate : Call.Moves (fun s s' : Session W =>
      s'.ledger.control.ledgerId = s.ledger.control.ledgerId) (do
      let ledger ← Loop.ledger
      let gateResult ← Call.ofExcept (runGate ledger.toDoc (gate.getD defaultGate))
      return (⟨ledger, gateResult⟩ : RunResult) : Loop W RunResult) :=
    hbind (fun s => rfl) fun ledger => hbind (fun s => rfl) fun gateResult => fun s => rfl
  rw [land]
  refine hbind (fun s => rfl) fun changed => ?_
  cases changed with
  | false => exact hgate
  | true => exact hbind hcommit fun _ => hgate

lemma landSigned_ledgerId {key branch message : String} {repo : Repo W} {w : W} {L L' : Ledger}
    {r : Except PyErr Unit} (hland : landSigned key h repo branch message w L = (r, L')) :
    L'.control.ledgerId = L.control.ledgerId := by
  have hkeep := @land_ledgerId _ _ h repo branch message (some defaultGate) ⟨L, w, []⟩
  rw [landSigned] at hland
  split at hland
  · rename_i e s heq
    rw [heq] at hkeep
    cases hland
    exact hkeep
  · rename_i res s heq
    rw [heq] at hkeep
    split at hland
    · cases hland
      exact hkeep
    · obtain rfl := (Prod.mk.inj hland).2
      exact hkeep

/-- The ledger `run` saves is the one of its plan. -/
lemma runSaved_ledgerId {manifest : Manifest} {w : W} {landing : Option (Landing W)} {L : Ledger}
    (hsaved : runSaved h cfg manifest w landing = some L) :
    L.control.ledgerId = "LEDGER-" ++ manifest.control.sourceIplan.pyStr := by
  rw [runSaved] at hsaved
  split at hsaved
  · cases hsaved
  · rename_i res w' fx hrun
    obtain ⟨L₀, state, hstart, hdrive⟩ := run_spec h cfg hrun
    have hid : res.ledger.control.ledgerId = "LEDGER-" ++ manifest.control.sourceIplan.pyStr :=
      hdrive.ledgerId.trans (startLedger_ledgerId hstart)
    split at hsaved
    · cases hsaved
      exact hid
    · split at hsaved
      · split at hsaved
        · rename_i L' hland
          cases hsaved
          exact (landSigned_ledgerId hland).trans hid
        · cases hsaved
      · cases hsaved
        exact hid

end Commands

/-- A command holds what it loaded: the ledger it is about, or none. -/
def SavingCommand.Holds (cmd : SavingCommand) (base : Option Ledger) : Prop :=
  ∀ L, base = some L → L.control.ledgerId = cmd.ledgerId

/-- **What a command saves** is the ledger it is about, and continues the log it has loaded. -/
lemma SavingCommand.saved_spec {cmd : SavingCommand} {base : Option Ledger} {L : Ledger}
    (hbase : cmd.Holds base) (hsaved : cmd.saved base = some L) :
    L.control.ledgerId = cmd.ledgerId ∧ loadedLog base <+: L.executionLog := by
  cases cmd with
  | run h cfg manifest w landing =>
      cases base with
      | some B => cases hsaved
      | none => exact ⟨runSaved_ledgerId hsaved, List.nil_prefix⟩
  | resume h cfg manifest w =>
      cases base with
      | none => cases hsaved
      | some B =>
          obtain ⟨res, hres, rfl⟩ := Option.map_eq_some_iff.mp hsaved
          obtain ⟨r, state, L', fx, w', hdrive, hexec, hends⟩ :=
            resume_spec h cfg manifest ⟨B, w, []⟩
          rw [hexec] at hres
          obtain ⟨rfl, -⟩ := hends res (eq_ok_of_toOption hres)
          refine ⟨hdrive.ledgerId.trans (hbase B rfl), ?_⟩
          obtain ⟨fresh, hfresh, -⟩ := hdrive.appends.unsigned
          exact ⟨fresh, hfresh.symm⟩
  | resolve ledgerId blockerId decision atTime actor =>
      cases base with
      | none => cases hsaved
      | some B =>
          have hres := eq_ok_of_toOption hsaved
          obtain ⟨fresh, hfresh, -⟩ := (appends_resolve hres).unsigned
          refine ⟨?_, fresh, hfresh.symm⟩
          obtain ⟨resolution, subject, ⟨rfl, -⟩ | ⟨-, b, -, rfl⟩⟩ := resolveBlocker_cases hres
          · exact hbase B rfl
          · exact hbase B rfl

/-! ### Stored logs -/

/-- What is stored under an id has that id, and so has what a command has loaded. -/
structure Store.Sound (s : Store) : Prop where
  stored : ∀ ledgerId L, s.stored ledgerId = some L → L.control.ledgerId = ledgerId
  running : ∀ p cmd base, s.running p = some (cmd, base) → cmd.Holds base

lemma loadLedger_eq {stored : String → Option Ledger} {ledgerId : String} {L : Ledger}
    (h : loadLedger stored ledgerId = some L) : stored ledgerId = some L := by
  rw [loadLedger] at h
  split at h
  · cases h
  · rename_i L' hL'
    split at h
    · cases h
      exact hL'
    · cases h

lemma SavingCommand.load_holds {s : Store} (hs : s.Sound) {cmd : SavingCommand}
    {base : Option Ledger} (hload : cmd.load s.stored = some base) : cmd.Holds base := by
  intro L hL
  subst hL
  cases cmd with
  | run h cfg manifest w landing => cases hload
  | resume h cfg manifest w =>
      obtain ⟨L', hL', heq⟩ := Option.map_eq_some_iff.mp hload
      cases heq
      exact hs.stored _ _ (loadLedger_eq hL')
  | resolve ledgerId blockerId decision atTime actor =>
      obtain ⟨L', hL', heq⟩ := Option.map_eq_some_iff.mp hload
      cases heq
      exact hs.stored _ _ (loadLedger_eq hL')

omit [PyRuntime] in
lemma Store.Grows.refl (s : Store) : s.Grows s := fun _ L hL => ⟨L, hL, List.prefix_rfl⟩

omit [PyRuntime] in
lemma Store.Grows.trans {s t u : Store} (h : s.Grows t) (h' : t.Grows u) : s.Grows u := by
  intro ledgerId L hL
  obtain ⟨L₁, hL₁, hgrown⟩ := h ledgerId L hL
  obtain ⟨L₂, hL₂, hmore⟩ := h' ledgerId L₁ hL₁
  exact ⟨L₂, hL₂, hgrown.trans hmore⟩

omit [PyRuntime] in
lemma Store.put_stored (s : Store) (L : Ledger) :
    (s.put L).stored L.control.ledgerId = some L := by
  simp [Store.put]

/-- Saving a ledger whose log continues the one stored under its id. -/
lemma Store.put_spec {s : Store} (hs : s.Sound) {L : Ledger}
    (hlog : ∀ B, s.stored L.control.ledgerId = some B → B.executionLog <+: L.executionLog) :
    (s.put L).Sound ∧ s.Grows (s.put L) := by
  have hself := s.put_stored L
  have hother : ∀ ledgerId, ledgerId ≠ L.control.ledgerId →
      (s.put L).stored ledgerId = s.stored ledgerId := fun _ hne => Function.update_of_ne hne ..
  refine ⟨⟨fun ledgerId B hB => ?_, hs.running⟩, fun ledgerId B hB => ?_⟩
  · by_cases hid : ledgerId = L.control.ledgerId
    · subst hid
      rw [hself] at hB
      cases hB
      rfl
    · exact hs.stored ledgerId B (hother ledgerId hid ▸ hB)
  · by_cases hid : ledgerId = L.control.ledgerId
    · subst hid
      exact ⟨L, hself, hlog B hB⟩
    · exact ⟨B, (hother ledgerId hid).trans hB, List.prefix_rfl⟩

lemma Store.after_load {s : Store} {p : ℕ} {cmd : SavingCommand} {base : Option Ledger}
    (hfree : s.running p = none) (hload : cmd.load s.stored = some base) :
    s.after (.load p cmd)
      = { s with running := Function.update s.running p (some (cmd, base)) } := by
  rw [Store.after, hfree, hload]

lemma Store.after_save {s : Store} {p : ℕ} {cmd : SavingCommand} {base : Option Ledger} {L : Ledger}
    (hrunning : s.running p = some (cmd, base)) (hsaved : cmd.saved base = some L) :
    s.after (.save p) = Store.put { s with running := Function.update s.running p none } L := by
  rw [Store.after, hrunning]
  dsimp only
  rw [hsaved]

/-- **One event**: a load, or the save of a command that has loaded all that is stored. -/
lemma Store.after_spec {s : Store} {event : StoreEvent} (hs : s.Sound) (hfresh : event.Fresh s) :
    (s.after event).Sound ∧ s.Grows (s.after event) := by
  cases event with
  | load p cmd =>
      rw [Store.after]
      split
      · rename_i base _ hload
        refine ⟨⟨hs.stored, fun q cmd' base' hq => ?_⟩, Store.Grows.refl s⟩
        by_cases hqp : q = p
        · subst hqp
          obtain ⟨rfl, rfl⟩ : cmd = cmd' ∧ base = base' := by
            simpa [Function.update_self] using hq
          exact SavingCommand.load_holds hs hload
        · exact hs.running q cmd' base' (by simpa [Function.update_of_ne hqp] using hq)
      · exact ⟨hs, Store.Grows.refl s⟩
  | save p =>
      rw [Store.after]
      split
      · exact ⟨hs, Store.Grows.refl s⟩
      · rename_i cmd base hrunning
        have hended : Store.Sound { s with running := Function.update s.running p none } := by
          refine ⟨hs.stored, fun q cmd' base' hq => ?_⟩
          by_cases hqp : q = p
          · subst hqp
            simp [Function.update_self] at hq
          · exact hs.running q cmd' base' (by simpa [Function.update_of_ne hqp] using hq)
        cases hsaved : cmd.saved base with
        | none => exact ⟨hended, Store.Grows.refl s⟩
        | some L =>
            obtain ⟨hid, hlog⟩ := SavingCommand.saved_spec (hs.running p cmd base hrunning) hsaved
            exact Store.put_spec hended fun B hB =>
              (hfresh cmd base B hrunning (hid ▸ hB)).trans hlog

/-- **Stored logs only grow, where every save is fresh.**  Take any commands on one store, their
loads and saves in any order, such that what is stored at a save of a command under its ledger's id
has no events but those the command has loaded.  Then every save continues the log stored before it,
and from any moment on no stored event is dropped. -/
theorem stored_grows {moves : List (Store × StoreEvent)} {s : Store}
    (hrun : StoreHistory moves s) (hfresh : ∀ m ∈ moves, m.2.Fresh m.1) :
    ∀ m ∈ moves, m.1.Grows (m.1.after m.2) ∧ m.1.Grows s := by
  have hsound : ∀ m ∈ moves, m.1.Sound := (hrun.invariant_of
    ⟨fun _ _ h => (by cases h), fun _ _ _ h => (by cases h)⟩
    fun t event t' hmem ht hstep => hstep ▸ (Store.after_spec ht (hfresh _ hmem)).1).1
  have hone : ∀ m ∈ moves, m.1.Grows (m.1.after m.2) := fun m hm =>
    (Store.after_spec (hsound m hm) (hfresh m hm)).2
  have hleads := @Plays.leads _ _ _ _ _ _ Store.Grows hrun Store.Grows.trans
    fun t event t' hmem hstep => by
      rw [← hstep]
      exact hone _ hmem
  exact fun m hm => ⟨hone m hm, hleads m hm⟩

end Runtime

section Example

attribute [local instance] cpython

/-- `run` of a plan with one task. -/
private def runOneTask : SavingCommand :=
  .run (mockHost [] scriptNow) scriptConfig (scriptManifest [("T1", [])]) (.fresh []) none

/-- `resolve` of a blocker that is not there, at a time. -/
private def approveAt (atTime : String) : SavingCommand :=
  .resolve "LEDGER-IPLAN-1" "B-1" "approve" atTime scriptOperator

/-- The run saves a chained ledger. -/
private lemma runOneTask_saved : ∃ L, runOneTask.saved none = some L
    ∧ L.control.ledgerId = "LEDGER-IPLAN-1" ∧ verifyChain L.logDoc = .ok true := by
  obtain ⟨L₀, hstart, hends⟩ : ∃ L₀, (startLedger (scriptManifest [("T1", [])])).toOption = some L₀
      ∧ (driveSession (mockHost [] scriptNow) scriptConfig (scriptManifest [("T1", [])]) []
        ⟨L₀, .fresh [], []⟩).1.isSome = true := by
    refine (Option.any_eq_true _ _).mp ?_
    decide +kernel
  obtain ⟨state, hstate⟩ := Option.isSome_iff_exists.mp hends
  obtain ⟨res, w', fx, hrun⟩ : ∃ res w' fx, run (mockHost [] scriptNow) scriptConfig
      (scriptManifest [("T1", [])]) (.fresh []) = (.ok res, w', fx) := by
    obtain ⟨res, hrun, -⟩ := run_returns (mockHost [] scriptNow) scriptConfig
      (scriptManifest_roots _) (eq_ok_of_toOption hstart) (Prod.ext hstate rfl)
    exact ⟨res, _, _, hrun⟩
  have hsaved : runSaved (mockHost [] scriptNow) scriptConfig (scriptManifest [("T1", [])])
      (.fresh []) none = some res.ledger := by
    rw [runSaved, hrun]
  have hid : "LEDGER-" ++ (scriptManifest [("T1", [])]).control.sourceIplan.pyStr
      = "LEDGER-IPLAN-1" := by decide +kernel
  refine ⟨res.ledger, ?_, (runSaved_ledgerId hsaved).trans hid, ?_⟩
  · rw [runOneTask, SavingCommand.saved, hsaved]
  rw [Ledger.logDoc]
  exact (verifyChain_toVal _).mpr (chained_run hrun)

/-- What an approval of a blocker that is not there leaves. -/
private lemma approveAt_saved (L : Ledger) (atTime : String) : ∃ L' subject,
    (approveAt atTime).saved (some L) = some L' ∧ L'.control = L.control ∧ L'.executionLog
      = appendEvent L.executionLog (resolutionEvent L.isolationScope subject atTime) := by
  have hauth : authorize scriptOperator "approve" = .ok () := by decide
  rw [approveAt, SavingCommand.saved, resolveBlocker, if_neg (by decide), hauth]
  cases L.blocker? "B-1" with
  | none => exact ⟨_, .none, rfl, rfl, rfl⟩
  | some b => exact ⟨_, .str b.taskId, rfl, rfl, rfl⟩

/-- A command that is given what is stored loads it. -/
private lemma approveAt_load {s : Store} {L : Ledger} {atTime : String}
    (hL : s.stored "LEDGER-IPLAN-1" = some L) (hchain : verifyChain L.logDoc = .ok true) :
    (approveAt atTime).load s.stored = some (some L) := by
  rw [approveAt, SavingCommand.load, loadLedger, hL]
  dsimp only
  rw [hchain]
  rfl

/-- A command that is past its load. -/
private lemma running_load {s : Store} {p : ℕ} {cmd : SavingCommand} {base : Option Ledger}
    (hfree : s.running p = none) (hload : cmd.load s.stored = some base) :
    (s.after (.load p cmd)).running p = some (cmd, base) := by
  simp [Store.after_load hfree hload]

/-- The store behind the run. -/
private lemma runOnce_history : ∃ moves s L, StoreHistory moves s
    ∧ (∀ m ∈ moves, m.2.Fresh m.1) ∧ s.stored "LEDGER-IPLAN-1" = some L ∧ (∀ p, s.running p = none)
    ∧ L.control.ledgerId = "LEDGER-IPLAN-1" ∧ verifyChain L.logDoc = .ok true := by
  obtain ⟨L, hsaved, hid, hchain⟩ := runOneTask_saved
  have hload := @Store.after_load _ .empty 0 runOneTask none rfl rfl
  have hrunning := @running_load .empty 0 runOneTask none rfl rfl
  have hsave := Store.after_save hrunning hsaved
  have hhistory : StoreHistory [(.empty, .load 0 runOneTask),
      (Store.empty.after (.load 0 runOneTask), .save 0)] _ :=
    (Plays.start.move rfl).move rfl
  refine ⟨_, _, L, hhistory, fun m hm => ?_, ?_, fun p => ?_, hid, hchain⟩
  · rcases List.mem_pair.mp hm with rfl | rfl
    · trivial
    · intro cmd base L' _ hL'
      rw [hload] at hL'
      cases hL'
  · rw [hsave, ← hid]
    exact Store.put_stored _ L
  · rw [hsave, hload]
    by_cases hp : p = 0 <;> simp [Store.put, Store.empty, hp]

/-- **An approval of what is stored** grows the log. -/
theorem stored_grows_approved :
    ∃ (moves : List (Store × StoreEvent)) (s s' : Store) (L L' : Ledger), StoreHistory moves s'
      ∧ (s, StoreEvent.save 1) ∈ moves ∧ s.Grows s' ∧ s.stored "LEDGER-IPLAN-1" = some L
      ∧ s'.stored "LEDGER-IPLAN-1" = some L'
      ∧ L'.executionLog.length = L.executionLog.length + 1 := by
  obtain ⟨moves, s, L, hhistory, hfresh, hstored, hfree, hid, hchain⟩ := runOnce_history
  obtain ⟨L', subject, hsaved, hcontrol, hlog⟩ := approveAt_saved L "2026-06-26T01:00:00Z"
  have hload := @approveAt_load s L "2026-06-26T01:00:00Z" hstored hchain
  obtain ⟨s₁, hs₁⟩ : ∃ s₁, s.after (.load 1 (approveAt "2026-06-26T01:00:00Z")) = s₁ := ⟨_, rfl⟩
  have h₁ := hs₁ ▸ Store.after_load (hfree 1) hload
  have hstored₁ : s₁.stored "LEDGER-IPLAN-1" = some L := by rw [h₁, hstored]
  have hrunning₁ : s₁.running 1 = some (approveAt "2026-06-26T01:00:00Z", some L) :=
    hs₁ ▸ running_load (hfree 1) hload
  have hrun₁ : StoreHistory (moves ++ [(s, .load 1 (approveAt "2026-06-26T01:00:00Z"))]) s₁ :=
    Plays.move hhistory hs₁
  have hrun₂ : StoreHistory _ (s₁.after (.save 1)) := Plays.move hrun₁ rfl
  have hgrows := stored_grows hrun₂ (fun m hm => by
    rcases List.mem_append.mp hm with hm | hm
    · rcases List.mem_append.mp hm with hm | hm
      · exact hfresh m hm
      · rw [List.mem_singleton.mp hm]
        trivial
    · rw [List.mem_singleton.mp hm]
      intro cmd base B hcmd hB
      rw [hrunning₁] at hcmd
      cases hcmd
      obtain rfl := Option.some.inj (hstored₁.symm.trans hB)
      exact List.prefix_rfl) (s₁, .save 1) (by simp)
  refine ⟨_, s₁, _, L, L', hrun₂, by simp, hgrows.2, hstored₁, ?_, ?_⟩
  · rw [Store.after_save hrunning₁ hsaved, ← hid, ← hcontrol]
    exact Store.put_stored _ L'
  · rw [hlog, length_appendEvent]

/-- **A lost approval**: two approvals load the ledger of a run, and save one after the other; the
event of the first is stored no more. -/
theorem approval_lost :
    ∃ (moves : List (Store × StoreEvent)) (s : Store), StoreHistory moves s
      ∧ ∃ m ∈ moves, ¬ m.1.Grows (m.1.after m.2) := by
  obtain ⟨moves, s, L, hhistory, -, hstored, hfree, hid, hchain⟩ := runOnce_history
  obtain ⟨L₁, subject₁, hsaved₁, hcontrol₁, hlog₁⟩ := approveAt_saved L "2026-06-26T01:00:00Z"
  obtain ⟨L₂, subject₂, hsaved₂, hcontrol₂, hlog₂⟩ := approveAt_saved L "2026-06-26T02:00:00Z"
  -- the two commands load, then save
  obtain ⟨s₁, hs₁⟩ : ∃ s₁, s.after (.load 1 (approveAt "2026-06-26T01:00:00Z")) = s₁ := ⟨_, rfl⟩
  have h₁ := hs₁ ▸ Store.after_load (hfree 1) (approveAt_load hstored hchain)
  have hfree₁ : s₁.running 2 = none := by simp [h₁, hfree]
  have hstored₁ : s₁.stored "LEDGER-IPLAN-1" = some L := by rw [h₁, hstored]
  obtain ⟨s₂, hs₂⟩ : ∃ s₂, s₁.after (.load 2 (approveAt "2026-06-26T02:00:00Z")) = s₂ := ⟨_, rfl⟩
  have h₂ := hs₂ ▸ Store.after_load hfree₁ (approveAt_load hstored₁ hchain)
  have hrunning₂ : s₂.running 1 = some (approveAt "2026-06-26T01:00:00Z", some L) := by
    simp [h₂, h₁]
  obtain ⟨s₃, hs₃⟩ : ∃ s₃, s₂.after (.save 1) = s₃ := ⟨_, rfl⟩
  have h₃ := hs₃ ▸ Store.after_save hrunning₂ hsaved₁
  have hrunning₃ : s₃.running 2 = some (approveAt "2026-06-26T02:00:00Z", some L) := by
    simp [h₃, h₂, Store.put]
  have hbefore : s₃.stored "LEDGER-IPLAN-1" = some L₁ := by
    rw [h₃, ← hid, ← hcontrol₁]
    exact Store.put_stored _ L₁
  have hafter : (s₃.after (.save 2)).stored "LEDGER-IPLAN-1" = some L₂ := by
    rw [Store.after_save hrunning₃ hsaved₂, ← hid, ← hcontrol₂]
    exact Store.put_stored _ L₂
  have hrun : StoreHistory _ (s₃.after (.save 2)) :=
    Plays.move (Plays.move (Plays.move (Plays.move hhistory hs₁) hs₂) hs₃) rfl
  refine ⟨_, _, hrun, (s₃, .save 2), List.mem_append_right _ (List.mem_singleton_self _),
    fun hgrows => ?_⟩
  obtain ⟨L', hL', hprefix⟩ := hgrows _ _ hbefore
  obtain rfl := Option.some.inj (hafter.symm.trans hL')
  have hsame := hprefix.eq_of_length (by rw [hlog₁, hlog₂, length_appendEvent, length_appendEvent])
  rw [hlog₁, hlog₂] at hsame
  have hlast := congrArg (fun log => log.getLast?.map (·.atTime)) hsame
  simp [appendEvent, resolutionEvent] at hlast

end Example

end IplanRunner
