import Mathlib.Logic.Relation
import IplanRunner.Engine.Record
import IplanRunner.Orchestrator.Landing
import IplanRunner.Runs.Script
import IplanRunner.Security.Signing

/-!
The log only grows, and stays a chain, whatever is done to a ledger.

* `Extends`: a log continues another one, signatures aside, and is a chain when that one is.
* `Operation`: what the run loop, an operator, a landing, an agent and a signer can do to a ledger,
  the calls that raise included.
* `log_append_only`: every operation extends the log.
-/

namespace IplanRunner

open Foundation

/-- A logged event without its signature. -/
def Event.bare (e : Event) : Event := { e with signature := none }

section Runtime

variable [PyRuntime]

/-! ### Extending a log -/

/-- A chain does not look at signatures. -/
lemma chainedFrom_bare (prevHash : Option String) (index : ℕ) (log : List Event) :
    ChainedFrom prevHash index (log.map Event.bare) ↔ ChainedFrom prevHash index log := by
  induction log generalizing prevHash index with
  | nil => rfl
  | cons e rest ih =>
      have hhead : Continues prevHash index e.bare ↔ Continues prevHash index e :=
        ⟨fun h => ⟨h.sequence, h.previous, h.hash⟩, fun h => ⟨h.sequence, h.previous, h.hash⟩⟩
      rw [List.map_cons, ChainedFrom, ChainedFrom, hhead]
      exact and_congr_right fun _ => ih (some e.eventHash.pyStr) (index + 1)

/-- A log continues another one, signatures aside, and is a chain when that one is. -/
structure Extends (log log' : List Event) : Prop where
  grows : log.map Event.bare <+: log'.map Event.bare
  chained : Chained log → Chained log'

lemma Extends.refl (log : List Event) : Extends log log := ⟨List.prefix_rfl, id⟩

lemma Extends.trans {a b c : List Event} (h : Extends a b) (h' : Extends b c) : Extends a c :=
  ⟨h.grows.trans h'.grows, h'.chained ∘ h.chained⟩

lemma extends_appendEvent (log : List Event) (e : EventBody) : Extends log (appendEvent log e) :=
  ⟨(prefix_appendEvent log e).map Event.bare, fun h => h.appendEvent e⟩

lemma extends_foldl (events : List EventBody) (log : List Event) :
    Extends log (events.foldl appendEvent log) := by
  induction events generalizing log with
  | nil => exact Extends.refl log
  | cons e rest ih => exact (extends_appendEvent log e).trans (ih _)

/-- Changing signatures only. -/
lemma extends_of_bare {log log' : List Event} (h : log.map Event.bare = log'.map Event.bare) :
    Extends log log' := by
  refine ⟨h ▸ List.prefix_rfl, fun hc => ?_⟩
  rw [Chained, ← chainedFrom_bare, ← h, chainedFrom_bare]
  exact hc

/-- Signing changes signatures only, also when it stops at an event. -/
lemma extends_sign (key : String) (log : List Event) :
    Extends log (updateEach (Event.sign key) log).2 := by
  have hone : ∀ {e e' : Event}, e' = e ∨ Event.sign key e = .ok e' → e.bare = e'.bare := by
    rintro e e' (rfl | h)
    · rfl
    · obtain ⟨s, -, hs⟩ := except_bind_eq_ok.mp h
      cases hs
      rfl
  have hall := updateEach_forall (Event.sign key) log
  refine extends_of_bare ?_
  generalize (updateEach (Event.sign key) log).2 = log' at hall
  induction hall with
  | nil => rfl
  | cons hx _ ih => rw [List.map_cons, List.map_cons, hone hx, ih]

/-- A log continues another one by events that are appended, and left unsigned. -/
def Appends (log log' : List Event) : Prop :=
  ∃ events : List EventBody, log' = events.foldl appendEvent log

lemma Appends.refl (log : List Event) : Appends log log := ⟨[], rfl⟩

lemma Appends.trans {a b c : List Event} (h : Appends a b) (h' : Appends b c) : Appends a c := by
  obtain ⟨events, rfl⟩ := h
  obtain ⟨more, rfl⟩ := h'
  exact ⟨events ++ more, List.foldl_append.symm⟩

lemma appends_appendEvent (log : List Event) (e : EventBody) : Appends log (appendEvent log e) :=
  ⟨[e], rfl⟩

lemma Appends.extends {log log' : List Event} (h : Appends log log') : Extends log log' := by
  obtain ⟨events, rfl⟩ := h
  exact extends_foldl events log

/-- The events appended to a log carry no signature. -/
lemma Appends.unsigned {log log' : List Event} (h : Appends log log') :
    ∃ fresh, log' = log ++ fresh ∧ ∀ e ∈ fresh, e.signature = none := by
  obtain ⟨events, rfl⟩ := h
  induction events generalizing log with
  | nil => exact ⟨[], by simp, by simp⟩
  | cons e rest ih =>
      obtain ⟨fresh, hfresh, hnone⟩ := @ih (appendEvent log e)
      rw [List.foldl_cons, hfresh, appendEvent, List.append_assoc]
      refine ⟨_, rfl, fun e' he' => ?_⟩
      rcases List.mem_append.mp he' with he' | he'
      · rw [List.mem_singleton.mp he']
      · exact hnone e' he'

/-- A log that continues another one is longer, or the same. -/
lemma Appends.length_lt_iff {log log' : List Event} (h : Appends log log') :
    log.length < log'.length ↔ log' ≠ log := by
  obtain ⟨fresh, rfl, -⟩ := h.unsigned
  rw [List.length_append, Ne, List.append_right_eq_self, ← List.length_eq_zero_iff]
  omega

/-! ### The calls of the run loop -/

section Loop

variable {W α β : Type} (h : Host W) (cfg : RunConfig)

/-- A call appends to the log, raised or not. -/
def LogsOnly (m : Loop W α) : Prop :=
  Call.Moves (fun s s' => Appends s.ledger.executionLog s'.ledger.executionLog) m

omit h cfg in
lemma logsOnly_of_keep {m : Loop W α} (hm : ∀ s, (m s).2.ledger.executionLog
    = s.ledger.executionLog) : LogsOnly m := by
  intro s
  rw [hm s]
  exact Appends.refl _

omit h cfg in
lemma LogsOnly.bind {m : Loop W α} {f : α → Loop W β} (hm : LogsOnly m)
    (hf : ∀ a, LogsOnly (f a)) : LogsOnly (m >>= f) :=
  Call.Moves.bind (fun h h' => h.trans h') hm hf

omit h cfg in
/-- A change of the ledger that appends to its log. -/
lemma logsOnly_update {f : Ledger → Ledger}
    (hf : ∀ L, Appends L.executionLog (f L).executionLog) :
    LogsOnly (Loop.update f : Loop W Unit) :=
  fun s => hf s.ledger

lemma logsOnly_runTask (node : TaskNode) : LogsOnly (runTask h cfg node) := by
  intro s
  obtain ⟨r, δ, fx, w, -, hexec⟩ := runTask_spec h cfg node s
  rw [hexec]
  exact ⟨δ.events, rfl⟩

lemma logsOnly_blockUnmetDeps (node : TaskNode) : LogsOnly (blockUnmetDeps h node) := by
  rw [blockUnmetDeps]
  refine (logsOnly_of_keep fun _ => rfl).bind fun blockerId => ?_
  refine (logsOnly_of_keep fun _ => rfl).bind fun atTime => ?_
  exact logsOnly_update fun L => appends_appendEvent _ _

omit h cfg in
lemma logsOnly_taskStatus (taskId : String) : LogsOnly (taskStatus taskId : Loop W TaskStatus) := by
  refine logsOnly_of_keep fun s => ?_
  rw [taskStatus, Loop.bind_ledger]
  cases s.ledger.task? taskId <;> rfl

lemma logsOnly_turn (node : TaskNode) (taskId : String) (completed : List String) :
    LogsOnly (turn h cfg node taskId completed) := by
  rw [turn]
  split
  · refine (logsOnly_runTask h cfg node).bind fun _ => (logsOnly_taskStatus taskId).bind fun st =>
      ?_
    split <;> exact logsOnly_of_keep fun _ => rfl
  · exact (logsOnly_blockUnmetDeps h node).bind fun _ => logsOnly_of_keep fun _ => rfl

variable {h cfg} in
lemma LoopRun.appends {graph : List TaskNode} {order completed : List String} {L L' : Ledger}
    {r : Except PyErr RunState} {fx : List Effect}
    (hrun : LoopRun h cfg graph order completed L r L' fx) :
    Appends L.executionLog L'.executionLog := by
  induction hrun with
  | finished => exact Appends.refl _
  | unknown _ => exact Appends.refl _
  | skip _ _ ih => exact ih
  | paused _ _ _ => exact Appends.refl _
  | aborted _ _ _ => exact Appends.refl _
  | noNode _ _ _ => exact Appends.refl _
  | raised _ _ _ _ => exact ⟨_, rfl⟩
  | @turned _ _ _ _ _ _ δ _ _ _ _ _ _ _ _ ih => exact Appends.trans ⟨δ.events, rfl⟩ ih

variable {h cfg} in
lemma DriveRun.appends {manifest : Manifest} {completed : List String} {L L' : Ledger}
    {state : Option RunState} {fx : List Effect}
    (hrun : DriveRun h cfg manifest completed L state L' fx) :
    Appends L.executionLog L'.executionLog := by
  cases hrun with
  | noOrder _ => exact Appends.refl _
  | raised _ hloop => exact hloop.appends
  | ended _ hloop => exact hloop.appends

variable {h cfg} in
/-- The log of a run is a chain. -/
lemma chained_run {manifest : Manifest} {w w' : W} {res : RunResult} {fx : List Effect}
    (hrun : run h cfg manifest w = (.ok res, w', fx)) : Chained res.ledger.executionLog := by
  obtain ⟨L, state, hstart, hdrive⟩ := run_spec h cfg hrun
  refine hdrive.appends.extends.chained ?_
  rw [(startLedger_new hstart).log]
  trivial

lemma logsOnly_drive (manifest : Manifest) (completed : List String) :
    LogsOnly (drive h cfg manifest completed) := by
  rw [drive]
  refine (logsOnly_of_keep fun _ => rfl).bind fun order => ?_
  refine LogsOnly.bind (fun s => ?_) fun runState => ?_
  · obtain ⟨r, L', fx, w, hrun, hexec⟩ := driveLoop_spec h cfg manifest.taskGraph order completed s
    rw [hexec]
    exact hrun.appends
  · refine (logsOnly_update (f := (·.setRunState runState)) fun L => Appends.refl _).bind fun _ =>
      ?_
    refine (logsOnly_update (f := reconcile) fun L => Appends.refl _).bind fun _ => ?_
    refine (logsOnly_of_keep fun _ => rfl).bind fun ledger => ?_
    exact (logsOnly_of_keep fun _ => rfl).bind fun _ => logsOnly_of_keep fun _ => rfl

lemma logsOnly_resume (manifest : Manifest) : LogsOnly (resume h cfg manifest) := by
  rw [resume]
  refine (logsOnly_of_keep fun _ => rfl).bind fun ledger => ?_
  exact (logsOnly_update (f := (·.setRunState .running)) fun L => Appends.refl _).bind fun _ =>
    logsOnly_drive h cfg manifest (completedIds ledger)

lemma logsOnly_land (repo : Repo W) (branch message : String) (gate : Option Gate) :
    LogsOnly (land h repo branch message gate) := by
  have hcommit : LogsOnly (commitRun h repo branch message) := by
    rw [commitRun]
    refine (logsOnly_of_keep fun _ => rfl).bind fun sha => ?_
    refine (logsOnly_of_keep fun _ => rfl).bind fun atTime => ?_
    refine (logsOnly_of_keep fun _ => rfl).bind fun ledger => ?_
    refine (logsOnly_of_keep fun _ => rfl).bind fun touched => ?_
    exact logsOnly_update fun L => appends_appendEvent _ _
  have hgate : LogsOnly (do
      let ledger ← Loop.ledger
      let gateResult ← Call.ofExcept (runGate ledger.toDoc (gate.getD defaultGate))
      return (⟨ledger, gateResult⟩ : RunResult) : Loop W RunResult) := by
    refine (logsOnly_of_keep fun _ => rfl).bind fun ledger => ?_
    exact (logsOnly_of_keep fun _ => rfl).bind fun _ => logsOnly_of_keep fun _ => rfl
  rw [land]
  refine (logsOnly_of_keep fun _ => rfl).bind fun changed => ?_
  cases changed with
  | false => exact hgate
  | true => exact hcommit.bind fun _ => hgate

/-- A decision appends its event. -/
lemma appends_resolve {L L' : Ledger} {blockerId decision atTime : String} {actor : Actor}
    (hres : resolveBlocker L blockerId decision actor atTime = .ok L') :
    Appends L.executionLog L'.executionLog := by
  obtain ⟨resolution, subject, ⟨rfl, -⟩ | ⟨-, b, -, rfl⟩⟩ := resolveBlocker_cases hres
  · exact appends_appendEvent _ _
  · exact appends_appendEvent _ _

end Loop

/-! ### Operations -/

/-- What can be done to a ledger, with the ledger it leaves: a call that raises counts too, as what
it changed stays.  A decision that is refused changes nothing. -/
inductive Operation : Ledger → Ledger → Prop
  /-- A task of the loop is taken up. -/
  | turn {W : Type} (h : Host W) (cfg : RunConfig) (node : TaskNode) (taskId : String)
      (completed : List String) (s : Session W) :
      Operation s.ledger (turn h cfg node taskId completed s).2.ledger
  /-- `run` drives the ledger it starts from. -/
  | drive {W : Type} (h : Host W) (cfg : RunConfig) (manifest : Manifest)
      (completed : List String) (s : Session W) :
      Operation s.ledger (drive h cfg manifest completed s).2.ledger
  | resume {W : Type} (h : Host W) (cfg : RunConfig) (manifest : Manifest) (s : Session W) :
      Operation s.ledger (resume h cfg manifest s).2.ledger
  | resolve {L L' : Ledger} {blockerId decision : String} {actor : Actor} {atTime : String} :
      resolveBlocker L blockerId decision actor atTime = .ok L' → Operation L L'
  | land {W : Type} (h : Host W) (repo : Repo W) (branch message : String) (gate : Option Gate)
      (s : Session W) : Operation s.ledger (land h repo branch message gate s).2.ledger
  | transaction (L : Ledger) (txn : Dict) : Operation L (recordTransaction L txn)
  | touchedFile (L : Ledger) (taskId path atTime : Val) :
      Operation L (recordTouchedFile L taskId path atTime)
  | sign (L : Ledger) (key : String) : Operation L (L.sign key).2

/-- One operation extends the log. -/
lemma Operation.extends {L L' : Ledger} (hop : Operation L L') :
    Extends L.executionLog L'.executionLog := by
  cases hop with
  | turn h cfg node taskId completed s =>
      exact (logsOnly_turn h cfg node taskId completed s).extends
  | drive h cfg manifest completed s => exact (logsOnly_drive h cfg manifest completed s).extends
  | resume h cfg manifest s => exact (logsOnly_resume h cfg manifest s).extends
  | resolve hres => exact (appends_resolve hres).extends
  | land h repo branch message gate s => exact (logsOnly_land h repo branch message gate s).extends
  | transaction L txn => exact extends_appendEvent _ _
  | touchedFile L taskId path atTime => exact extends_appendEvent _ _
  | sign L key => exact extends_sign key _

/-- Any sequence of operations extends the log. -/
lemma extends_of_operations {L L' : Ledger} (hops : Relation.ReflTransGen Operation L L') :
    Extends L.executionLog L'.executionLog := by
  induction hops with
  | refl => exact Extends.refl _
  | tail _ hop ih => exact ih.trans hop.extends

/-- The log of a ledger as `verify_chain` reads it. -/
def Ledger.logDoc (L : Ledger) : List Val := L.executionLog.map Event.toVal

/-- **The log is append-only and chained**: an operation on a ledger whose log verifies keeps the
old log as a prefix, signatures aside, and the new log verifies; whatever sequence of operations
starts from an empty log ends in one that verifies. -/
theorem log_append_only :
    (∀ L L' : Ledger, verifyChain L.logDoc = .ok true → Operation L L' →
      L.executionLog.map Event.bare <+: L'.executionLog.map Event.bare
        ∧ verifyChain L'.logDoc = .ok true)
    ∧ ∀ L L' : Ledger, L.executionLog = [] → Relation.ReflTransGen Operation L L' →
      verifyChain L'.logDoc = .ok true := by
  constructor
  · intro L L' hchain hop
    have hext := hop.extends
    exact ⟨hext.grows, (verifyChain_toVal _).mpr (hext.chained ((verifyChain_toVal _).mp hchain))⟩
  · intro L L' hempty hops
    refine (verifyChain_toVal _).mpr ((extends_of_operations hops).chained ?_)
    rw [hempty]
    trivial

end Runtime

section Example

attribute [local instance] cpython

/-- An agent records a file and then a transaction without a task. -/
theorem log_append_only_recorded :
    ∃ L L', startLedger (scriptManifest [("T1", [])]) = .ok L
      ∧ L' = recordTouchedFile L (.str "T1") (.str "src/a.py") (.str scriptNow)
      ∧ verifyChain L'.logDoc = .ok true
      ∧ L'.executionLog.map Event.bare
          <+: (recordTransaction L' [("action", .str "deploy")]).executionLog.map Event.bare
      ∧ verifyChain (recordTransaction L' [("action", .str "deploy")]).logDoc = .ok true := by
  obtain ⟨L, hL⟩ : ∃ L, (startLedger (scriptManifest [("T1", [])])).toOption = some L :=
    Option.isSome_iff_exists.mp (by decide +kernel)
  have hstart : startLedger (scriptManifest [("T1", [])]) = .ok L := by
    cases h : startLedger (scriptManifest [("T1", [])]) with
    | error e => rw [h] at hL; simp [Except.toOption] at hL
    | ok L₀ => rw [h] at hL; simpa [Except.toOption] using hL
  have hempty := (startLedger_empty hstart).2.1
  have hchain := log_append_only.2 L _ hempty
    (.single (.touchedFile L (.str "T1") (.str "src/a.py") (.str scriptNow)))
  obtain ⟨hgrows, hverify⟩ := log_append_only.1 _ _ hchain
    (.transaction _ [("action", .str "deploy")])
  exact ⟨L, _, hstart, rfl, hchain, hgrows, hverify⟩

end Example

end IplanRunner
