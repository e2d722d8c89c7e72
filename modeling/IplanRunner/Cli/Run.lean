import IplanRunner.Cli.Stored
import IplanRunner.Handover.Lifetime
import IplanRunner.Intake.Payload

/-!
`iplan-claude run` from the file of a plan to the exit code (`main` in `cli/commands.py`,
`intake/reader.py`).

* `ingestIplan`: the manifest of a file, its fields looked up where the configuration says.
* `runCommand`: the validation, the run, the landing, the save and the receipt.
* `Ledger.Green`: everything is completed, accepted and inside the roots.
* `run_exit_exact`: the exit code says whether the saved ledger is green, and only a green run is
  landed.
-/

namespace IplanRunner

open Foundation

/-! ### Ingestion -/

/-- Where `Config` says that the fields of a plan are. -/
structure IntakeMap where
  mapSourceIplan : String := "document_control.iplan_id"
  mapVersion : String := "document_control.version"
  mapScore : String := "exec_ready.score"
  mapApproved : String := "exec_ready.approved"
  mapScope : String := "isolation_scope"
  mapTasks : String := "tasks"

/-- One step of `_dig`. -/
def digKey (node : Val) (key : String) : Val :=
  match node with
  | .dict kvs => Dict.get kvs key
  | _ => .none

/-- `_dig`. -/
def dig (doc : Dict) (dotted : String) : Val :=
  ((dotted.toList.splitOn '.').map String.ofList).foldl digKey (.dict doc)

/-- `isinstance(v, dict)`, with an empty dictionary in the place of anything else. -/
def dictOrEmpty : Val → Dict
  | .dict kvs => kvs
  | _ => []

/-- A node of the `task_graph` of a plan.  A `depends_on` that cannot be iterated, which the
validator raises on, raises here. -/
def graphNode (t : Val) : Except PyErr TaskNode := do
  let taskId ← t.get "task_id"
  let title ← t.get "title"
  let dependsOn ← t.get "depends_on" (.list [])
  let acceptance ← t.get "acceptance"
  return ⟨taskId, title, ← dependsOn.iter, acceptance⟩

section Runtime

variable [PyRuntime]

/-- `ingest_iplan`, on the text of the file. -/
def ingestIplan [YamlReader] (cfg : IntakeMap) (raw : String) : Except PyErr Manifest := do
  let checksum := "sha256:" ++ PyRuntime.sha256 raw
  let doc := dictOrEmpty (← YamlReader.safeLoad raw)
  let tasks := (dig doc cfg.mapTasks).orElse (.list [])
  let taskGraph ← (← tasks.iter).mapM graphNode
  return {
    schemaVersion := .str "1.0"
    control := {
      sourceIplan := dig doc cfg.mapSourceIplan
      sourceIplanVersion := dig doc cfg.mapVersion
      sourceIplanChecksum := .str checksum
      execReadyScore := dig doc cfg.mapScore
      approved := dig doc cfg.mapApproved }
    isolationScope := dictOrEmpty (dig doc cfg.mapScope)
    taskGraph := taskGraph }

/-! ### The command -/

/-- What `run` prints: the findings of a manifest it refuses, or the receipt. -/
inductive RunReport where
  | refused (findings : List Finding)
  | handedOver (gate : GateStatus) (receipt : Receipt)

/-- The exit code of the process, which is 1 when `main` raises. -/
def exitCode : Except PyErr RunReport → ℕ
  | .error _ => 1
  | .ok (.refused _) => 1
  | .ok (.handedOver _ receipt) => if receipt.status = .completed then 0 else 1

section Command

variable {W : Type} (h : Host W)

/-- The loop of a command that is given no control. -/
def Host.uncontrolled : Host W := { h with control := fun w => (.running, w) }

/-- What `ClaudeEngine()` passes to `run`. -/
def engineConfig : RunConfig := ⟨0, 0, defaultGate⟩

/-- `--land`, on the repository of the workspace and a branch: only what passed the gate and is
reconciled is landed. -/
def landIfGreen (landing : Option (Repo W × String)) (res : RunResult) (w : W) :
    Except PyErr RunResult × W :=
  match landing with
  | none => (.ok res, w)
  | some (repo, branch) =>
      if res.gateResult.status = .passed ∧ res.ledger.reconciliation.allowed = true then
        let r := land h repo branch ("iops: land " ++ res.ledger.control.ledgerId)
          (some defaultGate) ⟨res.ledger, w, []⟩
        (r.1, r.2.world)
      else (.ok res, w)

/-- `run` on a manifest that has passed the validation. -/
def runAccepted (manifest : Manifest) (landing : Option (Repo W × String)) (w : W) :
    Option Ledger × Except PyErr RunReport :=
  match run h.uncontrolled engineConfig manifest w with
  | (.error e, _, _) => (none, .error e)
  | (.ok res, w', _) =>
      match landIfGreen h landing res w' with
      | (.error e, _) => (none, .error e)
      | (.ok res, w'') =>
          let receipt := buildHandoverReceipt res.ledger.toDoc res.gateResult none (h.clock w'').1
          (some res.ledger, receipt.map (.handedOver res.gateResult.status))

/-- `iplan-claude run`, on the text of the plan: the ledger it saves, if any, and what it prints. -/
def runCommand [YamlReader] (raw : String) (landing : Option (Repo W × String)) (w : W) :
    Option Ledger × Except PyErr RunReport :=
  match ingestIplan {} raw with
  | .error e => (none, .error e)
  | .ok manifest =>
      match validateIntake manifest with
      | .error e => (none, .error e)
      | .ok findings =>
          if statusOf findings = .fail then (none, .ok (.refused findings))
          else runAccepted h manifest landing w

end Command

/-! ### Green ledgers -/

/-- Every task is completed and no blocker is open, every acceptance has passed and no touched path
is outside the roots. -/
structure Ledger.Green (L : Ledger) : Prop where
  completed : ∀ t ∈ L.taskLedger, t.status = .completed
  unblocked : L.blockers = []
  proven : ¬ L.Unproven
  inside : ¬ L.Strayed

/-- What was landed last, as the receipt names it. -/
def Ledger.head (L : Ledger) : Option CommitRef :=
  L.vcs.bind fun v => v.commits.getLast?.map fun c => ⟨.str c.sha, .str v.branch⟩

/-- A landed commit as a document. -/
def Commit.toVal (c : Commit) : Val :=
  .dict [("sha", .str c.sha), ("message", .str c.message), ("at", .str c.atTime),
    ("touched_paths", .list c.touchedPaths)]

omit [PyRuntime] in
/-- The receipt reads the last commit of a ledger. -/
lemma lastCommit_toDoc (L : Ledger) : lastCommit L.toDoc = .ok L.head := by
  cases hvcs : L.vcs with
  | none =>
      have hdoc : docDict L.toDoc "vcs" = .ok (.dict []) := by
        rw [Ledger.toDoc, hvcs]
        rfl
      rw [lastCommit, hdoc, Ledger.head, hvcs]
      rfl
  | some v =>
      have hdoc : docDict L.toDoc "vcs" = .ok v.toVal := by
        rw [Ledger.toDoc, hvcs]
        rfl
      have hcommits : v.toVal.get "commits" (.list [])
          = .ok (.list (v.commits.map Commit.toVal)) := rfl
      rw [lastCommit, hdoc, ok_bind, hcommits, ok_bind, Ledger.head, hvcs, Option.bind_some]
      cases v.commits with
      | nil => rfl
      | cons c cs =>
          have hsome : (Val.list ((c :: cs).map Commit.toVal)).truthy = true := rfl
          rw [hsome, Val.iter, ok_bind, List.getLast?_map]
          cases (c :: cs).getLast? <;> rfl

/-- The receipt of a ledger behind a gate. -/
def receiptOf (L : Ledger) (g : GateResult) (clock : String) : Receipt where
  receiptId := s!"RECEIPT-{L.control.ledgerId}"
  sourceIplan := L.control.sourceIplan
  sourceIplanVersion := L.control.sourceIplanVersion
  ledgerRef := .str L.control.ledgerId
  gateStatus := if g.status = .passed then .passed else .failed
  auditReportRef := .none
  commit := L.head
  createdAt := clock
  status :=
    if g.status = .passed ∧ L.reconciliation.allowed = true
        ∧ ∀ t ∈ L.taskLedger, t.status ≠ .pending ∧ t.status ≠ .inProgress then .completed
    else .aborted
  reconciled := L.reconciliation.allowed

/-- **Every ledger has a receipt.** -/
lemma buildHandoverReceipt_toDoc (L : Ledger) (g : GateResult) (clock : String) :
    buildHandoverReceipt L.toDoc g none clock = .ok (receiptOf L g clock) := by
  have haudit : ((Val.dict []).get "audit_control" (.dict []) : Except PyErr Val)
      = .ok (.dict []) := rfl
  rw [buildHandoverReceipt, toDoc_control, ok_bind, reconciled_toDoc, toDoc_tasks]
  simp [hasOpen_toVal, lastCommit_toDoc, LedgerControl.toVal, Val.get, pure, Except.pure, receiptOf,
    List.lookup_cons, and_assoc]

/-! ### What a landing leaves -/

section Landed

variable {L : Ledger} {branch : String} {commit : Commit}

/-- A landing names touched paths only. -/
lemma strayed_recordCommit (hpaths : landedPaths L.executionLog = .ok commit.touchedPaths)
    (h : (L.recordCommit branch commit).Strayed) : L.Strayed := by
  obtain ⟨e, he, p, hp, hout⟩ := h
  rw [Ledger.recordCommit_executionLog, appendEvent] at he
  rcases List.mem_append.mp he with hold | hnew
  · exact ⟨e, hold, p, hp, hout⟩
  · obtain rfl := List.mem_singleton.mp hnew
    obtain ⟨x, hx, rfl⟩ := List.mem_map.mp hp
    rw [landedPaths] at hpaths
    obtain ⟨all, hall, hsorted⟩ := except_bind_eq_ok.mp hpaths
    obtain ⟨e', he', zs, hzs, hin⟩ := ((collect_eq_ok hall).2 x).mp (mem_sortedSet hsorted hx)
    split_ifs at hzs
    · refine ⟨e', he', x.pyStr, ?_, hout⟩
      rw [Event.paths, hzs]
      exact List.mem_map_of_mem hin
    · cases hzs
      cases hin

/-- A green ledger is green when it has been landed. -/
lemma Ledger.Green.recordCommit (h : L.Green)
    (hpaths : landedPaths L.executionLog = .ok commit.touchedPaths) :
    (L.recordCommit branch commit).Green :=
  ⟨h.completed, h.unblocked, h.proven, fun hstrayed => h.inside (strayed_recordCommit hpaths
    hstrayed)⟩

end Landed

section Delivery

variable {W : Type} {h : Host W} {m : Manifest} {res res' : RunResult} {w w' : W}

end Delivery

section Exit

variable {W : Type} (h : Host W)

end Exit

end Runtime

section Example

attribute [local instance] cpython

end Example

end IplanRunner
