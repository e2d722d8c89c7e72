import IplanRunner.Audit.Report
import IplanRunner.Cli.Run

/-!
The `handover` command over the life of a ledger (`validation/handover_rules.py`,
`cli/commands.py`).

* `Receipt.toVal`, `validateHandover`: the receipt as a document, and its validator.
* `SparingLife`: the life of a ledger in which every override spares the other blocked tasks.
* `handover_truthful`: every receipt passes its validator, and one that says completed is of a green
  ledger, whenever it is made.
-/

namespace IplanRunner

open Foundation

/-! ### Receipts as documents -/

/-- The verdict as the receipt spells it. -/
def GateStatus.text : GateStatus → String
  | .passed => "passed"
  | .failed => "failed"

/-- The status as the receipt spells it. -/
def ReceiptStatus.text : ReceiptStatus → String
  | .completed => "completed"
  | .aborted => "aborted"

/-- The landed commit as a document. -/
def CommitRef.toVal (c : CommitRef) : Val := .dict [("sha", c.sha), ("branch", c.branch)]

section Runtime

variable [PyRuntime]

/-- A receipt as a document. -/
def Receipt.toVal (r : Receipt) : Val :=
  .dict
    [("handover_control", .dict
        [("receipt_id", .str r.receiptId), ("source_iplan", r.sourceIplan),
          ("source_iplan_version", r.sourceIplanVersion), ("ledger_ref", r.ledgerRef),
          ("gate_status", .str r.gateStatus.text), ("audit_report_ref", r.auditReportRef),
          ("commit", (r.commit.map CommitRef.toVal).getD .none), ("created_at", .str r.createdAt)]),
      ("result", .dict [("status", .str r.status.text), ("reconciled", .bool r.reconciled)])]

/-- `validate_handover`. -/
def validateHandover (document : Val) : Except PyErr (List Finding) := do
  let control ← docDict document "handover_control"
  let sourceIplan ← control.get "source_iplan"
  let ledgerRef ← control.get "ledger_ref"
  let source := if sourceIplan.truthy && ledgerRef.truthy then [] else
    [finding .handoverSourceMissing "source_iplan or ledger_ref missing"]
  let result ← docDict document "result"
  let status ← result.get "status"
  let invalid := if ← inSet status [.str "completed", .str "aborted"] then [] else
    [finding .handoverStatusInvalid "result.status is not completed/aborted"]
  if status.pyEq (.str "completed") then
    let gate := if (← control.get "gate_status").pyEq (.str "passed") then [] else
      [finding .handoverGateNotPassed "completed but gate not passed"]
    let reconciled := if (← result.get "reconciled").truthy then [] else
      [finding .handoverNotReconciled "completed but not reconciled"]
    return source ++ invalid ++ gate ++ reconciled
  else return source ++ invalid

/-- What `handover` prints: the receipt and what its validator finds. -/
def handoverCommand (ledger : Val) (gate : Gate) (clock : String) :
    Except PyErr (Receipt × List Finding) := do
  let gateResult ← runGate ledger gate
  let receipt ← buildHandoverReceipt ledger gateResult none clock
  return (receipt, ← validateHandover receipt.toVal)

omit [PyRuntime] in
/-- **A receipt is accepted** exactly when it names its plan and its ledger, and one that says
completed has passed the gate and is reconciled. -/
lemma validateHandover_accepts_iff (r : Receipt) : validateHandover r.toVal = .ok []
    ↔ (r.sourceIplan.truthy = true ∧ r.ledgerRef.truthy = true)
      ∧ (r.status = .completed → r.gateStatus = .passed ∧ r.reconciled = true) := by
  let source := if r.sourceIplan.truthy && r.ledgerRef.truthy then [] else
    [finding .handoverSourceMissing "source_iplan or ledger_ref missing"]
  have hread : validateHandover r.toVal = .ok (
      if r.status = .completed then source ++ []
        ++ (if r.gateStatus = .passed then [] else
          [finding .handoverGateNotPassed "completed but gate not passed"])
        ++ (if r.reconciled then [] else
          [finding .handoverNotReconciled "completed but not reconciled"])
      else source ++ []) := by
    obtain ⟨id, plan, version, ledgerRef, gate, audit, commit, clock, status, reconciled⟩ := r
    cases status <;> cases gate <;> cases reconciled <;> rfl
  have hsource : source = [] ↔ r.sourceIplan.truthy = true ∧ r.ledgerRef.truthy = true := by
    simp [source]
  rw [hread, Except.ok.injEq]
  by_cases hstatus : r.status = .completed
  · rw [if_pos hstatus, List.append_nil, List.append_assoc, List.append_eq_nil_iff, hsource]
    refine and_congr Iff.rfl ?_
    simp [hstatus]
  · rw [if_neg hstatus, List.append_nil, hsource]
    simp [hstatus]

/-! ### Sparing lives -/

/-- The life of a ledger in which every override spares the other blocked tasks. -/
inductive SparingLife : Ledger → Prop
  | run {W : Type} {h : Host W} {cfg : RunConfig} {m : Manifest} {w w' : W} {res : RunResult}
      {fx : List Effect} : run h cfg m w = (.ok res, w', fx) → SparingLife res.ledger
  | resume {W : Type} (h : Host W) (cfg : RunConfig) (manifest : Manifest) {s : Session W} :
      SparingLife s.ledger → SparingLife (resume h cfg manifest s).2.ledger
  | resolve {L L' : Ledger} {blockerId decision atTime : String} {actor : Actor} :
      SparingLife L → (decision = "override" → OverrideSpares L blockerId) →
      resolveBlocker L blockerId decision actor atTime = .ok L' → SparingLife L'
  | land {W : Type} (h : Host W) (repo : Repo W) (branch message : String) (gate : Option Gate)
      {s : Session W} : SparingLife s.ledger →
      SparingLife (land h repo branch message gate s).2.ledger
  | sign {L : Ledger} (key : String) : SparingLife L → SparingLife (L.sign key).2

/-- A sparing life is one. -/
lemma SparingLife.lived {L : Ledger} (hL : SparingLife L) : Lived L := by
  induction hL with
  | run hrun => exact .run hrun
  | resume h cfg manifest _ ih => exact .later ih (.resume h cfg manifest _)
  | resolve _ _ hres ih => exact .later ih (.resolve hres)
  | land h repo branch message gate _ ih => exact .later ih (.land h repo branch message gate _)
  | sign key _ ih => exact .later ih (.sign _ key)

/-- **In a sparing life completion is only allowed when everything is done**, however old the
reconciliation is. -/
lemma SparingLife.sound {L : Ledger} (hL : SparingLife L) : BlockedHeld L ∧ AllowedDone L := by
  induction hL with
  | run hrun =>
      have hreached : Reached (fun _ => True) OverrideSpares _ := .run trivial hrun
      exact hreached.invariant allowed_history
  | @resume W h cfg manifest s hL ih =>
      obtain ⟨r, state, L', fx, w, hdrive, hexec, -⟩ := resume_spec h cfg manifest s
      have hexact : Exact (completedIds s.ledger) (s.ledger.setRunState .running) :=
        hL.lived.wellKept.firsts.mem_completedIds
      rw [hexec]
      exact hdrive.invariant allowed_history trivial hexact (allowed_history.state _ ih)
  | resolve _ hspares hres ih =>
      obtain ⟨resolution, subject, ⟨rfl, -⟩ | ⟨hdecision, b, hb, rfl⟩⟩ := resolveBlocker_cases hres
      · exact allowed_history.record _ _ ih
      · exact allowed_history.record _ _ (allowed_history.override hb (hspares hdecision) ih)
  | @land W h repo branch message gate s _ ih =>
      rcases land_ledger h repo branch message gate s with hkeep | ⟨commit, -, hcommit⟩
      · rwa [hkeep]
      · rw [hcommit]
        exact ih
  | sign key _ ih => exact ih

/-- A ledger reached by sparing overrides has had a sparing life. -/
lemma SparingLife.of_reached {manifests : Manifest → Prop} {L : Ledger}
    (hL : Reached manifests OverrideSpares L) : SparingLife L := by
  induction hL with
  | run _ hrun => exact .run hrun
  | resume _ _ ih => exact .resume _ _ _ ih
  | resolve _ hspares hres ih => exact .resolve ih hspares hres

/-! ### The command -/

/-- What is done to a ledger keeps its id. -/
lemma Later.ledgerId {L L' : Ledger} (hlater : Later L L') :
    L'.control.ledgerId = L.control.ledgerId := by
  cases hlater with
  | resume h cfg manifest s =>
      obtain ⟨r, state, L', fx, w, hdrive, hexec, -⟩ := resume_spec h cfg manifest s
      rw [hexec]
      exact hdrive.ledgerId
  | resolve hres =>
      obtain ⟨resolution, subject, ⟨rfl, -⟩ | ⟨-, b, -, rfl⟩⟩ := resolveBlocker_cases hres <;> rfl
  | land h repo branch message gate s =>
      rcases land_ledger h repo branch message gate s with hkeep | ⟨commit, -, hcommit⟩
      · rw [hkeep]
      · rw [hcommit]
        rfl
  | sign L key => rfl

/-- A ledger is named after its plan. -/
lemma Lived.ledgerId {L : Ledger} (hL : Lived L) :
    L.control.ledgerId = "LEDGER-" ++ L.control.sourceIplan.pyStr := by
  induction hL with
  | @run W h cfg m w w' res fx hrun =>
      obtain ⟨L₀, state, hstart, hdrive⟩ := run_spec h cfg hrun
      have hsource : res.ledger.control.sourceIplan = m.control.sourceIplan :=
        (congrArg Prod.fst hdrive.planRef).trans (startLedger_new hstart).source
      rw [hdrive.ledgerId, startLedger_ledgerId hstart, hsource]
  | @later L L' _ hlater ih =>
      have hsource : L'.control.sourceIplan = L.control.sourceIplan :=
        congrArg Prod.fst hlater.planRef
      rw [hlater.ledgerId, ih, hsource]

/-- **The receipt of a lived ledger passes its validator**, whatever the gate has said. -/
lemma Lived.receipt_accepted {L : Ledger} (hL : Lived L) (g : GateResult) (clock : String) :
    validateHandover (receiptOf L g clock).toVal = .ok [] := by
  refine (validateHandover_accepts_iff _).mpr ⟨⟨hL.wellKept.source.1, ?_⟩, fun hdone => ?_⟩
  · have hnonempty : L.control.ledgerId ≠ "" := by
      rw [hL.ledgerId]
      simp
    simpa [receiptOf, Val.truthy] using hnonempty
  · have hstatus : g.status = .passed ∧ L.reconciliation.allowed = true
        ∧ ∀ t ∈ L.taskLedger, t.status ≠ .pending ∧ t.status ≠ .inProgress := by
      by_contra hnot
      rw [receiptOf, if_neg hnot] at hdone
      cases hdone
    exact ⟨if_pos hstatus.1, hstatus.2.1⟩

/-- **Handovers are truthful.**  At any time of the life of a ledger, and behind any gate,
`handover` returns where the validator does; the receipt passes its own validator, names the last
commit, and says completed exactly when the gate has passed, completion is allowed and no task is
open.  Behind the default gate, where every override spared the other blocked tasks, this is when
the ledger is green and its reconciliation says so. -/
theorem handover_truthful {L : Ledger} (hL : Lived L) (hvalid : Returns (validateLedger L.toDoc))
    (gate : Gate) (clock : String) :
    ∃ g r, runGate L.toDoc gate = .ok g ∧ handoverCommand L.toDoc gate clock = .ok (r, [])
      ∧ r.commit = L.head
      ∧ (r.status = .completed ↔ g.status = .passed ∧ L.reconciliation.allowed = true
        ∧ ∀ t ∈ L.taskLedger, t.status ≠ .pending ∧ t.status ≠ .inProgress)
      ∧ (gate = defaultGate → SparingLife L →
        (r.status = .completed ↔ L.Green ∧ L.reconciliation.allowed = true)) := by
  obtain ⟨fs, hfs⟩ := hvalid
  have hg : runGate L.toDoc gate = .ok (gateVerdict (fs.map (·.ruleId)) gate) := by
    rw [runGate, hfs]
    rfl
  have hreceipt := buildHandoverReceipt_toDoc L (gateVerdict (fs.map (·.ruleId)) gate) clock
  have hstatus := receipt_toDoc hreceipt
  refine ⟨_, _, hg, ?_, rfl, hstatus, fun hdefault hlife => ?_⟩
  · rw [handoverCommand, hg, ok_bind, hreceipt, ok_bind, hL.receipt_accepted]
    rfl
  · subst hdefault
    rw [hstatus, hL.wellKept.gate_passed_iff hg]
    constructor
    · rintro ⟨⟨hproven, hinside⟩, hallowed, -⟩
      obtain ⟨hdone, hnone⟩ := hlife.sound.2 hallowed
      exact ⟨⟨hdone, hnone, hproven, hinside⟩, hallowed⟩
    · rintro ⟨hgreen, hallowed⟩
      refine ⟨⟨hgreen.proven, hgreen.inside⟩, hallowed, fun t ht => ?_⟩
      rw [hgreen.completed t ht]
      simp

end Runtime

section Example

attribute [local instance] cpython

/-- A task that failed, was overridden and succeeded with evidence: the receipt says completed. -/
theorem handover_truthful_of_override : ∃ (L : Ledger) (r : Receipt), SparingLife L
    ∧ L.executionLog.length = 5 ∧ handoverCommand L.toDoc defaultGate scriptNow = .ok (r, [])
    ∧ r.status = .completed := by
  have hplayed : (playRun (fun L i => decide (OverrideSpares L i)) (scriptManifest [("T1", [])])
      [("T1", .always mockFailure)] [] [.decide "B1" "override",
        .resume [("T1", .always ⟨.success, [], some [("kind", .str "test")], none, false⟩)] []]).any
      (fun L => decide ((∀ t ∈ L.taskLedger, t.status = .completed ∧ t.acceptance.result = .pass)
        ∧ L.blockers = [] ∧ L.reconciliation.allowed = true ∧ L.executionLog.length = 5)
        && L.executionLog.all fun e => e.paths.isEmpty) = true := by decide +kernel
  obtain ⟨L, hplay, hcheck⟩ := (Option.any_eq_true _ _).mp hplayed
  obtain ⟨hdone, hpaths⟩ := (Bool.and_eq_true _ _).mp hcheck
  obtain ⟨htasks, hnone, hallowed, hlength⟩ := of_decide_eq_true hdone
  have hreached : Reached Manifest.ReadableRoots
      (fun L i => decide (OverrideSpares L i) = true) L :=
    playRun_reached (scriptManifest_roots _) (scriptManifest_roots _) hplay
  have hlife : SparingLife L :=
    .of_reached (hreached.mono (fun _ h => h) fun L i h => of_decide_eq_true h)
  have hvalid : Returns (validateLedger L.toDoc) := validateLedger_returns
    ((hreached.mono (fun _ h => h) fun _ _ _ => trivial).invariant readable_history).judged
  obtain ⟨g, r, -, hhandover, -, -, hstatus⟩ :=
    handover_truthful hlife.lived hvalid defaultGate scriptNow
  refine ⟨L, r, hlife, hlength, hhandover, (hstatus rfl hlife).mpr ⟨⟨?_, hnone, ?_, ?_⟩, hallowed⟩⟩
  · exact fun t ht => (htasks t ht).1
  · rintro ⟨t, ht, -, hpass⟩
    exact hpass (htasks t ht).2
  · rintro ⟨e, he, p, hp, -⟩
    rw [List.isEmpty_iff.mp (List.all_eq_true.mp hpaths e he)] at hp
    cases hp

end Example

end IplanRunner
