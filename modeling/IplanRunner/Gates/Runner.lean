import IplanRunner.Validation.LedgerRules

/-!
The verification gate (`gates/runner.py`) and the default gate of the run loop
(`orchestrator/loop.py`).

* `Gate`, `runGate`: a gate fails as soon as a rule it references fired.  A name in a gate document
  that is no rule of the catalogue never fires and is left out of `GateRule.ruleIds`.
* `defaultGate`: the gate `run`, `resume` and `land` apply.
* `runGate_passed_iff`: a gate passes exactly when no finding is of a referenced rule.
-/

namespace IplanRunner

open Foundation

/-- A rule of a verification gate. -/
structure GateRule where
  id : String
  ruleIds : List RuleId
  deriving DecidableEq, Repr

/-- A verification gate. -/
structure Gate where
  gateRules : List GateRule
  deriving DecidableEq, Repr

/-- The verdict of a gate or of one of its rules. -/
inductive GateStatus where
  | passed
  | failed
  deriving DecidableEq, Repr

/-- The outcome of one rule. -/
structure RuleResult where
  id : String
  status : GateStatus
  violations : List RuleId
  deriving DecidableEq, Repr

/-- `gate_result`. -/
structure GateResult where
  status : GateStatus
  rules : List RuleResult
  deriving DecidableEq, Repr

/-- `default_gate`. -/
def defaultGate : Gate where
  gateRules :=
    [⟨"GATE-LEDGER-001", [.ledgerEvidenceRequired]⟩,
      ⟨"GATE-LEDGER-002", [.ledgerAcceptanceWeak]⟩,
      ⟨"GATE-LEDGER-003", [.ledgerBlockedWithoutOwner]⟩,
      ⟨"GATE-LEDGER-004",
        [.isolationScopeMissing, .isolationPathOutsideRoots, .isolationEventScopeMismatch]⟩,
      ⟨"GATE-LEDGER-005", [.hashchainBroken]⟩,
      ⟨"GATE-LEDGER-006", [.ledgerNotCommitted]⟩]

/-- Inserts a rule in the order of the texts, once. -/
def insertRule (r : RuleId) : List RuleId → List RuleId
  | [] => [r]
  | s :: rest =>
      if r = s then s :: rest
      else if r.text < s.text then r :: s :: rest
      else s :: insertRule r rest

lemma mem_insertRule (r s : RuleId) (l : List RuleId) :
    s ∈ insertRule r l ↔ s = r ∨ s ∈ l := by
  induction l with
  | nil => simp [insertRule]
  | cons t l ih =>
      rw [insertRule]
      split_ifs with h1 h2
      · subst h1
        simp
      · simp
      · simp only [List.mem_cons, ih]
        tauto

/-- `sorted(fired & referenced)`. -/
def violationsOf (fired referenced : List RuleId) : List RuleId :=
  (referenced.filter (· ∈ fired)).foldr insertRule []

lemma mem_violationsOf (fired referenced : List RuleId) (r : RuleId) :
    r ∈ violationsOf fired referenced ↔ r ∈ referenced ∧ r ∈ fired := by
  rw [violationsOf]
  induction referenced with
  | nil => simp
  | cons s rest ih =>
      by_cases h : s ∈ fired
      · simp only [h, decide_true, List.filter_cons_of_pos, List.foldr_cons, mem_insertRule, ih,
          List.mem_cons]
        constructor
        · rintro (rfl | ⟨h1, h2⟩)
          · exact ⟨Or.inl rfl, h⟩
          · exact ⟨Or.inr h1, h2⟩
        · rintro ⟨rfl | h1, h2⟩
          · exact Or.inl rfl
          · exact Or.inr ⟨h1, h2⟩
      · simp only [h, decide_false, Bool.false_eq_true, not_false_eq_true,
          List.filter_cons_of_neg, ih, List.mem_cons]
        constructor
        · rintro ⟨h1, h2⟩
          exact ⟨Or.inr h1, h2⟩
        · rintro ⟨rfl | h1, h2⟩
          · exact absurd h2 h
          · exact ⟨h1, h2⟩

/-- The pass of the loop over `gate_rules`. -/
def ruleResult (fired : List RuleId) (rule : GateRule) : RuleResult :=
  let violations := violationsOf fired rule.ruleIds
  ⟨rule.id, if violations.isEmpty then .passed else .failed, violations⟩

/-- The verdict of a gate over the rules that fired. -/
def gateVerdict (fired : List RuleId) (gate : Gate) : GateResult :=
  let rules := gate.gateRules.map (ruleResult fired)
  ⟨if rules.all (·.violations.isEmpty) then .passed else .failed, rules⟩

/-- `run_gate`. -/
def runGate [PyRuntime] (ledger : Val) (gate : Gate) : Except PyErr GateResult := do
  let fired ← validateLedger ledger
  return gateVerdict (fired.map (·.ruleId)) gate

/-- The rules a gate references. -/
def Gate.references (gate : Gate) (r : RuleId) : Prop := ∃ rule ∈ gate.gateRules, r ∈ rule.ruleIds

lemma gateVerdict_passed_iff (fired : List RuleId) (gate : Gate) :
    (gateVerdict fired gate).status = .passed ↔ ∀ r ∈ fired, ¬ gate.references r := by
  have hall : (gateVerdict fired gate).status = .passed
      ↔ ∀ rule ∈ gate.gateRules, violationsOf fired rule.ruleIds = [] := by
    simp [gateVerdict, ruleResult]
  rw [hall]
  constructor
  · rintro h r hr ⟨rule, hrule, hmem⟩
    have h1 : r ∈ violationsOf fired rule.ruleIds := (mem_violationsOf _ _ _).mpr ⟨hmem, hr⟩
    rw [h rule hrule] at h1
    exact absurd h1 (by simp)
  · intro h rule hrule
    refine List.eq_nil_iff_forall_not_mem.mpr fun r hr => ?_
    obtain ⟨hmem, hfired⟩ := (mem_violationsOf _ _ _).mp hr
    exact h r hfired ⟨rule, hrule, hmem⟩

/-- **A gate passes** exactly when the validator ends and none of its findings is of a rule the
gate references. -/
theorem runGate_passed_iff [PyRuntime] (ledger : Val) (gate : Gate) :
    (∃ g, runGate ledger gate = .ok g ∧ g.status = .passed)
      ↔ ∃ fs, validateLedger ledger = .ok fs ∧ ∀ f ∈ fs, ¬ gate.references f.ruleId := by
  rw [runGate]
  rcases validateLedger ledger with e | fs
  · simp [bind, Except.bind]
  · simp only [bind, Except.bind, pure, Except.pure, Except.ok.injEq, exists_eq_left']
    rw [gateVerdict_passed_iff]
    simp

end IplanRunner
