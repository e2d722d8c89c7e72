import IplanRunner.Orchestrator.Gating
import IplanRunner.Runs.Edits
import IplanRunner.Validation.ChainRules

/-!
What the validator says of the ledger of a chain that has been run.

* `marked`: a node as the ledger of its chain has it; the marks change neither the orders nor what a
  dependency names.
* `chain_validates_iff`: when a chain that is allowed validates clean, and when one with a plan that
  was not run is reported.
-/

namespace IplanRunner

open Foundation

section Runtime

variable [PyRuntime]

/-! ### Marked nodes -/

/-- A node in the ledger of its chain. -/
def marked (reconciled : List (String × Bool)) (k : Dict) : Dict :=
  Dict.set k "reconciled" (.bool ((reconciled.lookup (k.get "iplan_id").pyStr).getD false))

variable {reconciled : List (String × Bool)} {ks : List Dict}

lemma nodeId_dict {k : Dict} {id : String} (h : nodeId (.dict k) = .ok id) :
    (Dict.get k "iplan_id").pyStr = id := by
  obtain ⟨v, hv, hstr⟩ := except_bind_eq_ok.mp h
  rw [Val.item] at hv
  split at hv
  · rename_i u hu
    rw [Dict.get, hu, Option.getD_some, Except.ok.inj hv]
    exact Except.ok.inj hstr
  · cases hv

omit [PyRuntime] in
lemma lastPlan_mem {d : Val} {m : Dict} (h : lastPlan ks d = some m) : m ∈ ks :=
  List.mem_reverse.mp (List.mem_of_find?_eq_some h)

/-- The nodes of a chain, and those of its ledger. -/
lemma marked_of_markedAs {ns : List Val} {nodes : List Dict}
    (h : List.Forall₂ (MarkedAs reconciled) ns nodes) :
    ∃ ks : List Dict, ns = ks.map .dict ∧ nodes = ks.map (marked reconciled) := by
  induction h with
  | nil => exact ⟨[], rfl, rfl⟩
  | @cons n node ns nodes hone _ ih =>
      obtain ⟨ks, rfl, rfl⟩ := ih
      obtain ⟨kvs, id, rfl, hid, rfl⟩ := hone
      refine ⟨kvs :: ks, rfl, ?_⟩
      rw [List.map_cons, marked, nodeId_dict hid]

lemma get_marked (k : Dict) {key : String} (h : key ≠ "reconciled") :
    (marked reconciled k).get key = k.get key := Dict.get_set_of_ne k h _

lemma planDeps_marked (k : Dict) : planDeps (marked reconciled k) = planDeps k := by
  rw [planDeps, marked, Dict.lookup_set_of_ne k (by decide), planDeps]

lemma lastPlan_marked (d : Val) :
    lastPlan (ks.map (marked reconciled)) d = (lastPlan ks d).map (marked reconciled) := by
  rw [lastPlan, ← List.map_reverse, List.find?_map, lastPlan]
  congr 2
  funext k
  rw [Function.comp_apply, get_marked k (by decide)]

lemma orderClash_marked (k m : Dict) :
    orderClash (marked reconciled k) (marked reconciled m) = orderClash k m := by
  rw [orderClash, get_marked k (by decide), get_marked m (by decide), orderClash]

/-- The marks decide nothing about what can be judged. -/
lemma chainJudged_marked : ChainJudged (ks.map (marked reconciled)) ↔ ChainJudged ks := by
  rw [ChainJudged, ChainJudged, List.forall_mem_map, List.forall_mem_map]
  refine and_congr (forall₂_congr fun k _ => by rw [get_marked k (by decide)])
    (forall₂_congr fun k _ => ?_)
  rw [planDeps_marked]
  refine forall₂_congr fun d _ => and_congr_right fun _ => ?_
  rw [lastPlan_marked]
  constructor
  · intro h m hm
    have hreturns := h (marked reconciled m) (by rw [hm, Option.map_some])
    rwa [orderClash_marked] at hreturns
  · intro h m' hm'
    obtain ⟨m, hm, rfl⟩ := Option.map_eq_some_iff.mp hm'
    rw [orderClash_marked]
    exact h m hm

lemma clash_marked : Clash (ks.map (marked reconciled)) ↔ Clash ks := by
  constructor
  · rintro ⟨k', hk', d, hd, m', hm', hclash⟩
    obtain ⟨k, hk, rfl⟩ := List.mem_map.mp hk'
    rw [lastPlan_marked] at hm'
    obtain ⟨m, hm, rfl⟩ := Option.map_eq_some_iff.mp hm'
    rw [planDeps_marked] at hd
    rw [orderClash_marked] at hclash
    exact ⟨k, hk, d, hd, m, hm, hclash⟩
  · rintro ⟨k, hk, d, hd, m, hm, hclash⟩
    refine ⟨_, List.mem_map_of_mem hk, d, ?_, marked reconciled m, ?_, ?_⟩
    · rw [planDeps_marked]
      exact hd
    · rw [lastPlan_marked, hm, Option.map_some]
    · rw [orderClash_marked]
      exact hclash

/-- A dependency names an unreconciled node when the id of the node is not reconciled. -/
lemma namesUnreconciled_marked : NamesUnreconciled (ks.map (marked reconciled))
    ↔ ∃ k ∈ ks, ∃ d ∈ planDeps k, ∃ m, lastPlan ks d = some m
      ∧ reconciled.lookup (m.get "iplan_id").pyStr ≠ some true := by
  have hmark : ∀ m, (((marked reconciled m).get "reconciled").truthy = false
      ↔ reconciled.lookup (m.get "iplan_id").pyStr ≠ some true) := by
    intro m
    rw [marked, Dict.get_set_self]
    cases reconciled.lookup (m.get "iplan_id").pyStr with
    | none => simp [Val.truthy]
    | some b => cases b <;> simp [Val.truthy]
  constructor
  · rintro ⟨k', hk', d, hd, m', hm', hfalse⟩
    obtain ⟨k, hk, rfl⟩ := List.mem_map.mp hk'
    rw [lastPlan_marked] at hm'
    obtain ⟨m, hm, rfl⟩ := Option.map_eq_some_iff.mp hm'
    rw [planDeps_marked] at hd
    exact ⟨k, hk, d, hd, m, hm, (hmark m).mp hfalse⟩
  · rintro ⟨k, hk, d, hd, m, hm, hfalse⟩
    refine ⟨_, List.mem_map_of_mem hk, d, ?_, marked reconciled m, ?_, (hmark m).mpr hfalse⟩
    · rw [planDeps_marked]
      exact hd
    · rw [lastPlan_marked, hm, Option.map_some]

/-! ### The verdict -/

section Run

variable {W : Type} {h : Host W} {gate : Gate} {executorFor : String → Call PyErr W (Executor W)}
  {iplans : String → Option Manifest} {chain : Dict} {w w' : W} {result : ChainResult}

/-- `chain.get("cross_plan_leases", [])`. -/
def crossPlanLeases (chain : Dict) : Val := (chain.lookup "cross_plan_leases").getD (.list [])

/-- A dependency of a node names a node whose plan has no ledger that allows completion. -/
def NamesUnallowed (ks : List Dict) (subLedgers : List (String × Ledger)) : Prop :=
  ∃ k ∈ ks, ∃ d ∈ planDeps k, ∃ m, lastPlan ks d = some m
    ∧ ¬ SubAllowed subLedgers (m.get "iplan_id").pyStr

/-- **The validator on the ledger of a chain.**  When the chain is allowed, it finds nothing exactly
when the chain can be judged, no node is ordered at or before one it names, and the leases carried
through are apart.  When the turn of a plan has come and it was not run, an unreconciled upstream is
reported exactly when the chain can be judged and a dependency names a node that was not allowed. -/
theorem chain_validates_iff (hrun : runChain h gate executorFor iplans chain w = (.ok result, w')) :
    ∃ ks : List Dict, chainNodes chain = .ok (ks.map .dict)
      ∧ (result.chainLedger.allowed = true → (validateChain result.chainLedger.toDoc = .ok []
        ↔ ChainJudged ks ∧ ¬ Clash ks
          ∧ ∃ ls : List Dict, (crossPlanLeases chain).iter = .ok (ls.map .dict)
            ∧ LeasesApart "resource" ls))
      ∧ ((∃ id ∈ turnsOf h gate executorFor iplans (ks.map .dict) w,
        result.subLedgers.lookup id = none) →
        ((∃ fs, validateChain result.chainLedger.toDoc = .ok fs
            ∧ ∃ f ∈ fs, f.ruleId = .chainUpstreamUnreconciled)
          ↔ ChainJudged ks ∧ NamesUnallowed ks result.subLedgers
            ∧ ∃ ls : List Dict, (crossPlanLeases chain).iter = .ok (ls.map .dict))) := by
  obtain ⟨ns, nodes, order, st, hns, hnodes, hups, -, ⟨ids, hids, hserved⟩, hruns, hledger, hsub⟩ :=
    runChain_runs hrun
  obtain ⟨hmarked, hallowed, hleases⟩ := buildChainLedger_ok hledger
  obtain ⟨ks, rfl, hentries⟩ := marked_of_markedAs hmarked
  have hcoherent : Coherent st := hruns.coherent
    (hserved.perm.nodup_iff.mpr (List.nodup_dedup ids)) (fun t _ => ⟨rfl, rfl⟩)
    fun t => by simp [SubAllowed]
  have hdeps : ∀ k ∈ ks.map (marked st.reconciled),
      Returns ((k.lookup "depends_on").getD (.list [])).iter := by
    rw [List.forall_mem_map]
    intro k hk
    obtain ⟨us, hk'⟩ := hups (.dict k) (List.mem_map_of_mem hk)
    obtain ⟨v, hv, hiter⟩ := except_bind_eq_ok.mp hk'
    obtain ⟨xs, hxs, -⟩ := except_bind_eq_ok.mp hiter
    cases hv
    rw [marked, Dict.lookup_set_of_ne k (by decide)]
    exact ⟨xs, hxs⟩
  obtain ⟨doc, hdoc, hchain, hcross⟩ : ∃ doc : Dict, result.chainLedger.toDoc = .dict doc
      ∧ doc.lookup "iplan_chain" = some (.list ((ks.map (marked st.reconciled)).map .dict))
      ∧ doc.lookup "cross_plan_leases" = some (crossPlanLeases chain) := by
    rw [← hentries, crossPlanLeases, ← hleases]
    exact ⟨_, rfl, rfl, rfl⟩
  rw [hdoc, validateChain_clean_iff hchain hcross hdeps,
    validateChain_upstream_iff hchain hcross hdeps, chainJudged_marked, clash_marked,
    namesUnreconciled_marked, hsub]
  refine ⟨ks, hns, fun hall => ?_, fun _ => ?_⟩
  · refine and_congr_right fun _ => and_congr_right fun _ => and_iff_right ?_
    rintro ⟨k, hk, d, hd, m, hm, hnot⟩
    obtain ⟨id, hid⟩ := (byId_mem hnodes (List.mem_map_of_mem (lastPlan_mem hm))).1
    rw [nodeId_dict hid] at hnot
    exact hnot (hallowed.mp hall _ (List.mem_map_of_mem (lastPlan_mem hm)) id hid)
  · simp only [NamesUnallowed, ne_eq, hcoherent _]

end Run

end Runtime

section Example

attribute [local instance] cpython

/-- The executor of a host that answers always the same, for every plan. -/
def stillExecutors (_ : String) : Call PyErr Unit (Executor Unit) :=
  pure {
    execute := (stillHost Unit).execute
    compensate := (stillHost Unit).compensate
    written := fun _ _ _ => []
    reported := fun _ _ _ => [] }

/-- A node of a chain, with its order. -/
def orderedNode (id : String) (order : ℤ) (dependsOn : List String) : Dict :=
  [("iplan_id", .str id), ("order", .int order), ("depends_on", strList dependsOn)]

/-- `B` waits for `A`, and has the smaller order. -/
def orderedChain : List Dict := [orderedNode "B" 1 ["A"], orderedNode "A" 2 []]

/-- Both plans are run, and their ledgers allow completion. -/
lemma orderedChain_returns :
    ∃ result w', runChain (stillHost Unit) defaultGate stillExecutors scriptPlans
        [("iplan_chain", .list (orderedChain.map .dict))] () = (.ok result, w')
      ∧ result.chainLedger.allowed = true
      ∧ validateChain result.chainLedger.toDoc
        = .ok [finding .chainOrderInvalid "an IPLAN is ordered at/before a dependency"] := by
  obtain ⟨res, hres, hallowed⟩ : ∃ res,
    runPlan (stillHost Unit) defaultGate (scriptManifest [("T1", [])])
      { execute := (stillHost Unit).execute, compensate := (stillHost Unit).compensate,
        written := fun _ _ _ => [], reported := fun _ _ _ => [] } () = (.ok res, ())
      ∧ res.ledger.reconciliation.allowed = true := by
    have hends : (startLedger (scriptManifest [("T1", [])])).toOption.any (fun L =>
        let r := driveSession (stillHost Unit) ⟨0, 0, defaultGate⟩ (scriptManifest [("T1", [])]) []
          ⟨L, (), []⟩
        r.1.isSome && r.2.ledger.reconciliation.allowed) = true := by
      decide +kernel
    obtain ⟨L, hstart, hdone⟩ := (Option.any_eq_true _ _).mp hends
    rw [Bool.and_eq_true, Option.isSome_iff_exists] at hdone
    obtain ⟨⟨state, hstate⟩, hdone⟩ := hdone
    obtain ⟨res, hrun, hledger⟩ := run_returns (stillHost Unit) ⟨0, 0, defaultGate⟩
      (scriptManifest_roots _) (eq_ok_of_toOption hstart) (Prod.ext_iff.mpr ⟨hstate, rfl⟩)
    have hsame : { (stillHost Unit).driving
        { execute := (stillHost Unit).execute, compensate := (stillHost Unit).compensate,
          written := fun _ _ _ => [], reported := fun _ _ _ => [] } with
        control := fun w => (.running, w) } = stillHost Unit := rfl
    refine ⟨res, ?_, by rw [hledger, hdone]⟩
    rw [runPlan, hsame, hrun]
  have horder : chainOrder (orderedChain.map .dict) = .ok ["A", "B"] :=
    eq_ok_of_toOption (by decide +kernel)
  obtain ⟨nodes, hnodes, hA, hB⟩ : ∃ nodes, byId pure (orderedChain.map .dict) = .ok nodes
      ∧ lastOf nodes "A" = some (.dict (orderedNode "A" 2 []))
      ∧ lastOf nodes "B" = some (.dict (orderedNode "B" 1 ["A"])) := ⟨_, rfl, rfl, rfl⟩
  have hmeets : (ChainState.record ⟨[], []⟩ "A" res.ledger).meets ["A"] = true := by
    simp [ChainState.meets, ChainState.record, hallowed]
  have hturnA : chainTurn (stillHost Unit) defaultGate stillExecutors (lastOf nodes) scriptPlans "A"
      ⟨[], []⟩ () = (.ok (ChainState.record ⟨[], []⟩ "A" res.ledger), ()) :=
    chainTurn_of_met hA rfl rfl rfl rfl hres
  have hturnB : chainTurn (stillHost Unit) defaultGate stillExecutors (lastOf nodes) scriptPlans "B"
      (ChainState.record ⟨[], []⟩ "A" res.ledger) ()
      = (.ok ((ChainState.record ⟨[], []⟩ "A" res.ledger).record "B" res.ledger), ()) :=
    chainTurn_of_met hB rfl hmeets rfl rfl hres
  have hloop : chainLoop (stillHost Unit) defaultGate stillExecutors (lastOf nodes) scriptPlans
      ["A", "B"] ⟨[], []⟩ ()
      = (.ok ((ChainState.record ⟨[], []⟩ "A" res.ledger).record "B" res.ledger), ()) :=
    (Call.bind_ok hturnA _).trans (Call.bind_ok hturnB _)
  have hreconciled : ((ChainState.record ⟨[], []⟩ "A" res.ledger).record "B" res.ledger).reconciled
      = [("A", true), ("B", true)] := by
    rw [← hallowed]
    rfl
  obtain ⟨C, hC, hall, hfound⟩ : ∃ C, buildChainLedger
        [("iplan_chain", .list (orderedChain.map .dict))] (orderedChain.map .dict)
        [("A", true), ("B", true)] = .ok C
      ∧ C.allowed = true
      ∧ validateChain C.toDoc
        = .ok [finding .chainOrderInvalid "an IPLAN is ordered at/before a dependency"] := by
    rw [buildChainLedger, horder]
    exact ⟨_, rfl, by decide +kernel, eq_ok_of_toOption (by decide +kernel)⟩
  refine ⟨⟨C, [("A", res.ledger), ("B", res.ledger)]⟩, (), ?_, hall, hfound⟩
  have hraw : (Val.dict [("iplan_chain", .list (orderedChain.map .dict))]).item "iplan_chain"
      = .ok (.list (orderedChain.map .dict)) := rfl
  have hiter : (Val.list (orderedChain.map .dict)).iter = .ok (orderedChain.map .dict) := rfl
  rw [runChain, hraw, Call.bind_ok (Call.ofExcept_apply _ _), hiter,
    Call.bind_ok (Call.ofExcept_apply _ _), hnodes, Call.bind_ok (Call.ofExcept_apply _ _), horder,
    Call.bind_ok (Call.ofExcept_apply _ _), Call.bind_ok hloop, hreconciled, hC]
  rfl

/-- The validator finds the orders wrong, as the condition says. -/
theorem chain_validates_ordered :
    ∃ result w', runChain (stillHost Unit) defaultGate stillExecutors scriptPlans
        [("iplan_chain", .list (orderedChain.map .dict))] () = (.ok result, w')
      ∧ result.chainLedger.allowed = true
      ∧ ∃ ks : List Dict, ks.map Val.dict = orderedChain.map .dict
        ∧ ¬ (ChainJudged ks ∧ ¬ Clash ks
          ∧ ∃ ls : List Dict, (Val.list []).iter = .ok (ls.map .dict)
            ∧ LeasesApart "resource" ls) := by
  obtain ⟨result, w', hrun, hallowed, hfound⟩ := orderedChain_returns
  obtain ⟨ks, hks, hclean, -⟩ := chain_validates_iff hrun
  refine ⟨result, w', hrun, hallowed, ks, (Except.ok.inj hks).symm, fun hcond => ?_⟩
  have hnil := (hclean hallowed).mpr hcond
  rw [hfound] at hnil
  cases hnil

/-- A plan that waits for one the chain does not have is not run, and nothing is reported. -/
lemma unknownUpstream_returns :
    ∃ result w', runChain (stillHost Unit) defaultGate stillExecutors scriptPlans
        [("iplan_chain", .list [planNode "B" ["X"]])] () = (.ok result, w')
      ∧ (∃ id ∈ turnsOf (stillHost Unit) defaultGate stillExecutors scriptPlans [planNode "B" ["X"]]
        (), result.subLedgers.lookup id = none)
      ∧ validateChain result.chainLedger.toDoc = .ok [] := by
  have hrun : (runChain (stillHost Unit) defaultGate stillExecutors scriptPlans
      [("iplan_chain", .list [planNode "B" ["X"]])] ()).1.toOption.any (fun result =>
        (result.subLedgers.lookup "B").isNone
          && (validateChain result.chainLedger.toDoc).toOption.any (·.isEmpty)) = true := by
    decide +kernel
  obtain ⟨result, hres, hchecks⟩ := (Option.any_eq_true _ _).mp hrun
  rw [Bool.and_eq_true, Option.isNone_iff_eq_none] at hchecks
  obtain ⟨fs, hfs, hnil⟩ := (Option.any_eq_true _ _).mp hchecks.2
  refine ⟨result, _, Prod.ext_iff.mpr ⟨eq_ok_of_toOption hres, rfl⟩, ⟨"B", ?_, hchecks.1⟩, ?_⟩
  · decide +kernel
  · rw [eq_ok_of_toOption hfs, List.isEmpty_iff.mp hnil]

/-- **A reconciled chain need not validate clean**: `B` waits for `A` and both are run, but `B` has
the smaller order.  **And a plan that is not run need not be reported**: no node has the id it waits
for. -/
theorem reconciled_chain_not_clean :
    (∃ result w', runChain (stillHost Unit) defaultGate stillExecutors scriptPlans
        [("iplan_chain", .list (orderedChain.map .dict))] () = (.ok result, w')
      ∧ result.chainLedger.allowed = true
      ∧ validateChain result.chainLedger.toDoc ≠ .ok [])
    ∧ ∃ result w', runChain (stillHost Unit) defaultGate stillExecutors scriptPlans
        [("iplan_chain", .list [planNode "B" ["X"]])] () = (.ok result, w')
      ∧ (∃ id ∈ turnsOf (stillHost Unit) defaultGate stillExecutors scriptPlans [planNode "B" ["X"]]
        (), result.subLedgers.lookup id = none)
      ∧ ¬ ∃ fs, validateChain result.chainLedger.toDoc = .ok fs
        ∧ ∃ f ∈ fs, f.ruleId = .chainUpstreamUnreconciled := by
  obtain ⟨result, w', hrun, hallowed, hfound⟩ := orderedChain_returns
  obtain ⟨result', w'', hrun', hskipped, hclean⟩ := unknownUpstream_returns
  refine ⟨⟨result, w', hrun, hallowed, ?_⟩, result', w'', hrun', hskipped, ?_⟩
  · rw [hfound]
    simp
  · rintro ⟨fs, hfs, f, hf, -⟩
    obtain rfl : [] = fs := Except.ok.inj (hclean.symm.trans hfs)
    cases hf

end Example

end IplanRunner
