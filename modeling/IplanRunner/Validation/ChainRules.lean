import IplanRunner.Foundation.Ordering
import IplanRunner.Validation.Overlaps

/-!
Chain-ledger validation (`validation/chain_rules.py`), over an arbitrary document.

* `chainFlags`: what the loop over the nodes and their dependencies finds.
* `chainLeaseFindings`: `CHAIN.LEASE_OVERLAP`; the loop and `_leases_overlap` are those of the
  ledger rules.
* `validateChain`: the validator.
* `ChainJudged`, `Clash`, `NamesUnreconciled`: when the loop ends, and what it finds;
  `chainFlags_spec`.
* `validateChain_clean_iff`, `validateChain_upstream_iff`: when nothing is found, and when an
  unreconciled upstream is.
-/

namespace IplanRunner

open Foundation

variable [PyRuntime]

/-! ### The validator -/

omit [PyRuntime] in
/-- The entries of `{c.get("iplan_id"): c.get(key) for c in chain}`, in the order they are made. -/
def byPlan (key : String) (chain : List Val) : Except PyErr (List (Val × Val)) :=
  chain.mapM fun c => do
    let id ← c.get "iplan_id"
    let v ← c.get key
    if id.hashable then return (id, v) else .error .typeError

omit [PyRuntime] in
/-- What a dictionary has under a key: the last entry made of an equal one. -/
def lastAt (entries : List (Val × Val)) (key : Val) : Except PyErr (Option Val) :=
  if key.hashable then .ok ((entries.reverse.find? fun p => p.1.pyEq key).map Prod.snd)
  else .error .typeError

/-- `dep_order is not None and node.get("order") is not None and node["order"] <= dep_order`. -/
def orderedWrong (node depOrder : Val) : Except PyErr Bool := do
  if depOrder = .none then return false
  let order ← node.get "order"
  if order = .none then return false
  order.atMost depOrder

/-- Whether a node is ordered wrongly against a dependency, and whether this one is unreconciled. -/
def pairFlags (order reconciled : List (Val × Val)) (node dep : Val) : Except PyErr (Bool × Bool) :=
  do
  let depOrder ← lastAt order dep
  let wrong ← orderedWrong node (depOrder.getD .none)
  let mark ← lastAt reconciled dep
  return (wrong, mark.any fun v => !v.truthy)

/-- The loop over the nodes and the dependencies of each. -/
def chainFlags (chain : List Val) : Except PyErr (List (Bool × Bool)) := do
  let order ← byPlan "order" chain
  let reconciled ← byPlan "reconciled" chain
  collect (fun node => do
    (← (← node.get "depends_on" (.list [])).iter).mapM (pairFlags order reconciled node)) chain

/-- `CHAIN.LEASE_OVERLAP`, once for each resource with two overlapping unreleased leases. -/
def chainLeaseFindings (leases : List Val) : Except PyErr (List Finding) :=
  overlapsBy "resource" (fun resource =>
    finding .chainLeaseOverlap s!"overlapping unreleased leases on resource {resource}") leases

/-- `validate_chain`. -/
def validateChain (document : Val) : Except PyErr (List Finding) := do
  let chain ← (← document.get "iplan_chain" (.list [])).iter
  let flags ← chainFlags chain
  let invalid := if flags.any Prod.fst then
    [finding .chainOrderInvalid "an IPLAN is ordered at/before a dependency"] else []
  let unreconciled := if flags.any Prod.snd then
    [finding .chainUpstreamUnreconciled "an IPLAN depends on an unreconciled upstream"] else []
  let leases ← (← document.get "cross_plan_leases" (.list [])).iter
  return invalid ++ unreconciled ++ (← chainLeaseFindings leases)

/-! ### What the loop over the nodes finds -/

/-- `node.get("depends_on", [])`, gone through. -/
def planDeps (k : Dict) : List Val :=
  ((k.lookup "depends_on").getD (.list [])).iter.toOption.getD []

/-- The node a dependency names as it stands: the last one of the id. -/
def lastPlan (nodes : List Dict) (dep : Val) : Option Dict :=
  nodes.reverse.find? fun k => (k.get "iplan_id").pyEq dep

/-- `node["order"] <= dep_order` of a node and one it names, where both have an order. -/
def orderClash (k m : Dict) : Except PyErr Bool :=
  if m.get "order" = .none ∨ k.get "order" = .none then .ok false
  else (k.get "order").atMost (m.get "order")

/-- The loop over the nodes ends: ids and dependencies can be looked up, orders can be compared. -/
def ChainJudged (nodes : List Dict) : Prop :=
  (∀ k ∈ nodes, (k.get "iplan_id").hashable = true)
    ∧ ∀ k ∈ nodes, ∀ d ∈ planDeps k, d.hashable = true
      ∧ ∀ m, lastPlan nodes d = some m → Returns (orderClash k m)

/-- A node is ordered at or before one it names. -/
def Clash (nodes : List Dict) : Prop :=
  ∃ k ∈ nodes, ∃ d ∈ planDeps k, ∃ m, lastPlan nodes d = some m ∧ orderClash k m = .ok true

/-- A dependency names an unreconciled node. -/
def NamesUnreconciled (nodes : List Dict) : Prop :=
  ∃ k ∈ nodes, ∃ d ∈ planDeps k, ∃ m, lastPlan nodes d = some m
    ∧ (m.get "reconciled").truthy = false

omit [PyRuntime] in
lemma byPlan_dicts {key : String} {nodes : List Dict} {entries : List (Val × Val)} :
    byPlan key (nodes.map .dict) = .ok entries
      ↔ (∀ k ∈ nodes, (k.get "iplan_id").hashable = true)
        ∧ entries = nodes.map fun k => (k.get "iplan_id", k.get key) := by
  rw [byPlan]
  induction nodes generalizing entries with
  | nil =>
      refine ⟨fun h => ?_, ?_⟩
      · cases h
        exact ⟨by simp, rfl⟩
      · rintro ⟨-, rfl⟩
        rfl
  | cons k rest ih =>
      rw [List.map_cons, List.mapM_cons, List.forall_mem_cons, Val.get_dict, Val.get_dict]
      by_cases hk : (k.get "iplan_id").hashable = true
      · simp only [ok_bind, hk, if_true, true_and]
        rw [except_bind_eq_ok]
        constructor
        · rintro ⟨e, he, h⟩
          cases he
          obtain ⟨others, hothers, h⟩ := except_bind_eq_ok.mp h
          obtain ⟨hall, rfl⟩ := ih.mp hothers
          cases h
          exact ⟨hall, rfl⟩
        · rintro ⟨hall, rfl⟩
          exact ⟨_, rfl, except_bind_eq_ok.mpr ⟨_, ih.mpr ⟨hall, rfl⟩, rfl⟩⟩
      · simp [hk, bind, Except.bind]

omit [PyRuntime] in
lemma lastAt_dicts (nodes : List Dict) (key : String) (d : Val) :
    lastAt (nodes.map fun k => (k.get "iplan_id", k.get key)) d
      = if d.hashable then .ok ((lastPlan nodes d).map (·.get key)) else .error .typeError := by
  rw [lastAt, ← List.map_reverse, List.find?_map, Option.map_map, lastPlan]
  rfl

/-- What is found for a node and a dependency. -/
lemma pairFlags_dicts {nodes : List Dict} {k : Dict} {d : Val} {flags : Bool × Bool} :
    pairFlags (nodes.map fun k => (k.get "iplan_id", k.get "order"))
        (nodes.map fun k => (k.get "iplan_id", k.get "reconciled")) (.dict k) d = .ok flags
      ↔ d.hashable = true ∧ ((lastPlan nodes d).elim (.ok false) (orderClash k) = .ok flags.1)
        ∧ flags.2 = (lastPlan nodes d).any fun m => !(m.get "reconciled").truthy := by
  have horder : orderedWrong (.dict k) (((lastPlan nodes d).map (·.get "order")).getD .none)
      = (lastPlan nodes d).elim (.ok false) (orderClash k) := by
    rw [orderedWrong, Val.get_dict]
    cases lastPlan nodes d with
    | none => rfl
    | some m =>
        rw [Option.map_some, Option.getD_some, Option.elim_some, orderClash]
        by_cases hm : m.get "order" = .none
        · rw [if_pos hm, if_pos (Or.inl hm)]
          rfl
        · rw [if_neg hm, ok_bind]
          by_cases hk : k.get "order" = .none
          · rw [if_pos hk, if_pos (Or.inr hk)]
            rfl
          · rw [if_neg hk, if_neg (not_or.mpr ⟨hm, hk⟩)]
  rw [pairFlags, lastAt_dicts, lastAt_dicts]
  by_cases hd : d.hashable = true
  · simp only [hd, if_true, ok_bind, horder, true_and]
    rw [except_bind_eq_ok]
    constructor
    · rintro ⟨wrong, hwrong, h⟩
      cases h
      exact ⟨hwrong, Option.any_map⟩
    · obtain ⟨wrong, mark⟩ := flags
      rintro ⟨hwrong, rfl⟩
      refine ⟨wrong, hwrong, ?_⟩
      rw [Option.any_map]
      rfl
  · simp [hd, bind, Except.bind]

section Spec

variable {nodes : List Dict}
  (hdeps : ∀ k ∈ nodes, Returns ((k.lookup "depends_on").getD (.list [])).iter)

include hdeps

/-- The pass of the loop over a node, with ids that can be looked up. -/
lemma chainFlags_eq (hids : ∀ k ∈ nodes, (k.get "iplan_id").hashable = true) :
    ∃ pass : Dict → Except PyErr (List (Bool × Bool)),
      chainFlags (nodes.map .dict) = collect pass nodes
        ∧ ∀ k ∈ nodes, pass k = (planDeps k).mapM (pairFlags
          (nodes.map fun k => (k.get "iplan_id", k.get "order"))
          (nodes.map fun k => (k.get "iplan_id", k.get "reconciled")) (.dict k)) := by
  rw [chainFlags, byPlan_dicts.mpr ⟨hids, rfl⟩, byPlan_dicts.mpr ⟨hids, rfl⟩, ok_bind, ok_bind,
    collect_map]
  refine ⟨_, rfl, fun k hk => ?_⟩
  obtain ⟨ds, hds⟩ := hdeps k hk
  have hget : (Val.dict k).get "depends_on" (.list []) = .ok
    ((k.lookup "depends_on").getD (.list [])) :=
    rfl
  rw [hget, ok_bind, hds, ok_bind, planDeps, hds]
  rfl

/-- **The loop over the nodes** ends on nodes that can be judged, and finds what there is. -/
theorem chainFlags_spec :
    (Returns (chainFlags (nodes.map .dict)) ↔ ChainJudged nodes)
      ∧ ∀ flags, chainFlags (nodes.map .dict) = .ok flags →
        (flags.any Prod.fst = true ↔ Clash nodes)
          ∧ (flags.any Prod.snd = true ↔ NamesUnreconciled nodes) := by
  by_cases hids : ∀ k ∈ nodes, (k.get "iplan_id").hashable = true
  · obtain ⟨pass, heq, hpass⟩ := chainFlags_eq hdeps hids
    rw [heq]
    constructor
    · rw [returns_collect_iff, ChainJudged, and_iff_right hids]
      refine forall₂_congr fun k hk => ?_
      rw [hpass k hk, returns_mapM_iff]
      refine forall₂_congr fun d _ => ?_
      constructor
      · rintro ⟨flags, hflags⟩
        obtain ⟨hd, horder, -⟩ := pairFlags_dicts.mp hflags
        refine ⟨hd, fun m hm => ⟨flags.1, ?_⟩⟩
        rw [hm] at horder
        exact horder
      · rintro ⟨hd, horder⟩
        obtain ⟨wrong, hwrong⟩ : Returns ((lastPlan nodes d).elim (.ok false) (orderClash k)) := by
          cases hm : lastPlan nodes d with
          | none => exact returns_ok false
          | some m => exact horder m hm
        exact ⟨(wrong, _), pairFlags_dicts.mpr ⟨hd, hwrong, rfl⟩⟩
    · intro flags hflags
      obtain ⟨hall, hmem⟩ := collect_eq_ok hflags
      have hfound : ∀ fl, fl ∈ flags ↔ ∃ k ∈ nodes, ∃ d ∈ planDeps k, pairFlags
          (nodes.map fun k => (k.get "iplan_id", k.get "order"))
          (nodes.map fun k => (k.get "iplan_id", k.get "reconciled")) (.dict k) d = .ok fl := by
        intro fl
        rw [hmem]
        constructor
        · rintro ⟨k, hk, zs, hzs, hfl⟩
          rw [hpass k hk] at hzs
          exact ⟨k, hk, (mem_of_mapM hzs).mp hfl⟩
        · rintro ⟨k, hk, hd⟩
          obtain ⟨zs, hzs⟩ := hall k hk
          refine ⟨k, hk, zs, hzs, ?_⟩
          rw [hpass k hk] at hzs
          exact (mem_of_mapM hzs).mpr hd
      have hreach : ∀ k ∈ nodes, ∀ d ∈ planDeps k, ∃ fl ∈ flags, pairFlags
          (nodes.map fun k => (k.get "iplan_id", k.get "order"))
          (nodes.map fun k => (k.get "iplan_id", k.get "reconciled")) (.dict k) d = .ok fl := by
        intro k hk d hd
        have hreturns := hall k hk
        rw [hpass k hk] at hreturns
        obtain ⟨fl, hfl⟩ := mapM_ok_returns hreturns.choose_spec d hd
        exact ⟨fl, (hfound fl).mpr ⟨k, hk, d, hd, hfl⟩, hfl⟩
      rw [List.any_eq_true, List.any_eq_true]
      refine ⟨⟨?_, ?_⟩, ?_, ?_⟩
      · rintro ⟨fl, hfl, htrue⟩
        obtain ⟨k, hk, d, hd, hpair⟩ := (hfound fl).mp hfl
        obtain ⟨-, horder, -⟩ := pairFlags_dicts.mp hpair
        rw [htrue] at horder
        cases hm : lastPlan nodes d with
        | none =>
            rw [hm] at horder
            cases horder
        | some m =>
            rw [hm] at horder
            exact ⟨k, hk, d, hd, m, hm, horder⟩
      · rintro ⟨k, hk, d, hd, m, hm, horder⟩
        obtain ⟨fl, hfl, hpair⟩ := hreach k hk d hd
        obtain ⟨-, hwrong, -⟩ := pairFlags_dicts.mp hpair
        rw [hm] at hwrong
        exact ⟨fl, hfl, Except.ok.inj (hwrong.symm.trans horder)⟩
      · rintro ⟨fl, hfl, htrue⟩
        obtain ⟨k, hk, d, hd, hpair⟩ := (hfound fl).mp hfl
        obtain ⟨-, -, hmark⟩ := pairFlags_dicts.mp hpair
        rw [htrue] at hmark
        cases hm : lastPlan nodes d with
        | none =>
            rw [hm] at hmark
            cases hmark
        | some m =>
            rw [hm] at hmark
            exact ⟨k, hk, d, hd, m, hm, by simpa using hmark⟩
      · rintro ⟨k, hk, d, hd, m, hm, hfalse⟩
        obtain ⟨fl, hfl, hpair⟩ := hreach k hk d hd
        refine ⟨fl, hfl, ?_⟩
        rw [(pairFlags_dicts.mp hpair).2.2, hm, Option.any_some, hfalse]
        rfl
  · have hraise : ∀ flags, chainFlags (nodes.map .dict) ≠ .ok flags := by
      intro flags h
      rw [chainFlags] at h
      obtain ⟨entries, hentries, -⟩ := except_bind_eq_ok.mp h
      exact hids (byPlan_dicts.mp hentries).1
    refine ⟨⟨fun ⟨flags, h⟩ => absurd h (hraise flags), fun h => absurd h.1 hids⟩, ?_⟩
    exact fun flags h => absurd h (hraise flags)

end Spec

/-! ### The findings -/

section Findings

variable {doc : Dict} {nodes : List Dict} {V : Val}
  (hnodes : doc.lookup "iplan_chain" = some (.list (nodes.map .dict)))
  (hleases : doc.lookup "cross_plan_leases" = some V)
  (hdeps : ∀ k ∈ nodes, Returns ((k.lookup "depends_on").getD (.list [])).iter)

include hnodes hleases

/-- What the validator computes from a chain ledger. -/
lemma validateChain_eq_ok {fs : List Finding} :
    validateChain (.dict doc) = .ok fs
      ↔ ∃ flags leases found, chainFlags (nodes.map .dict) = .ok flags ∧ V.iter = .ok leases
        ∧ chainLeaseFindings leases = .ok found
        ∧ fs = (if flags.any Prod.fst then
              [finding .chainOrderInvalid "an IPLAN is ordered at/before a dependency"] else [])
            ++ (if flags.any Prod.snd then
                [finding .chainUpstreamUnreconciled "an IPLAN depends on an unreconciled upstream"]
              else [])
            ++ found := by
  have hchain : (Val.dict doc).get "iplan_chain" (.list []) = .ok (.list (nodes.map .dict)) := by
    rw [Val.get, hnodes, Option.getD_some]
  have hcross : (Val.dict doc).get "cross_plan_leases" (.list []) = .ok V := by
    rw [Val.get, hleases, Option.getD_some]
  rw [validateChain, hchain, ok_bind, Val.iter, ok_bind]
  constructor
  · intro h
    obtain ⟨flags, hflags, h⟩ := except_bind_eq_ok.mp h
    rw [hcross, ok_bind] at h
    obtain ⟨leases, hiter, h⟩ := except_bind_eq_ok.mp h
    obtain ⟨found, hfound, h⟩ := except_bind_eq_ok.mp h
    cases h
    exact ⟨flags, leases, found, hflags, hiter, hfound, rfl⟩
  · rintro ⟨flags, leases, found, hflags, hiter, hfound, rfl⟩
    rw [hflags, ok_bind, hcross, ok_bind, hiter, ok_bind, hfound]
    rfl

include hdeps

/-- **A chain ledger validates clean** exactly when it can be judged, no node is ordered at or
before one it names, none names an unreconciled one, and the leases are apart. -/
theorem validateChain_clean_iff :
    validateChain (.dict doc) = .ok []
      ↔ ChainJudged nodes ∧ ¬ Clash nodes ∧ ¬ NamesUnreconciled nodes
        ∧ ∃ ls : List Dict, V.iter = .ok (ls.map .dict) ∧ LeasesApart "resource" ls := by
  obtain ⟨hjudged, hfound⟩ := chainFlags_spec hdeps
  rw [validateChain_eq_ok hnodes hleases]
  constructor
  · rintro ⟨flags, leases, found, hflags, hiter, hlease, hnil⟩
    obtain ⟨hclash, hnames⟩ := hfound flags hflags
    obtain ⟨hfirst, rfl⟩ := List.append_eq_nil_iff.mp hnil.symm
    obtain ⟨hwrong, hunrec⟩ := List.append_eq_nil_iff.mp hfirst
    obtain ⟨ls, rfl⟩ := returns_overlapsBy_iff.mp ⟨_, hlease⟩
    refine ⟨hjudged.mp ⟨flags, hflags⟩, fun hc => ?_, fun hn => ?_, ls, hiter,
      (overlapsBy_eq_nil_iff ls).mp hlease⟩
    · rw [if_pos (hclash.mpr hc)] at hwrong
      cases hwrong
    · rw [if_pos (hnames.mpr hn)] at hunrec
      cases hunrec
  · rintro ⟨hj, hclash, hnames, ls, hiter, hapart⟩
    obtain ⟨flags, hflags⟩ := hjudged.mpr hj
    obtain ⟨hc, hn⟩ := hfound flags hflags
    refine ⟨flags, _, [], hflags, hiter, (overlapsBy_eq_nil_iff ls).mpr hapart, ?_⟩
    rw [if_neg (mt hc.mp hclash), if_neg (mt hn.mp hnames)]
    rfl

/-- **An unreconciled upstream is reported** exactly when the ledger can be judged and a dependency
names an unreconciled node. -/
theorem validateChain_upstream_iff :
    (∃ fs, validateChain (.dict doc) = .ok fs ∧ ∃ f ∈ fs, f.ruleId = .chainUpstreamUnreconciled)
      ↔ ChainJudged nodes ∧ NamesUnreconciled nodes
        ∧ ∃ ls : List Dict, V.iter = .ok (ls.map .dict) := by
  obtain ⟨hjudged, hfound⟩ := chainFlags_spec hdeps
  simp only [validateChain_eq_ok hnodes hleases]
  constructor
  · rintro ⟨fs, ⟨flags, leases, found, hflags, hiter, hlease, rfl⟩, f, hf, hrule⟩
    obtain ⟨-, hnames⟩ := hfound flags hflags
    obtain ⟨ls, rfl⟩ := returns_overlapsBy_iff.mp ⟨_, hlease⟩
    refine ⟨hjudged.mp ⟨flags, hflags⟩, hnames.mp ?_, ls, hiter⟩
    by_contra hno
    rw [if_neg hno, List.append_nil, List.mem_append] at hf
    rcases hf with hf | hf
    · split at hf
      · rw [List.mem_singleton.mp hf] at hrule
        cases hrule
      · cases hf
    · obtain ⟨k, rfl⟩ := mem_overlapsBy hlease f hf
      cases hrule
  · rintro ⟨hj, hnames, ls, hiter⟩
    obtain ⟨flags, hflags⟩ := hjudged.mpr hj
    obtain ⟨found, hlease⟩ := returns_overlapsBy_iff.mpr ⟨ls, rfl⟩
    refine ⟨_, ⟨flags, _, found, hflags, hiter, hlease, rfl⟩,
      finding .chainUpstreamUnreconciled "an IPLAN depends on an unreconciled upstream", ?_, rfl⟩
    rw [if_pos ((hfound flags hflags).2.mpr hnames)]
    exact List.mem_append_left _ (List.mem_append_right _ (List.mem_singleton.mpr rfl))

end Findings

end IplanRunner
