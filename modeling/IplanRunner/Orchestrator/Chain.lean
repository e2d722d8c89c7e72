import IplanRunner.Executor.Actions
import IplanRunner.Foundation.Dependencies
import IplanRunner.Foundation.Ordering
import IplanRunner.Orchestrator.Loop

/-!
Chains of plans (`orchestrator/chain.py`).

* `chainOrder`: the order of a chain; `chainOrder_served`: it serves what is ready.
* `ChainLedger`, `buildChainLedger`: the ledger of a chain.
* `chainTurn`, `chainLoop`, `runChain`: the run of a chain; `chainTurns`: the plans whose turn came
  before it was stopped.
-/

namespace IplanRunner

open Foundation

variable [PyRuntime]

/-! ### The order -/

/-- `str(n["iplan_id"])`. -/
def nodeId (n : Val) : Except PyErr String := do return (← n.item "iplan_id").pyStr

/-- `str(d) for d in n.get("depends_on", [])`. -/
def upstreams (n : Val) : Except PyErr (List String) := do
  return (← (← n.get "depends_on" (.list [])).iter).map Val.pyStr

/-- `(n.get("order", 0), str(n["iplan_id"]))`. -/
def orderKey (n : Val) : Except PyErr (Val × String) := do
  let order ← n.get "order" (.int 0)
  return (order, ← nodeId n)

/-- The entries of `{str(n["iplan_id"]): f(n) for n in iplan_chain}`, in the order they are made. -/
def byId {α : Type} (f : Val → Except PyErr α) (iplanChain : List Val) :
    Except PyErr (List (String × α)) :=
  iplanChain.mapM fun n => do
    let id ← nodeId n
    return (id, ← f n)

omit [PyRuntime] in
/-- `entries.get(id)`: what was entered last. -/
def lastOf {α : Type} (entries : List (String × α)) (id : String) : Option α :=
  entries.reverse.lookup id

omit [PyRuntime] in
/-- `deps[t] <= done`. -/
def upstreamsDone (deps : String → List String) (done : List String) (t : String) : Bool :=
  (deps t).all (· ∈ done)

/-- `ready[0] if ready else min(remaining, key=...)`. -/
def chooseNext (key : String → Val × String) (ready : List String) (first : String)
    (others : List String) : Except PyErr String :=
  match ready with
  | t :: _ => .ok t
  | [] => minBy key first others

/-- The loop of `chain_order`, with as much fuel as there is to serve. -/
def serveChain (deps : String → List String) (key : String → Val × String) :
    ℕ → List String → List String → Except PyErr (List String)
  | 0, _, _ => .ok []
  | _ + 1, _, [] => .ok []
  | fuel + 1, done, first :: others => do
      let ready ← sortedBy key ((first :: others).filter (upstreamsDone deps done))
      let chosen ← chooseNext key ready first others
      return chosen :: (← serveChain deps key fuel (chosen :: done)
        ((first :: others).erase chosen))

/-- `chain_order`. -/
def chainOrder (iplanChain : List Val) : Except PyErr (List String) := do
  let deps ← byId upstreams iplanChain
  let keys ← byId orderKey iplanChain
  let ids := (deps.map Prod.fst).dedup
  serveChain (fun t => (lastOf deps t).getD []) (fun t => (lastOf keys t).getD (.none, t))
    ids.length [] ids

/-! ### The ledger of a chain -/

/-- The ledger of a chain, with the nodes as they are in it. -/
structure ChainLedger where
  chainId : Val
  iplanChain : List Dict
  executionOrder : List String
  executionTiers : Val
  crossPlanLeases : Val
  allowed : Bool

omit [PyRuntime] in
/-- The ledger of a chain as a document. -/
def ChainLedger.toDoc (C : ChainLedger) : Val :=
  .dict
    [("metadata", .dict [("schema_version", .str "1.0"),
        ("document_type", .str "iplan-chain-ledger"), ("framework", .str "iops")]),
      ("chain_control", .dict [("chain_id", C.chainId),
        ("status", .str (if C.allowed then "completed" else "blocked"))]),
      ("iplan_chain", .list (C.iplanChain.map .dict)),
      ("execution_order", strList C.executionOrder),
      ("execution_tiers", C.executionTiers),
      ("cross_plan_leases", C.crossPlanLeases),
      ("chain_gate_results", .list []),
      ("chain_reconciliation", .dict [("allowed", .bool C.allowed)])]

/-- `reconciled.get(str(n["iplan_id"]), False)`. -/
def isReconciled (reconciled : List (String × Bool)) (n : Val) : Except PyErr Bool := do
  return (reconciled.lookup (← nodeId n)).getD false

/-- `{**n, "reconciled": ...}`. -/
def markNode (reconciled : List (String × Bool)) (n : Val) : Except PyErr Dict :=
  match n with
  | .dict kvs => do return Dict.set kvs "reconciled" (.bool (← isReconciled reconciled n))
  | _ => .error .typeError

/-- `build_chain_ledger`, of a chain with these nodes. -/
def buildChainLedger (chain : Dict) (iplanChain : List Val) (reconciled : List (String × Bool)) :
    Except PyErr ChainLedger := do
  let nodes ← iplanChain.mapM (markNode reconciled)
  let flags ← iplanChain.mapM (isReconciled reconciled)
  let order ← chainOrder iplanChain
  return {
    chainId := (chain.lookup "chain_id").getD (.str "CHAIN")
    iplanChain := nodes
    executionOrder := order
    executionTiers := (chain.lookup "execution_tiers").getD (.list [])
    crossPlanLeases := (chain.lookup "cross_plan_leases").getD (.list [])
    allowed := flags.all id }

/-! ### The run -/

/-- `reconciled` and `sub_ledgers`; an id is entered once, as the order has it once. -/
structure ChainState where
  reconciled : List (String × Bool)
  subLedgers : List (String × Ledger)

/-- `ChainResult`. -/
structure ChainResult where
  chainLedger : ChainLedger
  subLedgers : List (String × Ledger)

omit [PyRuntime] in
/-- `reconciled[iplan_id] = False`. -/
def ChainState.skip (st : ChainState) (id : String) : ChainState :=
  { st with reconciled := st.reconciled ++ [(id, false)] }

omit [PyRuntime] in
/-- What the run of a plan enters. -/
def ChainState.record (st : ChainState) (id : String) (ledger : Ledger) : ChainState where
  reconciled := st.reconciled ++ [(id, ledger.reconciliation.allowed)]
  subLedgers := st.subLedgers ++ [(id, ledger)]

omit [PyRuntime] in
/-- `all(reconciled.get(str(d)) for d in ...)`. -/
def ChainState.meets (st : ChainState) (deps : List String) : Bool :=
  deps.all fun d => (st.reconciled.lookup d).getD false

variable {W : Type} (h : Host W) (gate : Gate) (executorFor : String → Call PyErr W (Executor W))
  (nodes : String → Option Val) (iplans : String → Option Manifest)

/-- `_run(...)`, without a control, without retries. -/
def runPlan (manifest : Manifest) (x : Executor W) : Call PyErr W RunResult := fun w =>
  let r := run { h.driving x with control := fun w => (.running, w) } ⟨0, 0, gate⟩ manifest w
  (r.1, r.2.1)

/-- `d[key]`. -/
def itemOf {α : Type} (d : String → Option α) (key : String) : Except PyErr α :=
  match d key with
  | some v => .ok v
  | none => .error (.keyError key)

/-- The turn of a plan. -/
def chainTurn (id : String) (st : ChainState) : Call PyErr W ChainState := do
  let node ← Call.ofExcept (itemOf nodes id)
  let deps ← Call.ofExcept (upstreams node)
  if st.meets deps then
    let manifest ← Call.ofExcept (itemOf iplans id)
    let x ← executorFor id
    let result ← runPlan h gate manifest x
    return st.record id result.ledger
  else return st.skip id

/-- The loop of `run_chain`. -/
def chainLoop : List String → ChainState → Call PyErr W ChainState
  | [], st => pure st
  | id :: rest, st => fun w =>
      match h.control w with
      | (.running, w') => (chainTurn h gate executorFor nodes iplans id st >>= chainLoop rest) w'
      | (_, w') => (.ok st, w')

/-- The plans whose turn comes: the control lets the chain go on before it. -/
def chainTurns : List String → ChainState → W → List String
  | [], _, _ => []
  | id :: rest, st, w =>
      match h.control w with
      | (.running, w') =>
          id :: match chainTurn h gate executorFor nodes iplans id st w' with
            | (.ok st', w'') => chainTurns rest st' w''
            | (.error _, _) => []
      | _ => []

/-- `run_chain`. -/
def runChain (chain : Dict) : Call PyErr W ChainResult := do
  let raw ← Call.ofExcept ((Val.dict chain).item "iplan_chain")
  let iplanChain ← Call.ofExcept raw.iter
  let nodes ← Call.ofExcept (byId pure iplanChain)
  let order ← Call.ofExcept (chainOrder iplanChain)
  let st ← chainLoop h gate executorFor (lastOf nodes) iplans order ⟨[], []⟩
  let chainLedger ← Call.ofExcept (buildChainLedger chain iplanChain st.reconciled)
  return ⟨chainLedger, st.subLedgers⟩

end IplanRunner
