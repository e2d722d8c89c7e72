import Mathlib.Data.List.Dedup
import IplanRunner.Foundation.FirstServed
import IplanRunner.Intake.Manifest

/-!
The order in which the run loop takes up the tasks (`orchestrator/topo.py`).

* `nodeIds`, `lastNode`: the keys of the dictionaries built from a task graph, and what a key is
  mapped to when an id is repeated.
* `topoOrder`: the order, an instance of the greedy one.
* `topoOrder_perm`, `topoOrder_deps_before`: what the loop relies on.
* `StringIds`, `StringDeps`, `DepsResolved`: what is asked of a graph; `Manifest.Accepted.deps`.
-/

namespace IplanRunner

open Foundation

variable [PyRuntime]

/-- `str(t["task_id"])` over the graph, each once. -/
def nodeIds (graph : List TaskNode) : List String := (graph.map fun t => t.taskId.pyStr).dedup

/-- `{str(t["task_id"]): t for t in graph}.get(task_id)`: the last node of a repeated id. -/
def lastNode (graph : List TaskNode) (taskId : String) : Option TaskNode :=
  graph.reverse.find? fun t => t.taskId.pyStr == taskId

/-- The dependencies of a key, as the graph lists them. -/
def rawDeps (graph : List TaskNode) (taskId : String) : List Val :=
  ((lastNode graph taskId).map (·.dependsOn)).getD []

/-- `deps[tid] <= done`. -/
def depsDone (graph : List TaskNode) (done : List String) (taskId : String) : Bool :=
  (rawDeps graph taskId).all fun d => done.any fun s => d.pyEq (.str s)

/-- `topo_order`: a dependency that cannot be hashed raises. -/
def topoOrder (graph : List TaskNode) : Except PyErr (List String) :=
  if graph.all fun t => t.dependsOn.all Val.hashable then
    .ok (greedyOrder (depsDone graph) (nodeIds graph).length [] (nodeIds graph))
  else .error .typeError

/-- The dependencies of a key as the run loop reads them, `str(d)` each. -/
def nodeDeps (graph : List TaskNode) (taskId : String) : List String :=
  (rawDeps graph taskId).map Val.pyStr

lemma mem_nodeIds (graph : List TaskNode) (taskId : String) :
    taskId ∈ nodeIds graph ↔ ∃ t ∈ graph, t.taskId.pyStr = taskId := by
  simp [nodeIds]

lemma nodup_nodeIds (graph : List TaskNode) : (nodeIds graph).Nodup :=
  List.nodup_dedup _

lemma lastNode_isSome (graph : List TaskNode) (taskId : String) :
    (lastNode graph taskId).isSome ↔ taskId ∈ nodeIds graph := by
  simp [lastNode, mem_nodeIds, List.find?_isSome]

lemma lastNode_pyStr {graph : List TaskNode} {taskId : String} {t : TaskNode}
    (h : lastNode graph taskId = some t) : t.taskId.pyStr = taskId := by
  simpa using List.find?_some h

lemma lastNode_mem {graph : List TaskNode} {taskId : String} {t : TaskNode}
    (h : lastNode graph taskId = some t) : t ∈ graph := by
  simpa using List.mem_of_find?_eq_some h

/-- **The order holds every id once.** -/
theorem topoOrder_perm {graph : List TaskNode} {order : List String}
    (h : topoOrder graph = .ok order) : order.Perm (nodeIds graph) := by
  rw [topoOrder] at h
  split at h
  · cases h
    exact (greedyOrder_firstServed _ _ _ _ le_rfl).served.perm
  · simp at h

/-- Every task id of the graph is a string. -/
def StringIds (graph : List TaskNode) : Prop := ∀ t ∈ graph, ∃ s, t.taskId = .str s

/-- The dependencies of every task are given as strings. -/
def StringDeps (graph : List TaskNode) : Prop := ∀ t ∈ graph, ∀ d ∈ t.dependsOn, ∃ s, d = .str s

/-- String dependencies can be ordered. -/
lemma topoOrder_returns {graph : List TaskNode} (hstr : StringDeps graph) :
    ∃ order, topoOrder graph = .ok order := by
  have hall : (graph.all fun t => t.dependsOn.all Val.hashable) = true := by
    rw [List.all_eq_true]
    intro t ht
    rw [List.all_eq_true]
    intro d hd
    obtain ⟨s, rfl⟩ := hstr t ht d hd
    rfl
  exact ⟨_, by rw [topoOrder, if_pos hall]⟩

/-- Every dependency is the id of a task of the graph. -/
def DepsResolved (graph : List TaskNode) : Prop :=
  ∀ t ∈ graph, ∀ d ∈ t.dependsOn, d.pyStr ∈ nodeIds graph

/-- An accepted manifest whose ids are strings depends on its own tasks, by strings. -/
lemma Manifest.Accepted.deps {m : Manifest} (h : m.Accepted) (hids : StringIds m.taskGraph) :
    StringDeps m.taskGraph ∧ DepsResolved m.taskGraph := by
  have hdep : ∀ t ∈ m.taskGraph, ∀ d ∈ t.dependsOn, ∃ t' ∈ m.taskGraph, ∃ s,
      t'.taskId = .str s ∧ d = .str s := by
    intro t ht d hd
    obtain ⟨t', ht', heq⟩ := accepted_deps h t ht d hd
    obtain ⟨s, hs⟩ := hids t' ht'
    rw [hs, Val.pyEq_str_iff] at heq
    exact ⟨t', ht', s, hs, heq⟩
  constructor
  · intro t ht d hd
    obtain ⟨_, _, s, _, hs⟩ := hdep t ht d hd
    exact ⟨s, hs⟩
  · intro t ht d hd
    obtain ⟨t', ht', s, hs', hs⟩ := hdep t ht d hd
    exact (mem_nodeIds _ _).mpr ⟨t', ht', by rw [hs', hs]⟩

/-- Resolved dependencies stay among the ids. -/
lemma DepsResolved.closed {graph : List TaskNode} (h : DepsResolved graph) :
    ∀ t ∈ nodeIds graph, ∀ d ∈ nodeDeps graph t, d ∈ nodeIds graph := by
  intro t ht d hd
  rw [nodeDeps, rawDeps] at hd
  cases hn : lastNode graph t with
  | none => simp [hn] at hd
  | some node =>
      obtain ⟨v, hv, rfl⟩ := List.mem_map.mp hd
      rw [hn] at hv
      exact h node (lastNode_mem hn) v hv

/-- A task that sits on no dependency cycle, nor above one. -/
def Grounded (graph : List TaskNode) : String → Prop :=
  Derivable (nodeDeps graph) (· ∈ nodeIds graph)

lemma depsDone_iff {graph : List TaskNode} (hstr : StringDeps graph) (done : List String)
    (taskId : String) :
      depsDone graph done taskId = true ↔ ∀ d ∈ nodeDeps graph taskId, d ∈ done := by
  have hraw : ∀ d ∈ rawDeps graph taskId, ∃ s, d = .str s := by
    intro d hd
    rw [rawDeps] at hd
    cases hn : lastNode graph taskId with
    | none => simp [hn] at hd
    | some t =>
        rw [hn] at hd
        exact hstr t (lastNode_mem hn) d hd
  have hone : ∀ d ∈ rawDeps graph taskId,
      (done.any fun s => d.pyEq (.str s)) = true ↔ d.pyStr ∈ done := by
    intro d hd
    obtain ⟨s, rfl⟩ := hraw d hd
    simp
  rw [depsDone, List.all_eq_true, nodeDeps]
  simp only [List.mem_map, forall_exists_index, and_imp, forall_apply_eq_imp_iff₂]
  exact forall₂_congr hone

/-- **A grounded task comes after its dependencies.** -/
theorem topoOrder_deps_before {graph : List TaskNode} (hstr : StringDeps graph)
    {order pre post : List String} {taskId : String} (h : topoOrder graph = .ok order)
    (hsplit : order = pre ++ taskId :: post) (hg : Grounded graph taskId) :
    ∀ d ∈ nodeDeps graph taskId, d ∈ pre := by
  rw [topoOrder] at h
  split at h
  · cases h
    intro d hd
    have hall : ∀ t, Grounded graph t → t ∈ ([] : List String) ∨ t ∈ nodeIds graph :=
      fun t ht => Or.inr ht.holds
    have hserved := (greedyOrder_firstServed (depsDone graph) _ [] (nodeIds graph) le_rfl).served
    rcases hserved.deps_before (depsDone_iff hstr) hall hsplit hg d hd with h | h
    · simp at h
    · exact h
  · simp at h

end IplanRunner
