import IplanRunner.Foundation.Along
import IplanRunner.Runs.Ended
import IplanRunner.Runs.Script

/-!
A task is started after its dependencies completed, as the log tells it.

* `CompletionLogged`: every completed task has a `task_completed` event.
* `DepsFirst`: every `task_started` event comes after a `task_completed` event of each dependency.
* `deps_first`: both hold along every history of one manifest, whatever is overridden.
-/

namespace IplanRunner

open Foundation

/-- The events hold a `task_completed` event of the task. -/
def CompletedIn (events : List EventBody) (taskId : String) : Prop :=
  ∃ e ∈ events, e.kind = .taskCompleted ∧ e.subjectId = .str taskId

lemma CompletedIn.append {events : List EventBody} {taskId : String}
    (h : CompletedIn events taskId) (more : List EventBody) :
    CompletedIn (events ++ more) taskId := by
  obtain ⟨e, he, hkind⟩ := h
  exact ⟨e, List.mem_append_left _ he, hkind⟩

/-- An event that starts a task comes after the completion of its dependencies. -/
def StartedAfter (deps : String → List String) (before : List EventBody) (e : EventBody) : Prop :=
  ∀ taskId, e.kind = .taskStarted → e.subjectId = .str taskId →
    ∀ d ∈ deps taskId, CompletedIn before d

section Runtime

variable [PyRuntime]

/-- Every completed task has a `task_completed` event. -/
def CompletionLogged (L : Ledger) : Prop := ∀ t, L.Done t → CompletedIn L.bodies t

/-- Tasks are started after their dependencies. -/
def DepsFirst (graph : List TaskNode) (L : Ledger) : Prop :=
  Along (StartedAfter (nodeDeps graph)) [] L.bodies

section Turn

variable {W : Type} {h : Host W} {cfg : RunConfig} {node : TaskNode} {taskId : String}
  {completed : List String} {L : Ledger} {r : Except PyErr Unit} {δ : Delta} {fx : List Effect}

/-- A turn logs a start only when the dependencies are among the completed ids. -/
lemma Turn.depsMet (hturn : Turn h cfg node taskId completed L r δ fx) {e : EventBody}
    (he : e ∈ δ.events) (hkind : e.kind = .taskStarted) : DepsMet node completed := by
  cases hturn with
  | ran hmet _ => exact hmet
  | unmet _ =>
      rw [List.mem_singleton.mp he] at hkind
      exact absurd hkind (by simp [loopEvent])

/-- A turn that completes its task logs it. -/
lemma Turn.completionLogged (hturn : Turn h cfg node taskId completed L r δ fx)
    (hdone : ¬ L.Done taskId) (hafter : (L.apply taskId δ).Done taskId) :
    CompletedIn δ.events taskId := by
  have hst : ∀ st, (∀ e, (δ.entry e).status = st) → st = .completed := by
    intro st hst
    rw [Ledger.done_iff, hturn.status?_apply, if_pos rfl] at hafter
    obtain ⟨e, -, he⟩ := Option.map_eq_some_iff.mp hafter
    rw [← hst e, he]
  cases hturn with
  | unmet _ => exact absurd (hst .blocked fun _ => rfl) (by simp)
  | ran _ hrun =>
      cases hrun with
      | committed _ =>
          rw [Ledger.apply_empty] at hafter
          exact absurd hafter hdone
      | conflict _ _ => exact absurd (hst .blocked fun _ => rfl) (by simp)
      | crashed _ _ _ _ => exact absurd (hst .inProgress fun _ => rfl) (by simp)
      | failed _ _ _ _ _ => exact absurd (hst .blocked fun _ => rfl) (by simp)
      | @succeeded b attempts result edits ev completedAt releasedAt =>
          refine ⟨loopEvent L.isolationScope .taskCompleted taskId completedAt [], ?_, rfl, rfl⟩
          exact List.mem_append_right _ (List.mem_singleton.mpr rfl)

end Turn

/-! ### Histories -/

variable {manifest : Manifest} {overrides : Ledger → String → Prop}

/-- Along a history of one manifest completions are logged, and tasks started after their
dependencies. -/
lemma depsFirst_history : HistoryInvariant (· = manifest) overrides
    (fun L => CompletionLogged L ∧ DepsFirst manifest.taskGraph L) where
  start := by
    rintro m L rfl hstart
    have hempty : L.bodies = [] := by rw [Ledger.bodies, (startLedger_empty hstart).2.1]; rfl
    refine ⟨fun t ht => ?_, ?_⟩
    · exact absurd ((exact_start hstart t).mpr ht) (by simp)
    · rw [DepsFirst, hempty]
      trivial
  turn := by
    rintro W h cfg m node taskId completed L r δ fx rfl hnode _ hdone hex hturn ⟨hlog, hfirst⟩
    constructor
    · intro t ht
      rw [bodies_apply]
      by_cases hown : t = taskId
      · subst hown
        obtain ⟨e, he, hkind⟩ := hturn.completionLogged hdone ht
        exact ⟨e, List.mem_append_right _ he, hkind⟩
      · exact (hlog t ((hturn.done_of_ne hown).mp ht)).append _
    · rw [DepsFirst, bodies_apply, along_append]
      refine ⟨hfirst, along_of_forall fun ys e he t hkind hsubject d hd => ?_⟩
      -- the task of the event is the one of the turn, and its dependencies were completed before
      obtain rfl : t = taskId := by
        have hown := hturn.subject h cfg e he
        rw [hsubject] at hown
        exact Val.str.inj hown
      have hmet := hturn.depsMet he hkind
      obtain ⟨v, hv, rfl⟩ : ∃ v ∈ node.dependsOn, v.pyStr = d := by
        simpa [nodeDeps, rawDeps, hnode] using hd
      exact (hlog _ ((hex _).mp (hmet v hv))).append ys
  state := fun _ hL => hL
  reconcile := fun hL => hL
  override := by
    rintro L blockerId b - - ⟨hlog, hfirst⟩
    refine ⟨fun t ht => hlog t ?_, hfirst⟩
    rw [Ledger.done_iff, Ledger.status?_override] at ht
    rw [Ledger.done_iff]
    obtain ⟨st, hst, hcompleted⟩ := Option.map_eq_some_iff.mp ht
    split at hcompleted
    · exact absurd hcompleted (by simp)
    · rw [hst, hcompleted]
  record := by
    rintro L resolution subject ⟨hlog, hfirst⟩
    have hbodies := bodies_recordResolution L resolution subject
    refine ⟨fun t ht => hbodies ▸ (hlog t ht).append _, ?_⟩
    rw [DepsFirst, hbodies, along_append]
    refine ⟨hfirst, along_of_forall fun ys e he t hkind => ?_⟩
    rw [List.mem_singleton.mp he] at hkind
    exact absurd hkind (by simp [resolutionEvent])

/-- **Dependencies come first in the log.**  In every ledger a history of one manifest reaches, a
`task_completed` event of each dependency of a task stands before every `task_started` event of the
task. -/
theorem deps_first {L : Ledger} (hL : Reached (· = manifest) (fun _ _ => True) L)
    {i : ℕ} {e : Event} {taskId : String} (he : L.executionLog[i]? = some e)
    (hkind : e.kind = .taskStarted) (hsubject : e.subjectId = .str taskId) :
    ∀ d ∈ nodeDeps manifest.taskGraph taskId, ∃ j < i, ∃ c, L.executionLog[j]? = some c
      ∧ c.kind = .taskCompleted ∧ c.subjectId = .str d := by
  intro d hd
  have hfirst := (hL.invariant depsFirst_history).2
  have hbody : L.bodies[i]? = some e.toEventBody := by
    rw [Ledger.bodies, List.getElem?_map, he]
    rfl
  obtain ⟨b, hb, hbkind, hbsubject⟩ :=
    (along_iff _ _).mp hfirst i _ hbody taskId hkind hsubject d hd
  obtain ⟨j, hj⟩ := List.mem_iff_getElem?.mp hb
  rw [List.nil_append, List.getElem?_take] at hj
  split at hj
  · rename_i hlt
    rw [Ledger.bodies, List.getElem?_map] at hj
    obtain ⟨c, hc, rfl⟩ := Option.map_eq_some_iff.mp hj
    exact ⟨j, hlt, c, hc, hbkind, hbsubject⟩
  · cases hj

end Runtime

section Example

attribute [local instance] cpython

/-- The first task fails and is overridden; the resume completes it and starts the second one. -/
theorem deps_first_after_override :
    ∃ L, playRun (fun _ _ => true) (scriptManifest [("T1", []), ("T2", ["T1"])])
        [("T1", .always mockFailure)] [] [.decide "B1" "override", .resume [] []] = some L
      ∧ ∃ e, L.executionLog[6]? = some e ∧ e.kind = .taskStarted ∧ e.subjectId = .str "T2"
        ∧ ∃ j < 6, ∃ c, L.executionLog[j]? = some c ∧ c.kind = .taskCompleted
          ∧ c.subjectId = .str "T1" := by
  obtain ⟨L, hL, he⟩ : ∃ L, playRun (fun _ _ => true)
      (scriptManifest [("T1", []), ("T2", ["T1"])]) [("T1", .always mockFailure)] []
        [.decide "B1" "override", .resume [] []] = some L
      ∧ (L.executionLog[6]?).any (fun e => e.kind = .taskStarted ∧ e.subjectId = .str "T2") := by
    refine (Option.any_eq_true _ _).mp ?_
    decide +kernel
  obtain ⟨e, hget, hkind⟩ := (Option.any_eq_true _ _).mp he
  obtain ⟨hkind, hsubject⟩ := of_decide_eq_true hkind
  have hreached : Reached (· = scriptManifest [("T1", []), ("T2", ["T1"])])
      (fun _ _ => true = true) L :=
    playRun_reached (by rfl) (scriptManifest_roots _) hL
  refine ⟨L, hL, e, hget, hkind, hsubject, ?_⟩
  exact deps_first (hreached.mono (fun _ h => h) fun _ _ _ => trivial) hget hkind hsubject "T1"
    (by decide +kernel)

end Example

end IplanRunner
