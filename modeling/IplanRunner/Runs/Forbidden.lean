import IplanRunner.Executor.Workspace
import IplanRunner.Runs.Contained

/-!
Whether the forbidden paths of a scope are enforced.

* `Forbidden`: `classify_path`, given the lists of the scope, says `SANDBOX.FORBIDDEN`.
* `SpecCrosses`, `RuntimeCrosses`: a write, or an accepted report, of a path under a forbidden
  entry. No executor hands `forbidden_paths` on, so nothing stands in its way.
* `ForbiddenKept`: no forbidden path is written, and no task that edits one is completed.
* `forbidden_kept_iff`: this holds exactly of the runs none of whose calls crosses;
  `forbidden_written` is one that does.
-/

namespace IplanRunner

open Foundation

/-- `isolation_scope.get("forbidden_paths", [])`. -/
def scopeForbidden (scope : Dict) : Except PyErr (List Val) :=
  ((scope.lookup "forbidden_paths").getD (.list [])).iter

/-- `classify_path(path, allowed_roots, forbidden_paths)` is `SANDBOX.FORBIDDEN`. -/
def Forbidden (scope : Dict) (path : String) : Prop :=
  ∃ roots forbiddenPaths, scopeRoots scope = .ok roots ∧ scopeForbidden scope = .ok forbiddenPaths
    ∧ classifyDoc path roots forbiddenPaths = .ok ⟨false, "SANDBOX.FORBIDDEN"⟩

/-- The path lies under a forbidden entry of the scope. -/
def ScopeBars (scope : Dict) (path : String) : Prop :=
  ∃ forbiddenPaths, scopeForbidden scope = .ok forbiddenPaths ∧ BarredDoc path forbiddenPaths

/-- A path is forbidden when the jail, not knowing of the forbidden paths, allows it. -/
lemma forbidden_iff {scope : Dict} {roots : List Val} (hroots : scopeRoots scope = .ok roots)
    (path : String) : Forbidden scope path
      ↔ (∃ reason, classifyDoc path roots [] = .ok ⟨true, reason⟩) ∧ ScopeBars scope path := by
  constructor
  · rintro ⟨roots', forbiddenPaths, hroots', hforbidden, hclass⟩
    rw [hroots] at hroots'
    cases hroots'
    obtain ⟨hallowed, hbarred⟩ := (classifyDoc_forbidden_iff _ _ _).mp hclass
    exact ⟨hallowed, forbiddenPaths, hforbidden, hbarred⟩
  · rintro ⟨hallowed, forbiddenPaths, hforbidden, hbarred⟩
    exact ⟨roots, forbiddenPaths, hroots, hforbidden,
      (classifyDoc_forbidden_iff _ _ _).mpr ⟨hallowed, hbarred⟩⟩

section Runtime

variable [PyRuntime]

/-! ### Calls that cross -/

section Spec

variable {W : Type} (eff : Effectors W)

/-- A write action of a path under a forbidden entry, whose write returns. -/
def BarredWrite (roots : List Val) (scope : Dict) (v : Val × W) : Prop :=
  ∃ path content w, v.1.item "type" = .ok (.str "write") ∧ v.1.item "path" = .ok (.str path)
    ∧ v.1.get "content" (.str "") = .ok content
    ∧ eff.applyWrite (.str path) content roots v.2 = (.ok path, w) ∧ ScopeBars scope path

/-- The loop over the actions of the specification comes to such a write. -/
def SpecCrosses (roots : List Val) (scope : Dict) (spec : Val) (w : W) : Prop :=
  ∃ actions v, actionsOf spec = .ok actions ∧ v ∈ reached eff roots actions w
    ∧ BarredWrite eff roots scope v

variable {eff}

/-- **A specification writes a forbidden path exactly when it crosses.** -/
theorem specWrites_forbidden_iff (hjail : eff.Jailed) {scope : Dict} {roots : List Val}
    (hroots : scopeRoots scope = .ok roots) (spec : Val) (w : W) :
    (∃ path ∈ specWrites eff roots spec w, Forbidden scope path)
      ↔ SpecCrosses eff roots scope spec w := by
  rw [specWrites, SpecCrosses]
  cases hactions : actionsOf spec with
  | error e => simp
  | ok actions =>
      simp only [Except.ok.injEq, exists_and_left, exists_eq_left', writtenPaths,
        List.mem_filterMap]
      constructor
      · rintro ⟨path, ⟨v, hv, hwrote⟩, hforbidden⟩
        refine ⟨v, hv, ?_⟩
        rw [writes?] at hwrote
        rcases hone : attemptAction eff roots v.1 v.2 with ⟨e | p, w'⟩
        · rw [hone] at hwrote
          cases hwrote
        · rw [hone] at hwrote
          cases p with
          | wrote path' =>
              cases hwrote
              obtain ⟨value, content, hkind, hpath, hcontent, hw⟩ := attemptAction_wrote_iff.mp hone
              obtain ⟨rfl, -⟩ := hjail _ _ _ _ _ _ hw
              exact ⟨path, content, w', hkind, hpath, hcontent, hw,
                ((forbidden_iff hroots path).mp hforbidden).2⟩
          | _ => cases hwrote
      · rintro ⟨v, hv, path, content, w', hkind, hpath, hcontent, hw, hbars⟩
        obtain ⟨-, hallowed⟩ := hjail _ _ _ _ _ _ hw
        refine ⟨path, ⟨v, hv, ?_⟩, (forbidden_iff hroots path).mpr ⟨hallowed, hbars⟩⟩
        rw [writes?, attemptAction_wrote_iff.mpr ⟨_, _, hkind, hpath, hcontent, hw⟩]
        rfl

end Spec

/-- A call of `ScriptedExecutor` crosses. -/
def ScriptedCrosses {W : Type} (eff : Effectors W) (script : Val) (node : TaskNode) (scope : Dict)
    (w : W) : Prop :=
  ∃ spec roots, taskSpecOf script node = .ok spec ∧ scopeRoots scope = .ok roots
    ∧ SpecCrosses eff roots scope spec w

/-- A call of `ApiExecutor` crosses, by the actions of its answer. -/
def ApiCrosses [FloatReader] [JsonReader] {W : Type} (eff : Effectors W) (timer : Timer W)
    (client : String → Call PyErr W ModelResponse) (budget : Budget) (node : TaskNode)
    (scope : Dict) (s : W × Usage) : Prop :=
  ∃ spec roots s', proposeActions timer client budget node scope s = (.ok (.inr (spec, roots)), s')
    ∧ SpecCrosses eff roots scope (.dict spec) s'.1

/-- The runtime reports success, in time, within the budget and on files the roots allow, and one of
them is under a forbidden entry. -/
def RuntimeCrosses [FloatReader] {W : Type} (timer : Timer W)
    (client : TaskNode → Call PyErr W RuntimeResult) (budget : Budget) (node : TaskNode)
    (scope : Dict) (s : W × Usage) : Prop :=
  ∃ result s' s'' roots, consult timer budget (client node) s = (.ok (.inr result), s')
    ∧ account budget result.usage s' = (.ok none, s'') ∧ scopeRoots scope = .ok roots
    ∧ (∀ path ∈ result.changedFiles, ∃ reason, classifyDoc path roots [] = .ok ⟨true, reason⟩)
    ∧ result.success = true ∧ ∃ path ∈ result.changedFiles, ScopeBars scope path

lemma scriptedWrites_forbidden_iff {W : Type} {eff : Effectors W} (hjail : eff.Jailed)
    (script : Val)
    (node : TaskNode) (scope : Dict) (w : W) :
    (∃ path ∈ scriptedWrites eff script node scope w, Forbidden scope path)
      ↔ ScriptedCrosses eff script node scope w := by
  rw [scriptedWrites, ScriptedCrosses]
  cases taskSpecOf script node with
  | error e => simp
  | ok spec =>
      cases hroots : scopeRoots scope with
      | error e => simp
      | ok roots => simpa using specWrites_forbidden_iff hjail hroots spec w

/-- An answer is carried out with the roots of the scope. -/
lemma proposeActions_roots [FloatReader] [JsonReader] {W : Type} {timer : Timer W}
    {client : String → Call PyErr W ModelResponse} {budget : Budget} {node : TaskNode}
    {scope : Dict} {s s' : W × Usage} {spec : Dict} {roots : List Val}
    (h : proposeActions timer client budget node scope s = (.ok (.inr (spec, roots)), s')) :
    scopeRoots scope = .ok roots := by
  rw [proposeActions] at h
  obtain ⟨answer, s₁, -, h⟩ := Call.bind_eq_ok.mp h
  cases answer with
  | inl early => cases h
  | inr response =>
      obtain ⟨refused, s₂, -, h⟩ := Call.bind_eq_ok.mp h
      cases refused with
      | some early => cases h
      | none =>
          obtain ⟨parsed, s₃, -, h⟩ := Call.bind_eq_ok.mp h
          cases parsed with
          | none => cases h
          | some parsed =>
              obtain ⟨roots', s₄, hroots, h⟩ := Call.bind_eq_ok.mp h
              cases h
              exact congrArg Prod.fst hroots

lemma apiWrites_forbidden_iff [FloatReader] [JsonReader] {W : Type} {eff : Effectors W}
    (hjail : eff.Jailed) (timer : Timer W) (client : String → Call PyErr W ModelResponse)
    (budget : Budget) (node : TaskNode) (scope : Dict) (s : W × Usage) :
    (∃ path ∈ apiWrites timer client budget eff node scope s, Forbidden scope path)
      ↔ ApiCrosses eff timer client budget node scope s := by
  rw [apiWrites, ApiCrosses]
  rcases hproposed : proposeActions timer client budget node scope s with
    ⟨e | early | ⟨spec, roots⟩, s'⟩
  · simp
  · simp
  · dsimp only
    rw [specWrites_forbidden_iff hjail (proposeActions_roots hproposed)]
    constructor
    · exact fun hcrosses => ⟨spec, roots, s', rfl, hcrosses⟩
    · rintro ⟨spec', roots', s'', heq, hcrosses⟩
      cases heq
      exact hcrosses

omit [PyRuntime] in
/-- What a runtime reports that is forbidden, and succeeds with it. -/
lemma runtime_forbidden_iff [FloatReader] {W : Type} (timer : Timer W)
    (client : TaskNode → Call PyErr W RuntimeResult) (budget : Budget) (node : TaskNode)
    (scope : Dict) (s : W × Usage) :
    (∃ path ∈ hostRuntimeReports timer client budget node s, Forbidden scope path)
        ∧ (∃ governed s'', hostRuntimeExecute timer client budget node scope s = (.ok governed, s'')
          ∧ governed.outcome = .success)
      ↔ RuntimeCrosses timer client budget node scope s := by
  rw [hostRuntimeExecute_success_iff, RuntimeCrosses]
  constructor
  · rintro ⟨⟨path, hpath, hforbidden⟩, result, s', s'', roots, hanswer, haccount, hroots, hall,
      hsuccess⟩
    rw [hostRuntimeReports, hanswer] at hpath
    exact ⟨result, s', s'', roots, hanswer, haccount, hroots, hall, hsuccess, path, hpath,
      ((forbidden_iff hroots path).mp hforbidden).2⟩
  · rintro ⟨result, s', s'', roots, hanswer, haccount, hroots, hall, hsuccess, path, hpath, hbars⟩
    refine ⟨⟨path, ?_, (forbidden_iff hroots path).mpr ⟨hall path hpath, hbars⟩⟩,
      result, s', s'', roots, hanswer, haccount, hroots, hall, hsuccess⟩
    rw [hostRuntimeReports, hanswer]
    exact hpath

/-- The three executors, on a workspace or with a runtime of their own, and the calls that cross. -/
inductive Governed [FloatReader] [JsonReader] :
    {W : Type} → Executor W → (TaskNode → Dict → W → Prop) → Prop
  | scripted {X : Type} (lim : Limits) (cwd : Loc) (workspace : String)
      (command : Val → Call PyErr (Tree × X) CommandOutcome) (secrets : List String)
      (script : Val) :
      Governed (scriptedExecutor (workspaceEffectors lim cwd workspace command) secrets script)
        (ScriptedCrosses (workspaceEffectors lim cwd workspace command) script)
  | api {X : Type} (lim : Limits) (cwd : Loc) (workspace : String)
      (command : Val → Call PyErr (Tree × X) CommandOutcome) (timer : Timer (Tree × X))
      (client : String → Call PyErr (Tree × X) ModelResponse) (budget : Budget)
      (secrets : List String) :
      Governed (apiExecutor timer client budget (workspaceEffectors lim cwd workspace command)
          secrets)
        (ApiCrosses (workspaceEffectors lim cwd workspace command) timer client budget)
  | hostRuntime {W : Type} (timer : Timer W) (client : TaskNode → Call PyErr W RuntimeResult)
      (budget : Budget) :
      Governed (hostRuntimeExecutor timer client budget) (RuntimeCrosses timer client budget)

/-! ### The rule -/

section Rule

variable {W : Type} (h : Host W) (x : Executor W) (cfg : RunConfig) (m : Manifest)

/-- The call succeeds. -/
def CallSucceeds (node : TaskNode) (scope : Dict) (u : W) : Prop :=
  ∃ result w, x.execute node scope u = (.ok result, w) ∧ result.outcome = .success

/-- **Forbidden paths are enforced**: no call writes one, and no task whose call writes one, or is
told that one has changed, is completed in the ledger. -/
structure ForbiddenKept (calls : TaskNode → W → Prop) (scope : Dict) (L : Ledger) : Prop where
  unwritten : ∀ node u, calls node u → ∀ path ∈ x.written node scope u, ¬ Forbidden scope path
  uncompleted : ∀ node u, calls node u → ∀ path ∈ x.edits node scope u, Forbidden scope path →
    L.status? node.taskId.pyStr ≠ some .completed

variable {h x cfg m}

omit [PyRuntime] in
/-- A call completes its task exactly when it succeeds. -/
lemma TaskCourse.completes_iff {node : TaskNode} {taskId : String} {L : Ledger} {u : W}
    {r : Except PyErr Unit} {δ : Delta} {gx : List Effect}
    (hcourse : TaskCourse (h.driving x) node taskId L u r δ gx) (e : TaskEntry) :
    (δ.entry e).status = .completed ↔ CallSucceeds x node L.isolationScope u := by
  have hfails : ∀ {result : ExecutorResult} {w : W},
      (h.driving x).execute node L.isolationScope u = (.ok result, w) →
      result.outcome ≠ .success → ¬ CallSucceeds x node L.isolationScope u := by
    rintro result w hexec hfail ⟨result', w', hexec', hdone⟩
    obtain rfl := Except.ok.inj (congrArg Prod.fst (hexec.symm.trans hexec'))
    exact hfail hdone
  cases hcourse with
  | completed hexec hdone _ _ =>
      refine ⟨fun _ => ⟨_, _, hexec, hdone⟩, fun _ => ?_⟩
      simp [successDelta, completeEntry]
  | raised hexec =>
      have hnot : ¬ CallSucceeds x node L.isolationScope u := by
        rintro ⟨result', w', hexec', -⟩
        cases congrArg Prod.fst (hexec.symm.trans hexec')
      simp [crashDelta, hnot]
  | uncompensated hexec hfail _ _ => simp [crashDelta, hfails hexec hfail]
  | untouched hexec hfail _ => simp [failureDelta, blockEntry, hfails hexec hfail]
  | compensated hexec hfail _ _ => simp [failureDelta, blockEntry, hfails hexec hfail]

/-- The forbidden paths are enforced in a `_drive` exactly when no call of it writes one, or
succeeds having edited one. -/
lemma forbiddenKept_iff (hlists : x.Lists) (completed : List String) (s : Session W) :
    ForbiddenKept x (DriveCall h x cfg m completed s) s.ledger.isolationScope
        (drive (h.driving x) cfg m completed s).2.ledger
      ↔ ∀ node u, DriveCall h x cfg m completed s node u →
        ¬ ((∃ path ∈ x.written node s.ledger.isolationScope u,
            Forbidden s.ledger.isolationScope path)
          ∨ (∃ path ∈ x.edits node s.ledger.isolationScope u,
              Forbidden s.ledger.isolationScope path)
            ∧ CallSucceeds x node s.ledger.isolationScope u) := by
  have hdone : ∀ {node u}, DriveCall h x cfg m completed s node u →
      ((drive (h.driving x) cfg m completed s).2.ledger.status? node.taskId.pyStr = some .completed
        ↔ CallSucceeds x node s.ledger.isolationScope u) := by
    intro node u hcall
    obtain ⟨L, r, δ, gx, entry, hcourse, hscope, hstatus, -⟩ := hcall.course hlists
    rw [hstatus, Option.some.injEq, hcourse.completes_iff, hscope]
  constructor
  · rintro hkept node u hcall (⟨path, hpath, hforbidden⟩ | ⟨⟨path, hpath, hforbidden⟩, hsuccess⟩)
    · exact hkept.unwritten node u hcall path hpath hforbidden
    · exact hkept.uncompleted node u hcall path hpath hforbidden ((hdone hcall).mpr hsuccess)
  · intro hcalls
    refine ⟨fun node u hcall path hpath hforbidden => ?_,
      fun node u hcall path hpath hforbidden hst => ?_⟩
    · exact hcalls node u hcall (Or.inl ⟨path, hpath, hforbidden⟩)
    · exact hcalls node u hcall (Or.inr ⟨⟨path, hpath, hforbidden⟩, (hdone hcall).mp hst⟩)

lemma Governed.lists [FloatReader] [JsonReader] {crosses : TaskNode → Dict → W → Prop}
    (hx : Governed x crosses) : x.Lists := by
  cases hx with
  | scripted lim cwd workspace command secrets script =>
      exact scriptedExecutor_lists _ secrets script
  | api lim cwd workspace command timer client budget secrets =>
      exact apiExecutor_lists timer client budget _ secrets
  | hostRuntime timer client budget => exact hostRuntimeExecutor_lists timer client budget

/-- **A call crosses** exactly when it writes a forbidden path, or succeeds having edited one. -/
theorem Governed.crosses_iff [FloatReader] [JsonReader] {crosses : TaskNode → Dict → W → Prop}
    (hx : Governed x crosses) (node : TaskNode) (scope : Dict) (u : W) :
    ((∃ path ∈ x.written node scope u, Forbidden scope path)
      ∨ (∃ path ∈ x.edits node scope u, Forbidden scope path) ∧ CallSucceeds x node scope u)
      ↔ crosses node scope u := by
  have hwrites : x.reported node scope u = [] →
      (((∃ path ∈ x.written node scope u, Forbidden scope path)
        ∨ (∃ path ∈ x.edits node scope u, Forbidden scope path) ∧ CallSucceeds x node scope u)
        ↔ ∃ path ∈ x.written node scope u, Forbidden scope path) := by
    intro hnone
    rw [Executor.edits, hnone, List.append_nil]
    exact or_iff_left_of_imp And.left
  cases hx with
  | scripted lim cwd workspace command secrets script =>
      rw [hwrites rfl]
      exact scriptedWrites_forbidden_iff (workspaceEffectors_jailed lim cwd workspace command) ..
  | api lim cwd workspace command timer client budget secrets =>
      rw [hwrites rfl]
      exact apiWrites_forbidden_iff (workspaceEffectors_jailed lim cwd workspace command) ..
  | hostRuntime timer client budget =>
      rw [← runtime_forbidden_iff]
      simp [hostRuntimeExecutor, Executor.edits, CallSucceeds]

/-- **When forbidden paths are enforced**: exactly in the runs, and the resumes, none of whose calls
crosses.  The ledger is the one the loop leaves, whether or not the gate behind it raises. -/
theorem forbidden_kept_iff [FloatReader] [JsonReader] {crosses : TaskNode → Dict → W → Prop}
    (hx : Governed x crosses) (h : Host W) (cfg : RunConfig) (m : Manifest) :
    (∀ L w, startLedger m = .ok L →
      (ForbiddenKept x (DriveCall h x cfg m [] ⟨L, w, []⟩) m.isolationScope
          (drive (h.driving x) cfg m [] ⟨L, w, []⟩).2.ledger
        ↔ ∀ node u, DriveCall h x cfg m [] ⟨L, w, []⟩ node u → ¬ crosses node m.isolationScope u)
      ∧ ∀ res w' fx, run (h.driving x) cfg m w = (.ok res, w', fx) →
        res.ledger = (drive (h.driving x) cfg m [] ⟨L, w, []⟩).2.ledger)
    ∧ ∀ L w, ForbiddenKept x (DriveCall h x cfg m (completedIds L) ⟨L.setRunState .running, w, []⟩)
          L.isolationScope (resume (h.driving x) cfg m ⟨L, w, []⟩).2.ledger
        ↔ ∀ node u, DriveCall h x cfg m (completedIds L) ⟨L.setRunState .running, w, []⟩ node u →
          ¬ crosses node L.isolationScope u := by
  refine ⟨fun L w hstart => ⟨?_, ?_⟩, fun L w => ?_⟩
  · obtain ⟨-, -, -, -, -, hscope, -⟩ := startLedger_empty hstart
    rw [← hscope, forbiddenKept_iff hx.lists [] ⟨L, w, []⟩]
    simp only [hx.crosses_iff]
  · intro res w' fx hrun
    rw [run, hstart] at hrun
    dsimp only at hrun
    obtain ⟨r, state, L', fx', w'', -, hexec, hres⟩ := drive_spec (h.driving x) cfg m [] ⟨L, w, []⟩
    rw [hexec] at hrun ⊢
    cases hrun
    exact (hres res rfl).1
  · have hkept := @forbiddenKept_iff _ W h x cfg m hx.lists (completedIds L)
      ⟨L.setRunState .running, w, []⟩
    simp only [hx.crosses_iff] at hkept
    exact hkept

end Rule

end Runtime

section Example

attribute [local instance] cpython noFloats noJson

/-- A manifest with one task, one root and a forbidden path under it. -/
def secretManifest : Manifest :=
  { oneTaskManifest with isolationScope := [("client_id", .str "c1"), ("project_id", .str "p1"),
    ("allowed_roots", .list [.str "src/"]), ("forbidden_paths", .list [.str "src/secrets"])] }

/-- The effectors of the workspace `/`, whose commands all succeed. -/
def easyEffectors : Effectors (Tree × Unit) :=
  workspaceEffectors ⟨40, 100⟩ [] "/" fun _ w => (.ok ⟨0, ""⟩, w)

/-- A workspace with one root, and nothing in it. -/
def emptyWorkspace : Tree := treeOf [("src", .dir)]

/-- An executor that writes to a path. -/
def writingExecutor (path : String) : Executor (Tree × Unit) :=
  scriptedExecutor easyEffectors [] (oneTaskScript [writeAction path])

/-- A runtime that reports a path as changed, and success. -/
def reportingRuntime (path : String) : Executor (Unit × Usage) :=
  hostRuntimeExecutor (stillTimer Unit) (fun _ w => (.ok ⟨true, [path], "", []⟩, w)) noBudget

/-- A write of a path that no forbidden entry has below it does not cross. -/
lemma writing_not_crosses {path : String} (hclear : ¬ ScopeBars secretManifest.isolationScope path)
    {node : TaskNode} (hnode : node ∈ secretManifest.taskGraph) (u : Tree × Unit) :
    ¬ ScriptedCrosses easyEffectors (oneTaskScript [writeAction path]) node
      secretManifest.isolationScope u := by
  obtain rfl : node = scriptNode ("T1", []) := List.mem_singleton.mp hnode
  rintro ⟨spec, roots, hspec, -, actions, v, hactions, hv, path', content, w, -, hpath, -, -, hbars⟩
  cases hspec
  cases hactions
  have hfirst : v.1 = writeAction path := List.mem_singleton.mp (Call.mem_visits hv)
  rw [hfirst] at hpath
  cases hpath
  exact hclear hbars

/-- **A run that keeps away from the forbidden path.** -/
theorem forbidden_kept_of_clear : ∃ L, startLedger secretManifest = .ok L
    ∧ ForbiddenKept (writingExecutor "src/a")
      (DriveCall (stillHost _) (writingExecutor "src/a") scriptConfig secretManifest []
        ⟨L, (emptyWorkspace, ()), []⟩) secretManifest.isolationScope
      (drive ((stillHost _).driving (writingExecutor "src/a")) scriptConfig secretManifest []
        ⟨L, (emptyWorkspace, ()), []⟩).2.ledger := by
  have hx : Governed (writingExecutor "src/a") _ := .scripted _ _ _ _ [] _
  have hclear : ¬ ScopeBars secretManifest.isolationScope "src/a" := by
    rintro ⟨forbiddenPaths, hforbidden, hbarred⟩
    cases hforbidden
    revert hbarred
    decide +kernel
  refine ⟨_, rfl, ?_⟩
  refine (((forbidden_kept_iff hx (stillHost _) scriptConfig secretManifest).1 _ _ rfl).1).mpr ?_
  exact fun node u hcall => writing_not_crosses hclear hcall.node_mem u

/-- The one task of the manifest is called, in the world the run starts in. -/
lemma secret_call {W : Type} {x : Executor W} {L : Ledger}
    (hstart : startLedger secretManifest = .ok L)
    (w : W) : DriveCall (stillHost W) x scriptConfig secretManifest [] ⟨L, w, []⟩
      (scriptNode ("T1", [])) w := by
  have hids : StringIds secretManifest.taskGraph := scriptManifest_stringIds [("T1", [])]
  have hfresh : Fresh L "T1" := startLedger_fresh hids hstart (by decide +kernel)
  obtain ⟨e, he, hst⟩ := Option.map_eq_some_iff.mp hfresh.pending
  refine ⟨["T1"], by decide +kernel, [], _, .here ?_ ?_ rfl rfl, by simp [DepsMet, scriptNode], ?_⟩
  · rw [he]
    rfl
  · rw [Ledger.done_iff, hfresh.pending]
    simp
  · rw [taskAttempts]
    dsimp only
    have hid : (scriptNode ("T1", [])).taskId.pyStr = "T1" := rfl
    rw [hid, if_neg (by rw [hfresh.uncommitted]; simp),
      if_pos (canAcquire_of_unleased hfresh.unleased _)]
    exact List.mem_singleton_self w

/-- **Forbidden paths that are written, and reported, in a task that is completed.** -/
theorem forbidden_written :
    Forbidden secretManifest.isolationScope "src/secrets/key"
    ∧ ∃ L, startLedger secretManifest = .ok L
      ∧ (drive ((stillHost _).driving (writingExecutor "src/secrets/key")) scriptConfig
          secretManifest [] ⟨L, (emptyWorkspace, ()), []⟩).2.ledger.status? "T1" = some .completed
      ∧ (drive ((stillHost _).driving (writingExecutor "src/secrets/key")) scriptConfig
          secretManifest [] ⟨L, (emptyWorkspace, ()), []⟩).2.world.1.node
            (locOf "src/secrets/key") = some (.file "x")
      ∧ ¬ ForbiddenKept (writingExecutor "src/secrets/key")
        (DriveCall (stillHost _) (writingExecutor "src/secrets/key") scriptConfig secretManifest []
          ⟨L, (emptyWorkspace, ()), []⟩) secretManifest.isolationScope
        (drive ((stillHost _).driving (writingExecutor "src/secrets/key")) scriptConfig
          secretManifest [] ⟨L, (emptyWorkspace, ()), []⟩).2.ledger
      ∧ ¬ ForbiddenKept (reportingRuntime "src/secrets/key")
        (DriveCall (stillHost _) (reportingRuntime "src/secrets/key") scriptConfig secretManifest []
          ⟨L, ((), Usage.zero), []⟩) secretManifest.isolationScope
        (drive ((stillHost _).driving (reportingRuntime "src/secrets/key")) scriptConfig
          secretManifest [] ⟨L, ((), Usage.zero), []⟩).2.ledger := by
  have hforbidden : Forbidden secretManifest.isolationScope "src/secrets/key" :=
    ⟨_, _, rfl, rfl, by decide +kernel⟩
  -- the gate behind the loop changes nothing, and takes long to evaluate
  refine ⟨hforbidden, _, rfl, ?_, ?_, fun hkept => ?_, fun hkept => ?_⟩
  · rw [drive_snd]
    decide +kernel
  · rw [drive_snd]
    decide +kernel
  · exact hkept.unwritten _ _ (secret_call rfl _) "src/secrets/key" (by decide +kernel) hforbidden
  · refine hkept.uncompleted _ _ (secret_call rfl _) "src/secrets/key" (by decide +kernel)
      hforbidden ?_
    rw [drive_snd]
    decide +kernel

end Example

end IplanRunner
