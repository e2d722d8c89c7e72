import IplanRunner.Runs.Recovery
import IplanRunner.Runs.TakenUp

/-!
Failures that stay inside the run loop.

* `Contained`: a call of the executor that returns, and whose compensation does when it fails.
* `driveLoop_contained`: a loop all whose calls are contained returns, and settles its tasks.
* `failures_contained`: the same for `run` and `resume`, driven by `ScriptedExecutor` or
  `ApiExecutor`; `failures_escape` is a command that times out.
-/

namespace IplanRunner

open Foundation

section Runtime

variable [PyRuntime]

/-! ### Contained calls -/

section Loop

variable {W : Type} {h : Host W} {x : Executor W} {cfg : RunConfig} {graph : List TaskNode}

/-- A call of the executor returns, and so does the compensation when it fails. -/
def Contained (x : Executor W) (node : TaskNode) (scope : Dict) (u : W) : Prop :=
  ¬ Call.Raises (x.execute node scope) u ∧ ¬ CompensationEscapes x node scope u

/-- A task behind a call that fails: blocked, and compensated if it has touched anything. -/
def Failed (result : ExecutorResult) (status : Option TaskStatus) (effects : List Effect) : Prop :=
  status = some .blocked
    ∧ (result.touchedPaths ≠ [] → Effect.compensate result.touchedPaths ∈ effects)

/-- A lease has been released at a time of the clock. -/
def Lease.Released (lease : Lease) : Prop := ∃ t, lease.releasedAt = .str t

omit [PyRuntime] in
/-- **A contained call settles its task.** -/
theorem TaskCourse.settles {node : TaskNode} {taskId : String} {L : Ledger} {last : W}
    {r : Except PyErr Unit} {δ : Delta} {gx : List Effect}
    (hcourse : TaskCourse (h.driving x) node taskId L last r δ gx)
    (hcontained : Contained x node L.isolationScope last) :
    r = .ok () ∧ (∀ e, (δ.entry e).status ≠ .inProgress) ∧ (∀ l ∈ δ.leases, l.Released)
      ∧ ∀ result w, x.execute node L.isolationScope last = (.ok result, w) →
        result.outcome ≠ .success → ∀ e, Failed result (some (δ.entry e).status) gx := by
  have hleases : ∀ {l b : Lease} {t : String}, b.releasedAt = .str t → l ∈ [b] → l.Released := by
    rintro l b t hb hl
    rw [List.mem_singleton.mp hl]
    exact ⟨t, hb⟩
  cases hcourse with
  | raised hexec => exact absurd ⟨_, congrArg Prod.fst hexec⟩ hcontained.1
  | uncompensated hexec hfail hsome hraise =>
      exact absurd ⟨_, _, hexec, hfail, hsome, _, congrArg Prod.fst hraise⟩ hcontained.2
  | completed hexec hdone _ _ =>
      refine ⟨rfl, fun e => by simp [successDelta, completeEntry], fun l hl => hleases rfl hl, ?_⟩
      intro result w hexec' hfail
      obtain rfl := Except.ok.inj (congrArg Prod.fst (hexec.symm.trans hexec'))
      exact absurd hdone hfail
  | untouched hexec hfail hnone =>
      refine ⟨rfl, fun e => by simp [failureDelta, blockEntry], fun l hl => hleases rfl hl, ?_⟩
      intro result w hexec' _ e
      obtain rfl := Except.ok.inj (congrArg Prod.fst (hexec.symm.trans hexec'))
      exact ⟨rfl, fun hsome => absurd hnone hsome⟩
  | compensated hexec hfail hsome hdone =>
      refine ⟨rfl, fun e => by simp [failureDelta, blockEntry], fun l hl => hleases rfl hl, ?_⟩
      intro result w hexec' _ e
      obtain rfl := Except.ok.inj (congrArg Prod.fst (hexec.symm.trans hexec'))
      exact ⟨rfl, fun _ => List.mem_singleton_self _⟩

/-- What the loop over an order makes of a session: no task is newly in progress, and every new
lease is released. -/
structure LoopSettles (s s' : Session W) : Prop where
  ended : ∀ t, s'.ledger.status? t = some .inProgress → s.ledger.status? t = some .inProgress
  released : ∀ l ∈ s'.ledger.agentLeases, l ∈ s.ledger.agentLeases ∨ l.Released

omit [PyRuntime] in
lemma LoopSettles.refl (s : Session W) (w : W) : LoopSettles s { s with world := w } :=
  ⟨fun _ => id, fun _ => Or.inl⟩

omit [PyRuntime] in
lemma LoopSettles.trans {s s₁ s' : Session W} (hfirst : LoopSettles s s₁)
    (hrest : LoopSettles s₁ s') : LoopSettles s s' := by
  refine ⟨fun t ht => hfirst.ended t (hrest.ended t ht), fun l hl => ?_⟩
  rcases hrest.released l hl with hmid | hreleased
  · exact hfirst.released l hmid
  · exact Or.inr hreleased

/-- A delta that settles its task. -/
lemma loopSettles_apply {taskId : String} {s : Session W} {w : W} {fx : List Effect} {δ : Delta}
    (hids : ∀ e, (δ.entry e).taskId = e.taskId)
    (hstatus : ∀ e, (δ.entry e).status = .inProgress → e.status = .inProgress)
    (hleases : ∀ l ∈ δ.leases, l.Released) :
    LoopSettles s ⟨s.ledger.apply taskId δ, w, fx⟩ := by
  refine ⟨fun t ht => ?_, fun l hl => ?_⟩
  · by_cases hid : t = taskId
    · rw [hid, Ledger.status?, Ledger.task?_apply_self _ _ _ hids, Option.map_map] at ht
      obtain ⟨e, he, hst⟩ := Option.map_eq_some_iff.mp ht
      rw [hid, Ledger.status?, he]
      exact congrArg some (hstatus e hst)
    · rw [Ledger.status?, Ledger.task?_apply_of_ne _ _ hids hid] at ht
      exact ht
  · rcases List.mem_append.mp hl with hold | hnew
    · exact Or.inl hold
    · exact Or.inr (hleases l hnew)

/-- **A turn whose calls are contained returns, and settles its task.** -/
theorem turn_contained {node : TaskNode} {completed : List String}
    {s : Session W} (hknown : (s.ledger.task? node.taskId.pyStr).isSome)
    (hcalls : DepsMet node completed → ∀ u ∈ taskAttempts (h.driving x) cfg node s,
      Contained x node s.ledger.isolationScope u) :
    ∃ (completed₁ : List String) (s₁ : Session W),
      turn (h.driving x) cfg node node.taskId.pyStr completed s = (.ok completed₁, s₁)
      ∧ s₁.ledger.isolationScope = s.ledger.isolationScope
      ∧ (∀ t, (s.ledger.task? t).isSome → (s₁.ledger.task? t).isSome) ∧ LoopSettles s s₁ := by
  obtain ⟨-, δ, w, hδ, hturn⟩ | ⟨hmet, last, r, δ, fx, gx, w, hlast, hcourse, hturn⟩ :=
    turn_course (h.driving x) cfg node completed s hknown
  · refine ⟨_, _, hturn, rfl, fun t => known_apply hδ.entry_taskId, ?_⟩
    rcases hδ with rfl | ⟨reason, blockerId, atTime, fromStatus, rfl⟩
    · exact loopSettles_apply (fun _ => rfl) (fun _ => id) (by simp)
    · exact loopSettles_apply (fun _ => rfl) (by simp [blockDelta, blockEntry])
        (by simp [blockDelta])
  · have hmem : last ∈ taskAttempts (h.driving x) cfg node s := List.mem_of_getLast? hlast
    obtain ⟨rfl, hstatus, hleases, -⟩ := hcourse.settles (hcalls hmet last hmem)
    exact ⟨_, _, hturn, rfl, fun t => known_apply hcourse.entry_taskId,
      loopSettles_apply hcourse.entry_taskId (fun e he => absurd he (hstatus e)) hleases⟩

/-- Control that does not let the loop run ends it. -/
lemma driveLoop_stopped {h : Host W} {taskId : String} {rest completed : List String}
    {s : Session W} (hsome : (s.ledger.task? taskId).isSome) (hdone : ¬ s.ledger.Done taskId)
    (hstop : (h.control s.world).1 ≠ .running) :
    ∃ state, driveLoop h cfg graph (taskId :: rest) completed s
      = (.ok state, { s with world := (h.control s.world).2 }) := by
  cases hans : (h.control s.world).1 with
  | running => exact absurd hans hstop
  | aborted => exact ⟨_, driveLoop_aborted hsome hdone hans⟩
  | paused => exact ⟨_, driveLoop_paused hsome hdone hans⟩

/-- **A loop all whose calls are contained returns, and settles its tasks.** -/
theorem driveLoop_contained {order completed : List String} {s : Session W}
    (hknown : ∀ t ∈ order, (s.ledger.task? t).isSome ∧ (lastNode graph t).isSome)
    (hcalls : ∀ node u, ExecutorCall h x cfg graph order completed s node u →
      Contained x node s.ledger.isolationScope u) :
    ∃ state s', driveLoop (h.driving x) cfg graph order completed s = (.ok state, s')
      ∧ LoopSettles s s' := by
  induction order generalizing completed s with
  | nil => exact ⟨.completed, s, by simp [driveLoop], .refl s s.world⟩
  | cons taskId rest ih =>
      obtain ⟨hsome, hn⟩ := hknown taskId List.mem_cons_self
      have hknown' : ∀ t ∈ rest, (s.ledger.task? t).isSome ∧ (lastNode graph t).isSome :=
        fun t ht => hknown t (List.mem_cons_of_mem _ ht)
      by_cases hdone : s.ledger.Done taskId
      · rw [driveLoop_done hdone]
        refine ih hknown' ?_
        rintro node u ⟨completed', s', htakes, hrest⟩
        exact hcalls node u ⟨completed', s', .skip hdone htakes, hrest⟩
      by_cases hrunning : ((h.driving x).control s.world).1 = .running
      swap
      · obtain ⟨state, hexec⟩ := driveLoop_stopped hsome hdone hrunning
        exact ⟨state, _, hexec, .refl s _⟩
      obtain ⟨node, hnode⟩ := Option.isSome_iff_exists.mp hn
      obtain rfl := lastNode_pyStr hnode
      obtain ⟨completed₁, s₁, hturn, hscope, hsame, hfirst⟩ :=
        @turn_contained _ W h x cfg node completed
          { s with world := ((h.driving x).control s.world).2 } hsome
          fun hmet u hu => hcalls node u ⟨completed, _, .here hsome hdone hrunning hnode, hmet, hu⟩
      obtain ⟨state, s', hexec, hset⟩ := @ih completed₁ s₁
        (fun t ht => ⟨hsame t (hknown' t ht).1, (hknown' t ht).2⟩)
        (by
          rintro node' u ⟨completed', s', htakes, hrest⟩
          rw [hscope]
          exact hcalls node' u
            ⟨completed', s', .later hsome hdone hrunning hnode hturn htakes, hrest⟩)
      refine ⟨state, s', ?_, (LoopSettles.refl s _).trans (hfirst.trans hset)⟩
      rw [driveLoop_turn hsome hdone hrunning hnode, Call.bind_ok hturn, hexec]

end Loop

/-! ### Runs and resumes -/

/-- The executor carries out a specification, and escapes are the calls that raise. -/
inductive SpecDriven [FloatReader] [JsonReader] :
    {W : Type} → Executor W → (TaskNode → Dict → W → Prop) → Prop
  | scripted {W : Type} (eff : Effectors W) (secrets : List String) (script : Val) :
      SpecDriven (scriptedExecutor eff secrets script) (ScriptedEscapes eff secrets script)
  | api {W : Type} (eff : Effectors W) (timer : Timer W)
      (client : String → Call PyErr W ModelResponse) (budget : Budget) (secrets : List String) :
      SpecDriven (apiExecutor timer client budget eff secrets)
        (ApiEscapes eff timer client budget secrets)

section Drive

variable {W : Type} (h : Host W) (x : Executor W) (cfg : RunConfig) (m : Manifest)

lemma SpecDriven.lists [FloatReader] [JsonReader] {x : Executor W}
    {escapes : TaskNode → Dict → W → Prop} (hx : SpecDriven x escapes) : x.Lists := by
  cases hx with
  | scripted eff secrets script => exact scriptedExecutor_lists eff secrets script
  | api eff timer client budget secrets => exact apiExecutor_lists timer client budget eff secrets

lemma SpecDriven.raises_iff [FloatReader] [JsonReader] {x : Executor W}
    {escapes : TaskNode → Dict → W → Prop} (hx : SpecDriven x escapes) (node : TaskNode)
    (scope : Dict) (u : W) : Call.Raises (x.execute node scope) u ↔ escapes node scope u := by
  cases hx with
  | scripted eff secrets script => exact scriptedExecute_raises_iff eff secrets
  | api eff timer client budget secrets =>
      exact apiExecute_raises_iff eff timer client budget secrets

/-- **What failures leave behind**, from the ledger `L` to the ledger `L'` with the calls named: no
task is newly in progress, every new lease is released, and a task whose call fails is blocked, with
all the call has written passed to `compensate`. -/
structure FailuresStay (calls : TaskNode → W → Prop) (L L' : Ledger) (effects : List Effect) :
    Prop where
  ended : ∀ t, L'.status? t = some .inProgress → L.status? t = some .inProgress
  released : ∀ l ∈ L'.agentLeases, l ∈ L.agentLeases ∨ l.Released
  failed : ∀ node u result w, calls node u →
    x.execute node L.isolationScope u = (.ok result, w) → result.outcome ≠ .success →
    L'.status? node.taskId.pyStr = some .blocked
      ∧ ∀ path ∈ x.written node L.isolationScope u,
        ∃ paths, Effect.compensate paths ∈ effects ∧ path ∈ paths

variable {h x cfg m}

/-- `_drive` over contained calls ends its loop. -/
lemma driveSession_contained (hlists : x.Lists) {completed : List String} {s : Session W}
    (hdeps : StringDeps m.taskGraph)
    (hknown : ∀ t ∈ nodeIds m.taskGraph, (s.ledger.task? t).isSome)
    (hcalls : ∀ node u, DriveCall h x cfg m completed s node u →
      Contained x node s.ledger.isolationScope u) :
    ∃ state s', driveSession (h.driving x) cfg m completed s = (some state, s')
      ∧ FailuresStay x (DriveCall h x cfg m completed s) s.ledger s'.ledger s'.effects := by
  obtain ⟨order, horder⟩ := topoOrder_returns hdeps
  have hperm := topoOrder_perm horder
  obtain ⟨state, s', hloop, hset⟩ : ∃ state s',
      driveLoop (h.driving x) cfg m.taskGraph order completed s = (.ok state, s')
        ∧ LoopSettles s s' :=
    driveLoop_contained
      (fun t ht => ⟨hknown t (hperm.mem_iff.mp ht),
        (lastNode_isSome _ _).mpr (hperm.mem_iff.mp ht)⟩)
      fun node u hcall => hcalls node u ⟨order, horder, hcall⟩
  have hend : driveSession (h.driving x) cfg m completed s
      = (some state, { s' with ledger := reconcile (s'.ledger.setRunState state) }) := by
    simp only [driveSession, horder, hloop]
  refine ⟨state, _, hend, hset.ended, hset.released, ?_⟩
  · rintro node u result w hcall hexec hfail
    have hcontained := hcalls node u hcall
    obtain ⟨L, r, δ, gx, entry, hcourse, hscope, hstatus, heffects⟩ := hcall.course hlists
    rw [drive_snd, hend] at hstatus heffects
    rw [← hscope] at hcontained hexec
    obtain ⟨-, -, -, hfailed⟩ := hcourse.settles hcontained
    obtain ⟨hblocked, hcomp⟩ := hfailed result w hexec hfail entry
    have hmem : x.written node L.isolationScope u ⊆ result.touchedPaths :=
      (hlists _ _ _ _ _ hexec).1
    refine ⟨hstatus.trans hblocked, fun path hpath => ?_⟩
    rw [← hscope] at hpath
    exact ⟨_, heffects (hcomp (List.ne_nil_of_mem (hmem hpath))), hmem hpath⟩

/-- **Failures stay inside the saga**, for a manifest with string ids and readable roots.  A `run`,
or a `resume` of a ledger reached from the manifest, that is driven by `ScriptedExecutor` or
`ApiExecutor` returns and settles every task that fails, provided no call of the executor in it
escapes and no compensation does. -/
theorem failures_contained [FloatReader] [JsonReader] {escapes : TaskNode → Dict → W → Prop}
    (hx : SpecDriven x escapes) (h : Host W) (cfg : RunConfig) {m : Manifest}
    (hids : StringIds m.taskGraph) (hroots : m.ReadableRoots) :
    (∀ L w, startLedger m = .ok L →
      (∀ node u, DriveCall h x cfg m [] ⟨L, w, []⟩ node u →
        ¬ escapes node L.isolationScope u ∧ ¬ CompensationEscapes x node L.isolationScope u) →
      ∃ res w' fx, run (h.driving x) cfg m w = (.ok res, w', fx)
        ∧ FailuresStay x (DriveCall h x cfg m [] ⟨L, w, []⟩) L res.ledger fx)
    ∧ ∀ L w, Reached (· = m) (fun _ _ => True) L →
      (∀ node u, DriveCall h x cfg m (completedIds L) ⟨L.setRunState .running, w, []⟩ node u →
        ¬ escapes node L.isolationScope u ∧ ¬ CompensationEscapes x node L.isolationScope u) →
      ∃ res s', resume (h.driving x) cfg m ⟨L, w, []⟩ = (.ok res, s')
        ∧ FailuresStay x (DriveCall h x cfg m (completedIds L) ⟨L.setRunState .running, w, []⟩)
          L res.ledger s'.effects := by
  have hcontained : ∀ {scope : Dict} {node : TaskNode} {u : W},
      ¬ escapes node scope u ∧ ¬ CompensationEscapes x node scope u → Contained x node scope u :=
    fun hesc => ⟨fun hraise => hesc.1 ((hx.raises_iff _ _ _).mp hraise), hesc.2⟩
  constructor
  · intro L w hstart hcalls
    have hL : Consistent m.taskGraph L := (consistent_history m).start rfl hstart
    obtain ⟨state, s', hend, hstay⟩ := driveSession_contained hx.lists
      ((startLedger_accepted hstart).deps hids).1 (fun t ht => hL.known hids ht)
      fun node u hcall => hcontained (hcalls node u hcall)
    obtain ⟨res, hrun, hledger⟩ := run_returns _ _ hroots hstart hend
    exact ⟨res, _, _, hrun, hledger ▸ hstay⟩
  · intro L w hreached hcalls
    have hL : Consistent m.taskGraph L := hreached.invariant (consistent_history m)
    obtain ⟨state, s', hend, hstay⟩ :=
      driveSession_contained hx.lists (hreached.accepted.deps hids).1
      (fun t ht => hL.known hids ht) fun node u hcall => hcontained (hcalls node u hcall)
    obtain ⟨res, hresume, hledger⟩ := resume_returns _ _ hroots
      (hreached.mono (fun _ hm => hm ▸ hroots) fun _ _ _ => trivial) hend
    rw [← hledger] at hstay
    exact ⟨res, _, hresume, hstay.ended, hstay.released, hstay.failed⟩

end Drive

end Runtime

section Example

attribute [local instance] cpython

/-- A workspace that denies a write outside `src`, and whose commands time out. -/
def frailEffectors : Effectors Unit where
  applyWrite := fun path _ _ w =>
    (if path = .str "src/a" then .ok "src/a" else .error (.permissionError "denied"), w)
  runCommand := fun _ w => (.error (.other "TimeoutExpired"), w)
  undoWrites := fun paths w => (.ok paths, w)

/-- A write action. -/
def writeAction (path : String) : Val :=
  .dict [("type", .str "write"), ("path", .str path), ("content", .str "x")]

/-- A script with the actions of the one task. -/
def oneTaskScript (actions : List Val) : Val :=
  .dict [("T1", .dict [("actions", .list actions)])]

/-- A manifest with one task. -/
def oneTaskManifest : Manifest := scriptManifest [("T1", [])]

/-- A script whose second write is denied. -/
def deniedScript : Val := oneTaskScript [writeAction "src/a", writeAction "etc/x"]

/-- The executor that carries it out. -/
def deniedExecutor : Executor Unit := scriptedExecutor frailEffectors [] deniedScript

/-- No text is read as JSON. -/
@[reducible] def noJson : JsonReader := ⟨fun _ => .error .typeError⟩

attribute [local instance] noFloats noJson

lemma denied_execute : scriptedExecute frailEffectors [] deniedScript (scriptNode ("T1", []))
    oneTaskManifest.isolationScope ()
      = (.ok ⟨.failure, ["src/a"], none, some "denied", false⟩, ()) := by decide +kernel

lemma denied_stays {node : TaskNode} (hnode : node ∈ oneTaskManifest.taskGraph) (u : Unit) :
    ¬ ScriptedEscapes frailEffectors [] deniedScript node oneTaskManifest.isolationScope u
      ∧ ¬ CompensationEscapes deniedExecutor node oneTaskManifest.isolationScope u := by
  obtain rfl : node = scriptNode ("T1", []) := List.mem_singleton.mp hnode
  constructor
  · rw [← scriptedExecute_raises_iff]
    exact Call.not_raises_of_ok denied_execute
  · rintro ⟨result, w, -, -, -, e, he⟩
    cases he

/-- **A denied write**: the run returns with its task blocked and compensated, and so does a resume
of what it leaves. -/
theorem failures_contained_denied :
    ∃ res w' fx, run ((stillHost Unit).driving deniedExecutor) scriptConfig oneTaskManifest ()
        = (.ok res, w', fx)
      ∧ res.ledger.status? "T1" = some .blocked
      ∧ (∃ paths, Effect.compensate paths ∈ fx ∧ "src/a" ∈ paths)
      ∧ ∃ res' s', resume ((stillHost Unit).driving deniedExecutor) scriptConfig oneTaskManifest
        ⟨res.ledger, (), []⟩ = (.ok res', s') := by
  obtain ⟨hrun, hresume⟩ := failures_contained (.scripted frailEffectors [] deniedScript)
    (stillHost Unit) scriptConfig (scriptManifest_stringIds [("T1", [])]) (scriptManifest_roots _)
  obtain ⟨L, hstart, hscope, hcall⟩ : ∃ L, startLedger oneTaskManifest = .ok L
      ∧ L.isolationScope = oneTaskManifest.isolationScope
      ∧ DriveCall (stillHost Unit) deniedExecutor scriptConfig oneTaskManifest [] ⟨L, (), []⟩
        (scriptNode ("T1", [])) () := by
    refine ⟨_, rfl, rfl, ["T1"], ?_, [], _, .here ?_ ?_ rfl rfl, ?_, ?_⟩
    · decide +kernel
    · decide +kernel
    · decide +kernel
    · simp [DepsMet, scriptNode]
    · decide +kernel
  obtain ⟨res, w', fx, hexec, hstay⟩ := hrun L () hstart fun node u hcall => by
    rw [hscope]
    exact denied_stays hcall.node_mem u
  have hfailure : (deniedExecutor.execute (scriptNode ("T1", [])) L.isolationScope ())
      = (.ok ⟨.failure, ["src/a"], none, some "denied", false⟩, ()) := by
    rw [hscope]
    exact denied_execute
  obtain ⟨hblocked, hcomp⟩ := hstay.failed _ () _ _ hcall hfailure (by simp)
  have hreached : Reached (· = oneTaskManifest) (fun _ _ => True) res.ledger := .run rfl hexec
  obtain ⟨res', s', hexec', -⟩ := hresume res.ledger () hreached fun node u hcall => by
    rw [hreached.invariant (scope_history _)]
    exact denied_stays hcall.node_mem u
  refine ⟨res, w', fx, hexec, hblocked, hcomp "src/a" ?_, res', s', hexec'⟩
  rw [hscope]
  decide +kernel

/-- An executor whose command times out, behind a write. -/
def lateExecutor : Executor Unit :=
  scriptedExecutor frailEffectors []
    (oneTaskScript [writeAction "src/a", .dict [("type", .str "command"), ("cmd", .list [])]])

/-- The resume raised, and left the task in progress with its transaction and its lease. -/
def lateView (p : Except PyErr RunResult × Session Unit) : Bool :=
  decide (p.1.toBool = false ∧ p.2.ledger.status? "T1" = some .inProgress
    ∧ p.2.ledger.sagaJournal.map (·.status) = [.pending]
    ∧ p.2.ledger.agentLeases.map (·.releasedAt) = [.none]
    ∧ p.2.effects = [.execute "T1"])

/-- **A failure escapes the saga**: when a command times out `run` raises, and the `resume` of a
paused run leaves the ledger it was given with the task in progress, its transaction pending and its
lease unreleased, and what was written stays uncompensated. -/
theorem failures_escape :
    (∀ res, (run ((stillHost Unit).driving lateExecutor) scriptConfig oneTaskManifest ()).1
        ≠ .ok res)
      ∧ ∃ L e s', Reached (· = oneTaskManifest) (fun _ _ => True) L
        ∧ resume ((stillHost Unit).driving lateExecutor) scriptConfig oneTaskManifest ⟨L, (), []⟩
          = (.error e, s')
        ∧ s'.ledger.status? "T1" = some .inProgress
        ∧ s'.ledger.sagaJournal.map (·.status) = [.pending]
        ∧ s'.ledger.agentLeases.map (·.releasedAt) = [.none]
        ∧ s'.effects = [.execute "T1"] := by
  have hraised : ∀ {α : Type} {r : Except PyErr α}, r.toBool = false → ∀ a, r ≠ .ok a := by
    rintro α r h a rfl
    cases h
  refine ⟨hraised (by decide +kernel), ?_⟩
  obtain ⟨L, hL, hview⟩ : ∃ L, playRun (fun _ _ => true) oneTaskManifest [] [.paused] [] = some L
      ∧ lateView (resume ((stillHost Unit).driving lateExecutor) scriptConfig oneTaskManifest
        ⟨L, (), []⟩) = true := by
    refine (Option.any_eq_true _ _).mp ?_
    decide +kernel
  have hreached : Reached (· = oneTaskManifest) (fun _ _ => true = true) L :=
    playRun_reached (by rfl) (scriptManifest_roots _) hL
  rcases hexec : resume ((stillHost Unit).driving lateExecutor) scriptConfig oneTaskManifest
    ⟨L, (), []⟩ with ⟨r, s'⟩
  rw [hexec] at hview
  obtain ⟨hraise, hleft⟩ := of_decide_eq_true hview
  cases r with
  | ok res => exact absurd rfl (hraised hraise res)
  | error e =>
      exact ⟨L, e, s', hreached.mono (fun _ h => h) fun _ _ _ => trivial, hexec, hleft⟩

end Example

end IplanRunner
