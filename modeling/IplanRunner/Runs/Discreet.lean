import IplanRunner.Executor.Texts
import IplanRunner.Runs.Contained

/-!
Secrets and the ledger, over histories driven by the executors of an engine.

* `Ledger.KeepsSecrets`: no secret occurs in a blocker, in the reason of a blocked task, or in what
  evidence has from a result.
* `TaskCourse.keepsSecrets`, `drive_keepsSecrets`: a result that tells no secret leaves none in
  the ledger; a drive all whose calls tell none leaves none.
* `secrets_kept`: when a call tells a secret, and the histories that tell none; `secrets_leak` is
  the output of a host runtime.
-/

namespace IplanRunner

open Foundation

section Runtime

variable [PyRuntime]

/-- No secret occurs in a description of a blocker, in the reason a task is blocked for, or in
recorded evidence, its two ids apart. -/
structure Ledger.KeepsSecrets (secrets : List String) (L : Ledger) : Prop where
  blockers : ∀ b ∈ L.blockers, Discreet secrets [b.description]
  reasons : ∀ e ∈ L.taskLedger, ∀ reason, e.blockedReason = some reason → Discreet secrets [reason]
  evidence : ∀ d ∈ L.executionEvidence, ∀ p ∈ d, p.1 ≠ "evidence_id" → p.1 ≠ "task_id" →
    Discreet secrets [p.1, p.2.pyStr]

omit [PyRuntime] in
lemma Discreet.mono {secrets texts texts' : List String} (h : Discreet secrets texts)
    (hsub : texts' ⊆ texts) : Discreet secrets texts' := fun text ht => h text (hsub ht)

omit [PyRuntime] in
/-- What a recorded entry has besides its two ids, it has from the evidence. -/
lemma mem_evidenceEntry {evidenceId taskId : String} {evidence : Dict} {p : String × Val}
    (hp : p ∈ evidenceEntry evidenceId taskId evidence) (hid : p.1 ≠ "evidence_id")
    (htask : p.1 ≠ "task_id") : p ∈ evidence := by
  refine (Dict.mem_update hp).resolve_left fun hids => ?_
  rcases List.mem_cons.mp hids with rfl | hids
  · exact hid rfl
  · rw [List.mem_singleton.mp hids] at htask
    exact htask rfl

/-- A turn that adds no secret. -/
lemma Ledger.KeepsSecrets.apply {secrets : List String} {L : Ledger} (hL : L.KeepsSecrets secrets)
    (taskId : String) {δ : Delta}
    (hreason : ∀ e reason, (δ.entry e).blockedReason = some reason →
      e.blockedReason = some reason ∨ Discreet secrets [reason])
    (hblockers : ∀ b ∈ δ.blockers, Discreet secrets [b.description])
    (hevidence : ∀ d ∈ δ.evidence, ∀ p ∈ d, p.1 ≠ "evidence_id" → p.1 ≠ "task_id" →
      Discreet secrets [p.1, p.2.pyStr]) : (L.apply taskId δ).KeepsSecrets secrets := by
  refine ⟨fun b hb => ?_, fun e he reason hsome => ?_, fun d hd => ?_⟩
  · rcases List.mem_append.mp hb with hold | hnew
    · exact hL.blockers b hold
    · exact hblockers b hnew
  · rcases mem_updateFirst he with hold | ⟨e', he', -, rfl⟩
    · exact hL.reasons e hold reason hsome
    · rcases hreason e' reason hsome with hold | hnew
      · exact hL.reasons e' he' reason hold
      · exact hnew
  · rcases List.mem_append.mp hd with hold | hnew
    · exact hL.evidence d hold
    · exact hevidence d hnew

/-- A block for a reason without a secret. -/
lemma Ledger.KeepsSecrets.block {secrets : List String} {L : Ledger} (hL : L.KeepsSecrets secrets)
    (taskId : String) {δ : Delta} {reason : String} (hreason : Discreet secrets [reason])
    (hentry : δ.entry = blockEntry reason)
    (hblockers : ∀ b ∈ δ.blockers, b.description = reason) (hevidence : δ.evidence = []) :
    (L.apply taskId δ).KeepsSecrets secrets := by
  refine hL.apply taskId (fun e r hr => ?_) (fun b hb => ?_) (by simp [hevidence])
  · rw [hentry, blockEntry] at hr
    obtain rfl := Option.some.inj hr
    exact Or.inr hreason
  · rw [hblockers b hb]
    exact hreason

/-- The reason a failed task is blocked for. -/
lemma discreet_failureReason {secrets : List String} {result : ExecutorResult}
    (hown : Discreet secrets loopReasons) (hresult : Discreet secrets result.texts) :
    Discreet secrets [failureReason result] := by
  have hdefault : Discreet secrets ["execution failed"] := hown.mono (by simp [loopReasons])
  rw [failureReason]
  cases hreason : result.reason with
  | none => exact hdefault
  | some reason =>
      dsimp only
      split_ifs with hempty
      · exact hdefault
      · exact hresult.mono (by simp [ExecutorResult.texts, hreason])

/-- Recorded evidence. -/
lemma discreet_evidenceEntries {secrets : List String} {result : ExecutorResult} {taskId : String}
    {ev : Option (String × Dict)} (hev : ev.map Prod.snd = result.evidence)
    (hresult : Discreet secrets result.texts) :
    ∀ d ∈ evidenceEntries taskId ev, ∀ p ∈ d, p.1 ≠ "evidence_id" → p.1 ≠ "task_id" →
      Discreet secrets [p.1, p.2.pyStr] := by
  intro d hd p hp hid htask
  obtain ⟨⟨evidenceId, evidence⟩, rfl, rfl⟩ : ∃ q, ev = some q
      ∧ evidenceEntry q.1 taskId q.2 = d := by
    cases ev with
    | none => cases hd
    | some q => exact ⟨q, rfl, (List.mem_singleton.mp hd).symm⟩
  refine hresult.mono fun text htext => ?_
  rw [ExecutorResult.texts, ← hev]
  refine List.mem_append_right _ (List.mem_flatMap.mpr ⟨p, mem_evidenceEntry hp hid htask, htext⟩)

section Turn

variable {W : Type} {h : Host W} {x : Executor W} {cfg : RunConfig} {secrets : List String}

/-- **A call whose result tells no secret leaves none in the ledger.** -/
theorem TaskCourse.keepsSecrets {node : TaskNode} {taskId : String} {L : Ledger} {last : W}
    {r : Except PyErr Unit} {δ : Delta} {gx : List Effect}
    (hcourse : TaskCourse (h.driving x) node taskId L last r δ gx)
    (hown : Discreet secrets loopReasons)
    (hcall : ∀ result w', x.execute node L.isolationScope last = (.ok result, w') →
      Discreet secrets result.texts) (hL : L.KeepsSecrets secrets) :
    (L.apply taskId δ).KeepsSecrets secrets := by
  cases hcourse with
  | raised _ =>
      exact hL.apply taskId (fun e reason hsome => Or.inl hsome) (by simp [crashDelta])
        (by simp [crashDelta])
  | @completed b n result w edits ev completedAt releasedAt hexec _ _ hev =>
      refine hL.apply taskId (fun e reason hsome => Or.inl ?_) (by simp [successDelta])
        (discreet_evidenceEntries hev (hcall _ _ hexec))
      rw [← hsome]
      cases ev <;> rfl
  | uncompensated _ _ _ _ =>
      exact hL.apply taskId (fun e reason hsome => Or.inl hsome) (by simp [crashDelta])
        (by simp [crashDelta])
  | untouched hexec _ _ =>
      exact hL.block taskId (discreet_failureReason hown (hcall _ _ hexec)) rfl
        (by simp [failureDelta]) rfl
  | compensated hexec _ _ _ =>
      exact hL.block taskId (discreet_failureReason hown (hcall _ _ hexec)) rfl
        (by simp [failureDelta]) rfl

/-- **A turn all whose calls tell no secret leaves none.** -/
theorem turn_keepsSecrets {node : TaskNode} {completed : List String} {s : Session W}
    (hknown : (s.ledger.task? node.taskId.pyStr).isSome) (hown : Discreet secrets loopReasons)
    (hcalls : DepsMet node completed → ∀ u ∈ taskAttempts (h.driving x) cfg node s, ∀ result w',
      x.execute node s.ledger.isolationScope u = (.ok result, w') → Discreet secrets result.texts)
    (hs : s.ledger.KeepsSecrets secrets) :
    (turn (h.driving x) cfg node node.taskId.pyStr completed s).2.ledger.KeepsSecrets secrets := by
  obtain ⟨-, δ, w, hδ, hturn⟩ | ⟨hmet, last, r, δ, fx, gx, w, hlast, hcourse, hturn⟩ :=
    turn_reasoned (h.driving x) cfg node completed s hknown
  · rw [hturn]
    rcases hδ with rfl | ⟨reason, hreason, blockerId, atTime, fromStatus, rfl⟩
    · rw [Ledger.apply_empty]
      exact hs
    · exact hs.block _ (hown.mono (by simpa using hreason)) rfl (by simp [blockDelta]) rfl
  · rw [hturn]
    exact hcourse.keepsSecrets hown (hcalls hmet last (List.mem_of_getLast? hlast)) hs

/-- **A drive all whose calls tell no secret leaves none.** -/
theorem drive_keepsSecrets {m : Manifest} {completed : List String} {s : Session W}
    (hown : Discreet secrets loopReasons)
    (hcalls : ∀ node u, DriveCall h x cfg m completed s node u → ∀ result w',
      x.execute node s.ledger.isolationScope u = (.ok result, w') → Discreet secrets result.texts)
    (hs : s.ledger.KeepsSecrets secrets) :
    (drive (h.driving x) cfg m completed s).2.ledger.KeepsSecrets secrets := by
  rw [drive_snd, driveSession]
  cases horder : topoOrder m.taskGraph with
  | error e => exact hs
  | ok order =>
      have hloop :
          (driveLoop (h.driving x) cfg m.taskGraph order completed s).2.ledger.KeepsSecrets
            secrets := by
        refine driveLoop_keeps (fun node completed' s' htakes hs' => ?_) hs
        obtain ⟨-, -, hknown, hscope⟩ := htakes.met
        refine turn_keepsSecrets hknown hown (fun hmet u hu => ?_) hs'
        rw [hscope]
        exact hcalls node u ⟨order, horder, completed', s', htakes, hmet, hu⟩
      dsimp only
      rcases hend : driveLoop (h.driving x) cfg m.taskGraph order completed s with ⟨e | state, s'⟩
      · rwa [hend] at hloop
      · rw [hend] at hloop
        exact ⟨hloop.blockers, hloop.reasons, hloop.evidence⟩

end Turn

/-! ### Histories -/

/-- A new ledger holds no texts of results. -/
lemma startLedger_keepsSecrets {secrets : List String} {m : Manifest} {L : Ledger}
    (hstart : startLedger m = .ok L) : L.KeepsSecrets secrets := by
  have hnew := startLedger_new hstart
  refine ⟨by simp [hnew.blockers], fun e he reason hsome => ?_, by simp [hnew.evidence]⟩
  obtain ⟨t, -, criteria, rfl⟩ := exists_of_forall₂ (startLedger_initial hstart) he
  cases hsome

/-- A decision adds no text, and an override takes some away. -/
lemma keepsSecrets_resolve {secrets : List String} {L L' : Ledger}
    {blockerId decision atTime : String} {actor : Actor}
    (hres : resolveBlocker L blockerId decision actor atTime = .ok L')
    (hL : L.KeepsSecrets secrets) : L'.KeepsSecrets secrets := by
  obtain ⟨resolution, subject, ⟨rfl, -⟩ | ⟨-, b, -, rfl⟩⟩ := resolveBlocker_cases hres
  · exact ⟨hL.blockers, hL.reasons, hL.evidence⟩
  · refine ⟨fun b' hb' => hL.blockers b' (List.mem_filter.mp hb').1, fun e he reason hsome => ?_,
      hL.evidence⟩
    obtain ⟨e', he', rfl⟩ := List.mem_map.mp he
    by_cases hnamed : e'.named b.taskId = true
    · rw [if_pos hnamed] at hsome
      cases hsome
    · rw [if_neg hnamed] at hsome
      exact hL.reasons e' he' reason hsome

section Histories

variable [FloatReader] [JsonReader]

/-- The ledgers reached by a `run`, then `resume`s and `resolve_blocker`s, each run and resume
driven by an executor of an engine none of whose calls in it tells a secret. -/
inductive DiscreetHistory (secrets : List String) : Ledger → Prop
  | run {W : Type} {h : Host W} {x : Executor W} {tells : TaskNode → Dict → W → List String → Prop}
      {cfg : RunConfig} {m : Manifest} {L : Ledger} {w w' : W} {res : RunResult}
      {fx : List Effect} : EngineExecutor secrets x tells → startLedger m = .ok L →
      (∀ node u, DriveCall h x cfg m [] ⟨L, w, []⟩ node u →
        ∀ texts, tells node L.isolationScope u texts → Discreet secrets texts) →
      run (h.driving x) cfg m w = (.ok res, w', fx) → DiscreetHistory secrets res.ledger
  | resume {W : Type} {h : Host W} {x : Executor W}
      {tells : TaskNode → Dict → W → List String → Prop} {cfg : RunConfig} {m : Manifest}
      {s : Session W} : EngineExecutor secrets x tells →
      (∀ node u, DriveCall h x cfg m (completedIds s.ledger)
          { s with ledger := s.ledger.setRunState .running } node u →
        ∀ texts, tells node s.ledger.isolationScope u texts → Discreet secrets texts) →
      DiscreetHistory secrets s.ledger →
      DiscreetHistory secrets (resume (h.driving x) cfg m s).2.ledger
  | resolve {L L' : Ledger} {blockerId decision atTime : String} {actor : Actor} :
      DiscreetHistory secrets L → resolveBlocker L blockerId decision actor atTime = .ok L' →
      DiscreetHistory secrets L'

/-- A history that tells no secret leaves none in its ledger. -/
lemma keepsSecrets_history {secrets : List String} (hown : Discreet secrets loopReasons)
    {L : Ledger} (hL : DiscreetHistory secrets L) : L.KeepsSecrets secrets := by
  induction hL with
  | @run W h x tells cfg m L w w' res fx hx hstart hcalls hrun =>
      rw [run, hstart] at hrun
      obtain ⟨r, state, L', gx, w₂, -, hexec, hres⟩ := drive_spec (h.driving x) cfg m [] ⟨L, w, []⟩
      have hdrive := drive_keepsSecrets hown
        (fun node u hcall => (hx.discreet_iff node L.isolationScope u).mpr (hcalls node u hcall))
        (startLedger_keepsSecrets hstart)
      rw [hexec] at hdrive
      simp only [hexec, Prod.mk.injEq] at hrun
      obtain ⟨rfl, -, -⟩ := hrun
      rw [(hres res rfl).1]
      exact hdrive
  | @resume W h x tells cfg m s hx hcalls _ ih =>
      exact drive_keepsSecrets hown
        (fun node u hcall => (hx.discreet_iff node _ u).mpr (hcalls node u hcall))
        ⟨ih.blockers, ih.reasons, ih.evidence⟩
  | resolve _ hres ih => exact keepsSecrets_resolve hres ih

/-- **Secrets and results.**  A call of an executor of an engine returns no result with a secret
exactly when none occurs in what it takes over: the line of a command that fails, the message of a
denied action, the output and the stray path of a host runtime, and its own words.  A history whose
calls all do so leaves no secret in its ledger that is not in a reason of the loop itself. -/
theorem secrets_kept (secrets : List String) :
    (∀ {W : Type} {x : Executor W} {tells : TaskNode → Dict → W → List String → Prop},
      EngineExecutor secrets x tells → ∀ node scope w,
        (∀ result w', x.execute node scope w = (.ok result, w') → Discreet secrets result.texts)
          ↔ ∀ texts, tells node scope w texts → Discreet secrets texts)
      ∧ (Discreet secrets loopReasons →
        ∀ L, DiscreetHistory secrets L → L.KeepsSecrets secrets) :=
  ⟨fun hx => hx.discreet_iff, fun hown _ hL => keepsSecrets_history hown hL⟩

end Histories

end Runtime

section Example

attribute [local instance] cpython noFloats noJson

/-- A secret of an engine. -/
def oneSecret : List String := ["hunter2"]

/-- The executor whose second write is denied, over the secret. -/
def guardedExecutor : Executor Unit := scriptedExecutor frailEffectors oneSecret deniedScript

lemma guarded_execute : guardedExecutor.execute (scriptNode ("T1", []))
    oneTaskManifest.isolationScope ()
      = (.ok ⟨.failure, ["src/a"], none, some "denied", false⟩, ()) := by decide +kernel

/-- The calls of a drive over the one task tell no secret. -/
lemma guarded_tells {L : Ledger} (hscope : L.isolationScope = oneTaskManifest.isolationScope)
    {node : TaskNode} (hnode : node ∈ oneTaskManifest.taskGraph) {result : ExecutorResult}
    {u w' : Unit} (hexec : guardedExecutor.execute node L.isolationScope u = (.ok result, w')) :
    Discreet oneSecret result.texts := by
  obtain rfl : node = scriptNode ("T1", []) := List.mem_singleton.mp hnode
  rw [hscope, guarded_execute, Prod.mk.injEq] at hexec
  rw [← Except.ok.inj hexec.1]
  decide +kernel

/-- A denied write, the message of which holds no secret. -/
theorem secrets_kept_denied : ∃ L, DiscreetHistory oneSecret L
    ∧ L.blockers.map (·.description) = ["denied"] ∧ L.KeepsSecrets oneSecret := by
  have hx : EngineExecutor oneSecret guardedExecutor
      (ScriptTells frailEffectors oneSecret deniedScript) := .scripted frailEffectors deniedScript
  obtain ⟨L, hstart, hview⟩ : ∃ L, (startLedger oneTaskManifest).toOption = some L
      ∧ decide (L.isolationScope = oneTaskManifest.isolationScope
        ∧ (driveSession ((stillHost Unit).driving guardedExecutor) scriptConfig oneTaskManifest []
            ⟨L, (), []⟩).1.isSome
        ∧ (driveSession ((stillHost Unit).driving guardedExecutor) scriptConfig oneTaskManifest []
            ⟨L, (), []⟩).2.ledger.blockers.map (·.description) = ["denied"]) = true := by
    refine (Option.any_eq_true _ _).mp ?_
    decide +kernel
  obtain ⟨hscope, hends, hblockers⟩ := of_decide_eq_true hview
  obtain ⟨state, hstate⟩ := Option.isSome_iff_exists.mp hends
  obtain ⟨res, hrun, hledger⟩ := run_returns ((stillHost Unit).driving guardedExecutor) scriptConfig
    (scriptManifest_roots _) (eq_ok_of_toOption hstart) (Prod.ext_iff.mpr ⟨hstate, rfl⟩)
  have hL : DiscreetHistory oneSecret res.ledger := by
    refine .run hx (eq_ok_of_toOption hstart) (fun node u hcall => ?_) hrun
    exact ((secrets_kept oneSecret).1 hx _ _ _).mp fun result w' =>
      guarded_tells hscope hcall.node_mem
  refine ⟨res.ledger, hL, ?_, (secrets_kept oneSecret).2 (by decide +kernel) _ hL⟩
  rw [hledger]
  exact hblockers

/-- A runtime that prints what it has been given. -/
def loudClient : TaskNode → Call PyErr Unit RuntimeResult :=
  fun _ w => (.ok ⟨true, [], "token hunter2", []⟩, w)

/-- **What a host runtime prints is evidence**, secret or not. -/
theorem secrets_leak : ¬ ∀ secrets : List String, (∀ s ∈ secrets, s ≠ "" ∧ '*' ∉ s.toList) →
    ∀ {W : Type} {x : Executor W} {tells : TaskNode → Dict → W → List String → Prop},
      EngineExecutor secrets x tells → ∀ node scope w result w',
        x.execute node scope w = (.ok result, w') → Discreet secrets result.texts := by
  intro h
  obtain ⟨result, hresult, hview⟩ : ∃ result,
      (hostRuntimeExecute (stillTimer Unit) loudClient noBudget (scriptNode ("T1", []))
        oneTaskManifest.isolationScope ((), Usage.zero)).1.toOption = some result
      ∧ decide (¬ Discreet oneSecret result.texts) = true := by
    refine (Option.any_eq_true _ _).mp ?_
    decide +kernel
  have hexec : hostRuntimeExecute (stillTimer Unit) loudClient noBudget (scriptNode ("T1", []))
      oneTaskManifest.isolationScope ((), Usage.zero) = (.ok result, _) :=
    Prod.ext_iff.mpr ⟨eq_ok_of_toOption hresult, rfl⟩
  exact of_decide_eq_true hview (h oneSecret (by decide +kernel)
    (.hostRuntime (stillTimer Unit) loudClient noBudget) _ _ _ result _ hexec)

end Example

end IplanRunner
