import IplanRunner.Ledger.Fanout
import IplanRunner.Runs.AppendOnly
import IplanRunner.Runs.Commit
import IplanRunner.Runs.Fixpoint

/-!
What a ledger is projected to does not change while it grows.

* `Later`: what is done to a ledger once its run has returned.
* `Progress`: what all of it keeps.  The log is a prefix, signatures aside, and the task of a
  committed transaction keeps its acceptance; `Turn.progress` is the proof for one task.
* `reprojection_prefix`: the projection of a ledger is a prefix of every later one.
-/

namespace IplanRunner

open Foundation

section Runtime

variable [PyRuntime]

/-- What is done to a ledger once its run has returned, with the ledger it leaves: a call that
raises counts too, a decision that is refused changes nothing. -/
inductive Later : Ledger → Ledger → Prop
  | resume {W : Type} (h : Host W) (cfg : RunConfig) (manifest : Manifest) (s : Session W) :
      Later s.ledger (resume h cfg manifest s).2.ledger
  | resolve {L L' : Ledger} {blockerId decision : String} {actor : Actor} {atTime : String} :
      resolveBlocker L blockerId decision actor atTime = .ok L' → Later L L'
  | land {W : Type} (h : Host W) (repo : Repo W) (branch message : String) (gate : Option Gate)
      (s : Session W) : Later s.ledger (land h repo branch message gate s).2.ledger
  | sign (L : Ledger) (key : String) : Later L (L.sign key).2

/-! ### What the projection reads of a ledger -/

/-- The acceptance results by task id, in the order of the ledger. -/
def Ledger.accepted (L : Ledger) : List (Val × Val) :=
  L.taskLedger.map fun e => (e.taskId, .str e.acceptance.result.text)

omit [PyRuntime] in
/-- Where ids can be looked up, the projection reads the results of the entries. -/
lemma acceptanceResults_toDoc {L : Ledger} (hids : ∀ e ∈ L.taskLedger, e.taskId.hashable = true) :
    acceptanceResults L.toDoc = .ok L.accepted := by
  have hread : acceptanceResults L.toDoc = (L.taskLedger.map TaskEntry.toVal).mapM fun t => do
      let taskId ← t.get "task_id"
      if !taskId.hashable then throw .typeError
      let result ← ((← t.get "acceptance").orElse (.dict [])).get "result"
      return (taskId, result) := rfl
  rw [hread, Ledger.accepted]
  generalize L.taskLedger = entries at hids
  induction entries with
  | nil => rfl
  | cons e rest ih =>
      have hone : e.toVal.get "task_id" = .ok e.taskId := rfl
      have hresult : e.toVal.get "acceptance" = .ok (.dict
          [("criteria", e.acceptance.criteria), ("result", .str e.acceptance.result.text)]) := rfl
      rw [List.map_cons, List.mapM_cons, ih fun x hx => hids x (List.mem_cons_of_mem _ hx), hone,
        hresult]
      simp only [ok_bind, hids e (by simp)]
      rfl

omit [PyRuntime] in
/-- A lookup only looks at the entries of its task. -/
lemma resultOf_congr {results results' : List (Val × Val)} {subject : Val}
    (h : (results.filter fun p => p.1.pyEq subject) = results'.filter fun p => p.1.pyEq subject) :
    resultOf results subject = resultOf results' subject := by
  have hfind : ∀ rs : List (Val × Val), (rs.reverse.find? fun p => p.1.pyEq subject)
      = (rs.filter fun p => p.1.pyEq subject).reverse.head? := by
    intro rs
    rw [← List.head?_filter, List.filter_reverse]
  rw [resultOf, resultOf, hfind, hfind, h]

/-! ### Progress -/

/-- An event as the program writes it: of a kind of its own, about a text or nothing, at a time and
with paths that are texts. -/
structure EventBody.Plain (e : EventBody) : Prop where
  kind : ∀ v, e.kind ≠ .other v
  subject : e.subjectId = .none ∨ ∃ t, e.subjectId = .str t
  completed : e.kind = .taskCompleted → ∃ t, e.subjectId = .str t
  time : ∃ t, e.atTime = .str t
  paths : ∃ ps, e.touchedPaths = strList ps

/-- What is kept from a ledger to a later one. -/
structure Progress (L L' : Ledger) : Prop where
  log : Extends L.executionLog L'.executionLog
  taskIds : L'.taskLedger.map (·.taskId) = L.taskLedger.map (·.taskId)
  committed : ∀ t, alreadyCommitted L (executeKey t) = true →
    alreadyCommitted L' (executeKey t) = true
  accepted : ∀ t, alreadyCommitted L (executeKey t) = true →
    resultOf L'.accepted (.str t) = resultOf L.accepted (.str t)
  once : CommittedOnce L → CommittedOnce L'
  plain : (∀ e ∈ L.bodies, e.Plain) → ∀ e ∈ L'.bodies, e.Plain

lemma Progress.refl (L : Ledger) : Progress L L :=
  ⟨Extends.refl _, rfl, fun _ h => h, fun _ _ => rfl, id, id⟩

lemma Progress.trans {L L' L'' : Ledger} (h : Progress L L') (h' : Progress L' L'') :
    Progress L L'' where
  log := h.log.trans h'.log
  taskIds := h'.taskIds.trans h.taskIds
  committed := fun t ht => h'.committed t (h.committed t ht)
  accepted := fun t ht => (h'.accepted t (h.committed t ht)).trans (h.accepted t ht)
  once := h'.once ∘ h.once
  plain := h'.plain ∘ h.plain

/-- A change of the ledger that touches neither tasks nor journal, and logs at most a plain event
that completes nothing. -/
lemma progress_of_log {L L' : Ledger} (htasks : L'.taskLedger = L.taskLedger)
    (hjournal : L'.sagaJournal = L.sagaJournal) {e : EventBody}
    (hlog : L'.executionLog = appendEvent L.executionLog e) (hkind : e.kind ≠ .taskCompleted)
    (hplain : (∀ e ∈ L.bodies, e.Plain) → e.Plain) : Progress L L' := by
  have hbodies : L'.bodies = L.bodies ++ [e] := by
    rw [Ledger.bodies, hlog, appendEvent_map_body, Ledger.bodies]
  refine ⟨hlog ▸ extends_appendEvent _ _, by rw [htasks], fun t ht => ?_, fun t _ => ?_,
    fun hL => hL.log hkind hjournal hbodies, fun hL b hb => ?_⟩
  · rwa [alreadyCommitted, hjournal]
  · rw [Ledger.accepted, htasks, Ledger.accepted]
  · rw [hbodies, List.mem_append, List.mem_singleton] at hb
    rcases hb with hb | rfl
    · exact hL b hb
    · exact hplain hL

/-- A change of neither tasks, journal nor log. -/
lemma progress_of_keep {L L' : Ledger} (htasks : L'.taskLedger = L.taskLedger)
    (hjournal : L'.sagaJournal = L.sagaJournal) (hlog : L'.executionLog = L.executionLog) :
    Progress L L' := by
  refine ⟨hlog ▸ Extends.refl _, by rw [htasks], fun t ht => ?_, fun t _ => ?_, fun hL t => ?_,
    fun hL => ?_⟩
  · rwa [alreadyCommitted, hjournal]
  · rw [Ledger.accepted, htasks, Ledger.accepted]
  · rw [Ledger.bodies, hlog, hjournal]
    exact hL t
  · rwa [Ledger.bodies, hlog]

/-! ### The run loop -/

section Loop

variable {W : Type} {h : Host W} {cfg : RunConfig} {node : TaskNode} {taskId : String}
  {completed : List String} {L L' : Ledger}

omit [PyRuntime] in
lemma plain_loopEvent (scope : Dict) {kind : EventKind} (hkind : ∀ v, kind ≠ .other v)
    (taskId atTime : String) (paths : List String) :
    (loopEvent scope kind taskId atTime paths).Plain :=
  ⟨hkind, Or.inr ⟨taskId, rfl⟩, fun _ => ⟨taskId, rfl⟩, ⟨atTime, rfl⟩, ⟨paths, rfl⟩⟩

/-- A turn logs plain events. -/
lemma Turn.plain {r : Except PyErr Unit} {δ : Delta} {fx : List Effect}
    (hturn : Turn h cfg node taskId completed L r δ fx) : ∀ e ∈ δ.events, e.Plain := by
  have hloop : ∀ (kind : EventKind) (atTime : String) (paths : List String),
      (∀ v, kind ≠ .other v) → (loopEvent L.isolationScope kind taskId atTime paths).Plain :=
    fun _ atTime paths hkind => plain_loopEvent _ hkind _ atTime paths
  cases hturn with
  | unmet _ => simpa [blockDelta] using hloop .taskBlocked _ _ (by simp)
  | ran _ hrun =>
      cases hrun with
      | committed _ => simp
      | conflict _ _ => simpa [blockDelta] using hloop .taskBlocked _ _ (by simp)
      | crashed _ _ _ _ => simpa [crashDelta] using hloop .taskStarted _ _ (by simp)
      | succeeded =>
          intro e he
          simp only [successDelta, editEvents, List.mem_cons, List.mem_append, List.mem_map,
            List.not_mem_nil, or_false] at he
          rcases he with (rfl | ⟨edit, -, rfl⟩) | rfl <;> exact hloop _ _ _ (by simp)
      | failed _ _ _ _ _ =>
          intro e he
          simp only [failureDelta, compensationEvents, List.mem_cons, List.mem_append,
            List.not_mem_nil, or_false] at he
          rcases he with (rfl | he) | rfl
          · exact hloop _ _ _ (by simp)
          · split at he
            · cases he
            · rw [List.mem_singleton.mp he]
              exact hloop _ _ _ (by simp)
          · exact hloop _ _ _ (by simp)

/-- A turn changes the acceptance of its task only when it commits it. -/
lemma Turn.keeps_acceptance {r : Except PyErr Unit} {δ : Delta} {fx : List Effect}
    (hturn : Turn h cfg node taskId completed L r δ fx) :
    (∀ e, (δ.entry e).acceptance = e.acceptance)
      ∨ alreadyCommitted L (executeKey taskId) = false := by
  cases hturn with
  | unmet _ => exact Or.inl fun _ => rfl
  | ran _ hrun =>
      cases hrun with
      | committed _ => exact Or.inl fun _ => rfl
      | conflict hfree _ => exact Or.inr hfree
      | crashed hfree _ _ _ => exact Or.inr hfree
      | succeeded hfree => exact Or.inr hfree
      | failed hfree _ _ _ _ => exact Or.inr hfree

/-- The result of a committed task is what it was before the turn. -/
lemma Turn.accepted {r : Except PyErr Unit} {δ : Delta} {fx : List Effect}
    (hturn : Turn h cfg node taskId completed L r δ fx) {t : String}
    (ht : alreadyCommitted L (executeKey t) = true) :
    resultOf (L.apply taskId δ).accepted (.str t) = resultOf L.accepted (.str t) := by
  rcases hturn.keeps_acceptance with hkeep | hfree
  · have hsame : (L.apply taskId δ).accepted = L.accepted :=
      map_updateFirst _ _ _ (fun e => by rw [hturn.entry_taskId, hkeep]) _
    rw [hsame]
  · -- the turn is about another task, whose entries are not looked up
    have hne : taskId ≠ t := by
      rintro rfl
      rw [ht] at hfree
      cases hfree
    refine resultOf_congr ?_
    rw [Ledger.accepted, Ledger.accepted, List.filter_map, List.filter_map,
      Ledger.apply_taskLedger]
    refine congrArg (List.map _) (filter_updateFirst (fun e he => ?_) _)
    have hid : e.taskId = .str taskId := by simpa [TaskEntry.named] using he
    simp [hturn.entry_taskId, hid, hne]

/-- **A turn is progress.** -/
lemma Turn.progress {r : Except PyErr Unit} {δ : Delta} {fx : List Effect}
    (hturn : Turn h cfg node taskId completed L r δ fx) : Progress L (L.apply taskId δ) := by
  refine ⟨extends_foldl _ _, hturn.taskIds, fun t ht => ?_, fun t => hturn.accepted,
    fun hL => hL.turn hturn, fun hL e he => ?_⟩
  · rw [alreadyCommitted] at ht
    rw [alreadyCommitted, Ledger.apply_sagaJournal, List.any_append, ht, Bool.true_or]
  · rw [bodies_apply, List.mem_append] at he
    rcases he with he | he
    · exact hL e he
    · exact hturn.plain e he

lemma LoopRun.progress {graph : List TaskNode} {order : List String} {r : Except PyErr RunState}
    {fx : List Effect} (hrun : LoopRun h cfg graph order completed L r L' fx) : Progress L L' := by
  induction hrun with
  | finished => exact Progress.refl _
  | unknown _ => exact Progress.refl _
  | skip _ _ ih => exact ih
  | paused _ _ _ => exact Progress.refl _
  | aborted _ _ _ => exact Progress.refl _
  | noNode _ _ _ => exact Progress.refl _
  | raised _ _ _ hturn => exact hturn.progress
  | turned _ _ _ hturn _ ih => exact hturn.progress.trans ih

lemma DriveRun.progress {m : Manifest} {state : Option RunState} {fx : List Effect}
    (hrun : DriveRun h cfg m completed L state L' fx) : Progress L L' := by
  cases hrun with
  | noOrder _ => exact Progress.refl _
  | raised _ hloop => exact hloop.progress
  | ended _ hloop => exact hloop.progress.trans (progress_of_keep rfl rfl rfl)

end Loop

/-! ### Decisions, landings and signatures -/

omit [PyRuntime] in
/-- A landing names texts when the events of the log do. -/
lemma landedPaths_plain {log : List Event} {touched : List Val}
    (hplain : ∀ e ∈ log, e.toEventBody.Plain) (h : landedPaths log = .ok touched) :
    ∃ ps : List String, touched = ps.map Val.str := by
  rw [landedPaths] at h
  obtain ⟨paths, hpaths, hsorted⟩ := except_bind_eq_ok.mp h
  have htext : ∀ x ∈ touched, ∃ p, x = .str p := by
    intro x hx
    obtain ⟨e, he, zs, hzs, hin⟩ := ((collect_eq_ok hpaths).2 x).mp (mem_sortedSet hsorted hx)
    obtain ⟨ps, hps⟩ := (hplain e he).paths
    split_ifs at hzs
    · rw [hps, strList] at hzs
      cases hzs
      obtain ⟨p, -, rfl⟩ := List.mem_map.mp hin
      exact ⟨p, rfl⟩
    · cases hzs
      cases hin
  clear h hsorted
  induction touched with
  | nil => exact ⟨[], rfl⟩
  | cons x xs ih =>
      obtain ⟨p, rfl⟩ := htext x (by simp)
      obtain ⟨ps, hps⟩ := ih fun y hy => htext y (List.mem_cons_of_mem _ hy)
      exact ⟨p :: ps, by rw [hps, List.map_cons]⟩

/-- What the commit of a landing does to a ledger: nothing, when a call of it raises, or one commit
of the paths of its log. -/
lemma commitRun_ledger {W : Type} (h : Host W) (repo : Repo W) (branch message : String)
    (s : Session W) : (commitRun h repo branch message s).2.ledger = s.ledger
      ∨ ∃ commit : Commit, landedPaths s.ledger.executionLog = .ok commit.touchedPaths
        ∧ (commitRun h repo branch message s).2.ledger = s.ledger.recordCommit branch commit := by
  rw [commitRun]
  rcases hsha : repo.commitAll branch message s.world with ⟨e | sha, w⟩
  · have hcall : Loop.git (repo.commitAll branch message) s = (.error e,
      { s with world := w }) := by
      rw [Loop.git, hsha]
    rw [Call.bind_error hcall]
    exact Or.inl rfl
  · have hcall : Loop.git (repo.commitAll branch message) s = (.ok sha, { s with world := w }) := by
      rw [Loop.git, hsha]
    rw [Call.bind_ok hcall, Loop.bind_clock, Loop.bind_ledger]
    cases htouched : landedPaths s.ledger.executionLog with
    | error e => exact Or.inl (by simp [Call.bind_apply])
    | ok touched =>
        refine Or.inr ⟨⟨sha, message, (h.clock w).1, touched⟩, rfl, ?_⟩
        simp [Call.bind_apply]

/-- A landing does to a ledger what its commit does, if it makes one. -/
lemma land_ledger {W : Type} (h : Host W) (repo : Repo W) (branch message : String)
    (gate : Option Gate) (s : Session W) :
    (land h repo branch message gate s).2.ledger = s.ledger
      ∨ ∃ commit : Commit, landedPaths s.ledger.executionLog = .ok commit.touchedPaths
        ∧ (land h repo branch message gate s).2.ledger = s.ledger.recordCommit branch commit := by
  have hgate : ∀ s : Session W, ((do
      let ledger ← Loop.ledger
      let gateResult ← Call.ofExcept (runGate ledger.toDoc (gate.getD defaultGate))
      return (⟨ledger, gateResult⟩ : RunResult) : Loop W RunResult) s).2 = s := by
    intro s
    cases hg : runGate s.ledger.toDoc (gate.getD defaultGate) <;>
      simp [Call.bind_apply, Loop.ledger, hg]
  rw [land]
  rcases hchanged : repo.hasChanges s.world with ⟨e | changed, w⟩
  · have hcall : Loop.git repo.hasChanges s = (.error e, { s with world := w }) := by
      rw [Loop.git, hchanged]
    rw [Call.bind_error hcall]
    exact Or.inl rfl
  have hcall : Loop.git repo.hasChanges s = (.ok changed, { s with world := w }) := by
    rw [Loop.git, hchanged]
  rw [Call.bind_ok hcall]
  cases changed with
  | false =>
      rw [if_neg (by simp), hgate]
      exact Or.inl rfl
  | true =>
      have hcommit := commitRun_ledger h repo branch message { s with world := w }
      rcases hout : commitRun h repo branch message { s with world := w } with ⟨e | u, s'⟩
      · rw [hout] at hcommit
        rw [if_pos rfl, Call.bind_error hout]
        exact hcommit
      · rw [hout] at hcommit
        rw [if_pos rfl, Call.bind_ok hout, hgate]
        exact hcommit

omit [PyRuntime] in
/-- An override resets a task, but not its acceptance. -/
lemma accepted_override (L : Ledger) (b : Blocker) : (L.override b).accepted = L.accepted := by
  rw [Ledger.accepted, Ledger.override, List.map_map, Ledger.accepted]
  refine List.map_congr_left fun e _ => ?_
  simp only [Function.comp_apply]
  split <;> rfl

/-- A decision is progress. -/
lemma progress_resolve {L L' : Ledger} {blockerId decision atTime : String} {actor : Actor}
    (hres : resolveBlocker L blockerId decision actor atTime = .ok L') : Progress L L' := by
  have hrecord : ∀ (L : Ledger) (resolution : Resolution) (subject : Val),
      (subject = .none ∨ ∃ t, subject = .str t) →
        Progress L (L.recordResolution resolution subject) := by
    intro L resolution subject hsubject
    exact progress_of_log rfl rfl rfl (by simp [resolutionEvent]) fun _ =>
      ⟨by simp [resolutionEvent], hsubject, by simp [resolutionEvent], ⟨_, rfl⟩, ⟨[], rfl⟩⟩
  have hover : ∀ b, Progress L (L.override b) := by
    intro b
    refine ⟨Extends.refl _, override_taskIds L b, fun _ ht => ht, fun t _ => ?_, id, id⟩
    rw [accepted_override]
  rw [resolveBlocker] at hres
  split at hres
  · cases hres
  · split at hres
    · cases hres
      exact hrecord L _ _ (Or.inl rfl)
    · rename_i b hb
      cases hres
      split
      · exact (hover b).trans (hrecord _ _ _ (Or.inr ⟨_, rfl⟩))
      · exact hrecord L _ _ (Or.inr ⟨_, rfl⟩)

/-- Signing leaves what was logged. -/
lemma bodies_sign (L : Ledger) (key : String) : (L.sign key).2.bodies = L.bodies := by
  have hone : ∀ {e e' : Event}, e' = e ∨ Event.sign key e = .ok e' →
      e'.toEventBody = e.toEventBody := by
    rintro e e' (rfl | h)
    · rfl
    · obtain ⟨s, -, hs⟩ := except_bind_eq_ok.mp h
      cases hs
      rfl
  have hall := updateEach_forall (Event.sign key) L.executionLog
  rw [Ledger.bodies, Ledger.bodies, Ledger.sign]
  generalize (updateEach (Event.sign key) L.executionLog).2 = log' at hall
  generalize L.executionLog = log at hall
  induction hall with
  | nil => rfl
  | cons hx _ ih => rw [List.map_cons, List.map_cons, hone hx, ih]

/-- **Whatever is done to a ledger after its run is progress.** -/
theorem Later.progress {L L' : Ledger} (hlater : Later L L') : Progress L L' := by
  cases hlater with
  | resume h cfg manifest s =>
      obtain ⟨r, state, L', fx, w, hdrive, hexec, -⟩ := resume_spec h cfg manifest s
      rw [hexec]
      have hstart : Progress s.ledger (s.ledger.setRunState .running) :=
        progress_of_keep rfl rfl rfl
      exact hstart.trans hdrive.progress
  | resolve hres => exact progress_resolve hres
  | land h repo branch message gate s =>
      rcases land_ledger h repo branch message gate s with hkeep | ⟨commit, htouched, hcommit⟩
      · rw [hkeep]
        exact Progress.refl _
      · rw [hcommit]
        refine progress_of_log rfl rfl rfl (by simp [landingEvent]) fun hplain => ?_
        obtain ⟨ps, hps⟩ := landedPaths_plain
          (fun e he => hplain e.toEventBody (List.mem_map_of_mem he)) htouched
        exact ⟨by simp [landingEvent], Or.inr ⟨_, rfl⟩, by simp [landingEvent], ⟨_, rfl⟩,
          ⟨ps, congrArg Val.list hps⟩⟩
  | sign L key =>
      have hbodies : (L.sign key).2.bodies = L.bodies := bodies_sign L key
      refine ⟨extends_sign key _, rfl, fun _ ht => ht, fun _ _ => rfl, fun hL t => ?_, fun hL => ?_⟩
      · rw [hbodies]
        exact hL t
      · rwa [hbodies]

/-! ### Projecting twice -/

/-- The events the projection makes of the log entries about a task. -/
def eventsAbout (L : Ledger) (payload : Dict) (key : String) (keyId : Val) (taskId : String) :
    Except PyErr (List Dict) := do
  let results ← acceptanceResults L.toDoc
  collect (projectEntry results (identityOf payload) key keyId)
    ((L.executionLog.filter (·.subjectId == .str taskId)).map Event.toVal)

/-- What a run leaves, and what is done to it later keeps. -/
structure Projectable (L : Ledger) : Prop where
  chained : Chained L.executionLog
  plain : ∀ e ∈ L.bodies, e.Plain
  once : CommittedOnce L
  ids : ∀ v ∈ L.taskLedger.map (·.taskId), ∃ s, v = .str s

lemma projectable_start {m : Manifest} (hids : StringIds m.taskGraph) {L : Ledger}
    (hstart : startLedger m = .ok L) : Projectable L := by
  have hnew := startLedger_new hstart
  refine ⟨by rw [hnew.log]; trivial, by simp [Ledger.bodies, hnew.log],
    committedOnce_history.start trivial hstart, ?_⟩
  rw [(startLedger_entries hstart).2]
  exact List.forall_mem_map.mpr hids

lemma Projectable.progress {L L' : Ledger} (hL : Projectable L) (h : Progress L L') :
    Projectable L' :=
  ⟨h.log.chained hL.chained, h.plain hL.plain, h.once hL.once, h.taskIds ▸ hL.ids⟩

lemma Projectable.results {L : Ledger} (hL : Projectable L) :
    acceptanceResults L.toDoc = .ok L.accepted := by
  refine acceptanceResults_toDoc fun e he => ?_
  obtain ⟨s, hs⟩ := hL.ids e.taskId (List.mem_map_of_mem he)
  rw [hs]
  rfl

/-- The projection of such a ledger is the loop over its log. -/
lemma Projectable.project {L : Ledger} (hL : Projectable L) (payload : Dict) (key : String)
    (keyId : Val) : toExecutionEvents L.toDoc payload key keyId
      = collect (fun e : Event => projectEntry L.accepted (identityOf payload) key keyId e.toVal)
          L.executionLog := by
  have hlog : L.toDoc.get "execution_log" (.list [])
      = .ok (.list (L.executionLog.map Event.toVal)) := rfl
  rw [toExecutionEvents, hL.results, ok_bind, hlog, ok_bind]
  exact collect_map _ _ _

lemma Projectable.about {L : Ledger} (hL : Projectable L) (payload : Dict) (key : String)
    (keyId : Val) (t : String) : eventsAbout L payload key keyId t
      = collect (fun e : Event => projectEntry L.accepted (identityOf payload) key keyId e.toVal)
          (L.executionLog.filter (·.subjectId == .str t)) := by
  rw [eventsAbout, hL.results, ok_bind]
  exact collect_map _ _ _

omit [PyRuntime] in
lemma hasCanonicalText_strList (ps : List String) : hasCanonicalText (strList ps) = true := by
  rw [strList, hasCanonicalText]
  induction ps with
  | nil => rfl
  | cons p ps ih => rw [List.map_cons, hasCanonicalTexts, ih]; rfl

/-- Such a ledger is projected, under an identity with canonical texts. -/
lemma Projectable.returns {L : Ledger} (hL : Projectable L) {payload : Dict}
    (hidentity : ∀ k ∈ identityFields, hasCanonicalText (payload.get k) = true) (key : String)
    (keyId : Val) : Returns (toExecutionEvents L.toDoc payload key keyId) := by
  have hentry : ∀ v ∈ L.logDoc, ∃ e ∈ L.executionLog, v = e.toVal ∧ e.toEventBody.Plain := by
    intro v hv
    obtain ⟨e, he, rfl⟩ := List.mem_map.mp hv
    exact ⟨e, he, rfl, hL.plain _ (List.mem_map_of_mem he)⟩
  have hverified : verifyChain L.logDoc = .ok true := (verifyChain_toVal _).mpr hL.chained
  refine returns_toExecutionEvents rfl rfl hverified ⟨⟨_, hL.results⟩, hidentity, ?_, ?_, ?_, ?_⟩
  · intro v hv kind hkind
    obtain ⟨e, -, rfl, hplain⟩ := hentry v hv
    obtain rfl : e.kind.toVal = kind := Except.ok.inj hkind
    cases he : e.kind with
    | other k => exact absurd he (hplain.kind k)
    | _ => rfl
  · intro v hv subject hsubject
    obtain ⟨e, -, rfl, hplain⟩ := hentry v hv
    obtain rfl : e.subjectId = subject := Except.ok.inj hsubject
    rcases hplain.subject with hnone | ⟨t, ht⟩
    · rw [hnone]
      rfl
    · rw [ht]
      rfl
  · intro v hv occurredAt hat
    obtain ⟨e, -, rfl, hplain⟩ := hentry v hv
    obtain rfl : e.atTime = occurredAt := Except.ok.inj hat
    obtain ⟨t, ht⟩ := hplain.time
    rw [ht]
    rfl
  · intro v hv paths hpaths
    obtain ⟨e, -, rfl, hplain⟩ := hentry v hv
    obtain rfl : e.touchedPaths = paths := Except.ok.inj hpaths
    obtain ⟨ps, hps⟩ := hplain.paths
    rw [hps]
    exact hasCanonicalText_strList ps

/-- An entry is projected alike as long as the result of its task is. -/
lemma projectEntry_congr {results results' : List (Val × Val)} {e e' : Event} (h : e.bare = e'.bare)
    (hresult : e.kind.toVal = .str "task_completed" →
      resultOf results e.subjectId = resultOf results' e.subjectId)
    (identity : Dict) (key : String) (keyId : Val) :
    projectEntry results identity key keyId e.toVal
      = projectEntry results' identity key keyId e'.toVal := by
  have hread : ∀ (rs : List (Val × Val)) (x : Event),
      projectEntry rs identity key keyId x.toVal
        = projectEntry rs identity key keyId x.bare.toVal := fun _ _ => rfl
  rw [hread results' e', ← h, ← hread, projectEntry, projectEntry]
  have hkind : e.toVal.get "event_type" = .ok e.kind.toVal := rfl
  have hsubject : e.toVal.get "subject_id" = .ok e.subjectId := rfl
  rw [hkind, hsubject]
  by_cases hcompleted : e.kind.toVal = .str "task_completed"
  · simp only [ok_bind, hresult hcompleted]
  · simp only [ok_bind, hcompleted, if_false]

/-- A completed task of a projectable ledger is committed. -/
lemma Projectable.committed {L : Ledger} (hL : Projectable L) {e : Event} (he : e ∈ L.executionLog)
    (hkind : e.kind.toVal = .str "task_completed") :
    ∃ t, e.subjectId = .str t ∧ alreadyCommitted L (executeKey t) = true := by
  have hbody : e.toEventBody ∈ L.bodies := List.mem_map_of_mem he
  have hplain := hL.plain _ hbody
  have hcompleted : e.kind = .taskCompleted := by
    cases hk : e.kind with
    | other v => exact absurd hk (hplain.kind v)
    | taskCompleted => rfl
    | _ => rw [hk] at hkind; simp [EventKind.toVal] at hkind
  obtain ⟨t, ht⟩ := hplain.completed hcompleted
  refine ⟨t, ht, (alreadyCommitted_iff L t).mpr ?_⟩
  have hcount : 0 < completedEvents t L.bodies :=
    List.countP_pos_iff.mpr ⟨e.toEventBody, hbody, by simp [hcompleted, ht]⟩
  have honce := (hL.once t).2
  omega

/-- **An entry of a ledger is projected alike in every later one.** -/
lemma Projectable.same {L L₂ : Ledger} (hL : Projectable L) (hlater : Progress L L₂)
    (identity : Dict) (key : String) (keyId : Val) : ∀ e ∈ L.executionLog,
      ∀ e₂ ∈ L₂.executionLog, e.bare = e₂.bare →
        projectEntry L.accepted identity key keyId e.toVal
          = projectEntry L₂.accepted identity key keyId e₂.toVal := by
  intro e he e₂ _ hbare
  refine projectEntry_congr hbare (fun hkind => ?_) identity key keyId
  obtain ⟨t, ht, hcommitted⟩ := hL.committed he hkind
  rw [ht]
  exact (hlater.accepted t hcommitted).symm

/-- The test events about a task all say the same. -/
lemma Projectable.one_result {L : Ledger} (hL : Projectable L) {payload : Dict} {key : String}
    {keyId : Val} {t : String} {about : List Dict}
    (habout : eventsAbout L payload key keyId t = .ok about) :
    ∃ passed : Bool, ∀ event ∈ about, event.get "event_type"
      ≠ .str (if passed then "test.failed" else "test.passed") := by
  obtain ⟨result, hresult⟩ : ∃ result, resultOf L.accepted (.str t) = .ok result := ⟨_, rfl⟩
  refine ⟨result.pyEq (.str "pass"), fun event hevent => ?_⟩
  rw [hL.about] at habout
  obtain ⟨e, he, part, hpart, hin⟩ := ((collect_eq_ok habout).2 event).mp hevent
  obtain ⟨kind, passed, hkind, hpassed, hbuilt⟩ := projectEntry_emits hpart
  obtain ⟨eventType, htype, hone⟩ := exists_of_forall₂ hbuilt hin
  have hsubject : e.subjectId = .str t := by
    have h1 := (List.mem_filter.mp he).2
    simpa using h1
  rw [(built_spec hone).1.about]
  rw [Ne, Val.str.injEq]
  rintro rfl
  by_cases hcompleted : kind = .str "task_completed"
  · obtain ⟨subject, found, hget, hfound, rfl⟩ := hpassed hcompleted
    obtain rfl : e.subjectId = subject := Except.ok.inj hget
    rw [hsubject, hresult] at hfound
    cases hfound
    subst hcompleted
    rw [emittedTypes] at htype
    cases hpass : result.pyEq (.str "pass") <;> simp [hpass] at htype
  · rw [emittedTypes] at htype
    split_ifs at htype <;> simp at htype

/-- **Re-projection is prefix-stable.**  Whatever is done to a ledger once its run has returned,
what it is projected to is a prefix of what every later ledger is projected to, under the same
identity and key: no event changes, and no key is given to another event where no two texts hashed
in the log share a digest.  The events about a task are a prefix too, and never say both that its
test passed and that it failed.  Under an identity with canonical texts the projections exist. -/
theorem reprojection_prefix {W : Type} {h : Host W} {cfg : RunConfig} {m : Manifest} {w w' : W}
    {res : RunResult} {fx : List Effect} (hids : StringIds m.taskGraph)
    (hrun : run h cfg m w = (.ok res, w', fx)) {L L₂ : Ledger}
    (hL : Relation.ReflTransGen Later res.ledger L) (hlater : Relation.ReflTransGen Later L L₂)
    (payload : Dict) (key : String) (keyId : Val) :
    ((∀ k ∈ identityFields, hasCanonicalText (payload.get k) = true) →
      Returns (toExecutionEvents L₂.toDoc payload key keyId))
    ∧ ∀ events₂, toExecutionEvents L₂.toDoc payload key keyId = .ok events₂ →
      ∃ events, toExecutionEvents L.toDoc payload key keyId = .ok events ∧ events <+: events₂
        ∧ ((∀ p ∈ payloads L₂.logDoc, ∀ q ∈ payloads L₂.logDoc,
            PyRuntime.sha256 p = PyRuntime.sha256 q → p = q) →
          ∀ event ∈ events, ∀ event₂ ∈ events₂, eventKey event = eventKey event₂ → event = event₂)
        ∧ ∀ t, ∃ about about₂, eventsAbout L payload key keyId t = .ok about
          ∧ eventsAbout L₂ payload key keyId t = .ok about₂
          ∧ about.Sublist events ∧ about₂.Sublist events₂ ∧ about <+: about₂
          ∧ ¬ ((∃ event ∈ about₂, event.get "event_type" = .str "test.passed")
            ∧ ∃ event ∈ about₂, event.get "event_type" = .str "test.failed") := by
  have hprogress : ∀ {A B : Ledger}, Relation.ReflTransGen Later A B → Progress A B := by
    intro A B hops
    induction hops with
    | refl => exact Progress.refl A
    | tail _ hop ih => exact ih.trans hop.progress
  obtain ⟨L₀, state, hstart, hdrive⟩ := run_spec _ _ hrun
  have hfirst : Projectable L :=
    ((projectable_start hids hstart).progress hdrive.progress).progress (hprogress hL)
  have hstep := hprogress hlater
  have hsecond := hfirst.progress hstep
  refine ⟨fun hidentity => hsecond.returns hidentity key keyId, fun events₂ hevents₂ => ?_⟩
  have hsame := hfirst.same hstep (identityOf payload) key keyId
  have hloop := hevents₂
  rw [hsecond.project] at hloop
  obtain ⟨events, hevents, hle⟩ := collect_prefix hstep.log.grows hsame hloop
  refine ⟨events, (hfirst.project payload key keyId).trans hevents, hle, fun hsha => ?_,
    fun t => ?_⟩
  · have hnodup : (events₂.map eventKey).Nodup :=
      keys_nodup rfl rfl ((verifyChain_toVal _).mpr hsecond.chained) hsha hevents₂
    intro event hevent event₂ hevent₂ hkey
    exact List.inj_on_of_nodup_map hnodup (hle.subset hevent) hevent₂ hkey
  · obtain ⟨about₂, habout₂, hsub₂⟩ := collect_sublist
      (List.filter_sublist (p := fun e : Event => e.subjectId == .str t)) hloop
    obtain ⟨about, habout, hsub⟩ := collect_sublist
      (List.filter_sublist (p := fun e : Event => e.subjectId == .str t)) hevents
    have hbare : ∀ log : List Event, (log.filter (·.subjectId == .str t)).map Event.bare
        = (log.map Event.bare).filter (·.subjectId == .str t) := by
      intro log
      rw [List.filter_map]
      rfl
    have hgrows : (L.executionLog.filter (·.subjectId == .str t)).map Event.bare
        <+: (L₂.executionLog.filter (·.subjectId == .str t)).map Event.bare := by
      rw [hbare, hbare]
      exact hstep.log.grows.filter _
    obtain ⟨about', habout', hpart⟩ := collect_prefix hgrows
      (fun e he e₂ he₂ => hsame e (List.mem_of_mem_filter he) e₂ (List.mem_of_mem_filter he₂))
        habout₂
    obtain rfl : about = about' := Except.ok.inj (habout.symm.trans habout')
    have htold := (hsecond.about payload key keyId t).trans habout₂
    refine ⟨about, about₂, (hfirst.about payload key keyId t).trans habout, htold, hsub, hsub₂,
      hpart, ?_⟩
    rintro ⟨⟨event, hin, htype⟩, event', hin', htype'⟩
    obtain ⟨passed, hone⟩ := hsecond.one_result htold
    cases passed with
    | true => exact hone event' hin' htype'
    | false => exact hone event hin htype

end Runtime

section Example

attribute [local instance] cpython

/-- A task that failed, was overridden and succeeded in a resume that was signed. -/
theorem reprojection_prefix_of_override :
    ∃ (res : RunResult) (w : MockWorld) (fx : List Effect) (L₁ : Ledger)
      (events events₂ : List Dict),
        run (steadyHost [("T1", mockFailure)]) scriptConfig (scriptManifest [("T1", [])])
        (.fresh [])
        = (.ok res, w, fx)
      ∧ resolveBlocker res.ledger "B1" "override" scriptOperator scriptNow = .ok L₁
      ∧ toExecutionEvents res.ledger.toDoc [("run_id", .str "R1")] "k" (.str "default") = .ok events
      ∧ toExecutionEvents ((resume (steadyHost []) scriptConfig (scriptManifest [("T1", [])])
          ⟨L₁, .fresh [], []⟩).2.ledger.sign "k").2.toDoc [("run_id", .str "R1")] "k"
          (.str "default") = .ok events₂
      ∧ events <+: events₂ := by
  have hends : runEnds (steadyHost [("T1", mockFailure)]) scriptConfig (scriptManifest [("T1", [])])
      (.fresh []) = true := by
    decide +kernel
  obtain ⟨res, w, fx, hrun⟩ := run_of_runEnds (scriptManifest_roots _) hends
  obtain ⟨L₁, hres⟩ : ∃ L₁, resolveBlocker res.ledger "B1" "override" scriptOperator scriptNow
      = .ok L₁ := by
    have hallowed : authorize scriptOperator "override" = .ok () := rfl
    rw [resolveBlocker, if_pos rfl, hallowed]
    cases res.ledger.blocker? "B1" with
    | none => exact ⟨_, rfl⟩
    | some b => exact ⟨_, rfl⟩
  obtain ⟨hreturns, hprefix⟩ := reprojection_prefix (scriptManifest_stringIds _) hrun .refl
    (((Relation.ReflTransGen.single (.resolve hres)).tail (.resume (steadyHost []) scriptConfig
      (scriptManifest [("T1", [])]) ⟨L₁, .fresh [], []⟩)).tail (.sign _ "k"))
    [("run_id", .str "R1")] "k" (.str "default")
  obtain ⟨events₂, hevents₂⟩ := hreturns (by decide)
  obtain ⟨events, hevents, hle, -⟩ := hprefix events₂ hevents₂
  exact ⟨res, w, fx, L₁, events, events₂, hrun, hres, hevents, hevents₂, hle⟩

end Example

end IplanRunner
