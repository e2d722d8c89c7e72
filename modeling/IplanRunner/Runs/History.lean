import IplanRunner.Orchestrator.Control
import IplanRunner.Orchestrator.Turn

/-!
Histories of a ledger: a run, then resumes and operator decisions in any order.

* `Reached`: the ledgers histories reach.  A resume counts whether it returns or raises, a run only
  when it returns, since it hands out no ledger otherwise.
* `resolveBlocker_cases`: what a decision does.
* `FirstsOnly`: only the first entry of an id ever leaves `pending`, so the ids `resume` reads as
  completed are those `task` finds completed.
* `HistoryInvariant`, `Reached.invariant`: what holds at the start and survives a turn, a
  reconciliation and a decision holds of every ledger reached.
-/

namespace IplanRunner

open Foundation

variable [PyRuntime]

/-! ### Histories -/

/-- The ledgers reached by a `run`, then `resume`s and `resolve_blocker`s, on manifests that satisfy
`manifests`, where an override of an id is only made in a ledger in which `overrides` allows it. -/
inductive Reached (manifests : Manifest → Prop) (overrides : Ledger → String → Prop) :
    Ledger → Prop
  | run {W : Type} {h : Host W} {cfg : RunConfig} {manifest : Manifest} {w w' : W}
      {res : RunResult} {fx : List Effect} : manifests manifest →
      run h cfg manifest w = (.ok res, w', fx) → Reached manifests overrides res.ledger
  | resume {W : Type} {h : Host W} {cfg : RunConfig} {manifest : Manifest} {s : Session W} :
      manifests manifest → Reached manifests overrides s.ledger →
      Reached manifests overrides (resume h cfg manifest s).2.ledger
  | resolve {L L' : Ledger} {blockerId decision atTime : String} {actor : Actor} :
      Reached manifests overrides L → (decision = "override" → overrides L blockerId) →
      resolveBlocker L blockerId decision actor atTime = .ok L' → Reached manifests overrides L'

/-- **A decision** is recorded, and an override of an open blocker takes effect. -/
theorem resolveBlocker_cases {L L' : Ledger} {blockerId decision atTime : String} {actor : Actor}
    (h : resolveBlocker L blockerId decision actor atTime = .ok L') :
    ∃ (resolution : Resolution) (subject : Val), L' = L.recordResolution resolution subject
        ∧ (decision = "override" → L.blocker? blockerId = none)
      ∨ decision = "override" ∧ ∃ b, L.blocker? blockerId = some b
        ∧ L' = (L.override b).recordResolution resolution subject := by
  rw [resolveBlocker] at h
  split at h
  · simp at h
  · split at h
    · rename_i hnone
      cases h
      exact ⟨_, _, Or.inl ⟨rfl, fun _ => hnone⟩⟩
    · rename_i b hb
      cases h
      by_cases hd : decision = "override"
      · exact ⟨_, _, Or.inr ⟨hd, b, hb, by rw [if_pos hd]⟩⟩
      · exact ⟨_, _, Or.inl ⟨by rw [if_neg hd], fun h => absurd h hd⟩⟩

/-- A decision logs its event. -/
lemma bodies_recordResolution (L : Ledger) (resolution : Resolution) (subject : Val) :
    (L.recordResolution resolution subject).bodies
      = L.bodies ++ [resolutionEvent L.isolationScope subject resolution.atTime] := by
  rw [Ledger.bodies, Ledger.recordResolution, appendEvent_map_body, Ledger.bodies]

omit [PyRuntime] in
/-- The statuses after an override: the task of its blocker is pending. -/
lemma Ledger.status?_override (L : Ledger) (b : Blocker) (t : String) :
    (L.override b).status? t = (L.status? t).map fun st => if t
      = b.taskId then .pending else st := by
  have hnamed : (fun e : TaskEntry => e.named t) ∘ (fun e : TaskEntry => if e.named b.taskId then
      { e with status := .pending, blockedReason := none } else e) = fun e => e.named t := by
    funext e
    simp only [Function.comp_apply]
    split <;> rfl
  rw [Ledger.status?, Ledger.task?, Ledger.override, List.find?_map, hnamed, Option.map_map,
    Ledger.status?, Ledger.task?, Option.map_map]
  cases he : L.taskLedger.find? (·.named t) with
  | none => rfl
  | some e =>
      have hid : e.taskId = .str t := by simpa [TaskEntry.named] using List.find?_some he
      by_cases ht : t = b.taskId
      · simp [TaskEntry.named, hid, ht]
      · simp [TaskEntry.named, hid, ht]

/-- The sections of a ledger no task has been run in. -/
structure NewLedger (manifest : Manifest) (L : Ledger) : Prop where
  journal : L.sagaJournal = []
  log : L.executionLog = []
  leases : L.agentLeases = []
  blockers : L.blockers = []
  evidence : L.executionEvidence = []
  history : L.executionHistory = []
  scope : L.isolationScope = manifest.isolationScope
  disallowed : L.reconciliation.allowed = false
  source : L.control.sourceIplan = manifest.control.sourceIplan
  version : L.control.sourceIplanVersion = manifest.control.sourceIplanVersion
  checksum : L.control.sourceIplanChecksum = manifest.control.sourceIplanChecksum
  unlanded : L.control.requiresLanding = false
  uncommitted : L.vcs = none

lemma startLedger_new {manifest : Manifest} {L : Ledger} (h : startLedger manifest = .ok L) :
    NewLedger manifest L := by
  rw [startLedger] at h
  obtain ⟨fs, -, h⟩ := except_bind_eq_ok.mp h
  simp only [bind, Except.bind] at h
  split at h
  · simp at h
  · obtain ⟨entries, -, h⟩ := except_bind_eq_ok.mp h
    cases h
    constructor <;> rfl

lemma startLedger_empty {manifest : Manifest} {L : Ledger} (h : startLedger manifest = .ok L) :
    L.sagaJournal = [] ∧ L.executionLog = [] ∧ L.agentLeases = [] ∧ L.blockers = []
      ∧ L.executionEvidence = [] ∧ L.isolationScope = manifest.isolationScope
      ∧ L.reconciliation.allowed = false :=
  have hL := startLedger_new h
  ⟨hL.journal, hL.log, hL.leases, hL.blockers, hL.evidence, hL.scope, hL.disallowed⟩

/-- The tasks of a new ledger are those of the manifest, none taken up. -/
lemma startLedger_initial {manifest : Manifest} {L : Ledger} (h : startLedger manifest = .ok L) :
    List.Forall₂ (fun t e => ∃ criteria, e = initialEntry t criteria) manifest.taskGraph
      L.taskLedger := by
  have hone : ∀ {t : TaskNode} {e : TaskEntry},
      (do return initialEntry t (← initialCriteria t)) = (.ok e : Except PyErr TaskEntry) →
        ∃ criteria, e = initialEntry t criteria := by
    intro t e he
    obtain ⟨criteria, -, he⟩ := except_bind_eq_ok.mp he
    exact ⟨criteria, (Except.ok.inj he).symm⟩
  rw [startLedger] at h
  obtain ⟨fs, -, h⟩ := except_bind_eq_ok.mp h
  simp only [bind, Except.bind] at h
  split at h
  · simp at h
  · obtain ⟨entries, hentries, h⟩ := except_bind_eq_ok.mp h
    cases h
    exact (mapM_eq_ok hentries).imp fun _ _ => hone

/-- No task of a new ledger is accepted. -/
lemma startLedger_unproven {manifest : Manifest} {L : Ledger} (h : startLedger manifest = .ok L) :
    ∀ e ∈ L.taskLedger, e.acceptance.result = .none := by
  have hall := startLedger_initial h
  generalize L.taskLedger = entries at hall
  generalize manifest.taskGraph = graph at hall
  induction hall with
  | nil => simp
  | cons hx _ ih =>
      obtain ⟨criteria, rfl⟩ := hx
      simpa [initialEntry] using ih

/-- Every task of a new ledger is pending, under the ids of the manifest. -/
lemma startLedger_entries {manifest : Manifest} {L : Ledger} (h : startLedger manifest = .ok L) :
    (∀ e ∈ L.taskLedger, e.status = .pending)
      ∧ L.taskLedger.map (·.taskId) = manifest.taskGraph.map (·.taskId) := by
  have hall := startLedger_initial h
  generalize L.taskLedger = entries at hall
  generalize manifest.taskGraph = graph at hall
  induction hall with
  | nil => simp
  | cons hx _ ih =>
      obtain ⟨criteria, rfl⟩ := hx
      simp [initialEntry, ih.2]
      exact ih.1

/-! ### Repeated ids -/

/-- An entry that repeats an id is pending, and an entry that is not has a string for an id. -/
structure FirstsOnly (entries : List TaskEntry) : Prop where
  repeats : entries.Pairwise fun x y => y.taskId = x.taskId → y.status = .pending
  named : ∀ e ∈ entries, e.status ≠ .pending → ∃ s, e.taskId = .str s

omit [PyRuntime] in
lemma firstsOnly_pending {entries : List TaskEntry} (h : ∀ e ∈ entries, e.status = .pending) :
    FirstsOnly entries :=
  ⟨List.pairwise_of_forall_mem_list fun _ _ y hy _ => h y hy, fun e he hne => absurd (h e he) hne⟩

omit [PyRuntime] in
/-- Changing the first entry with an id keeps its repetitions pending. -/
lemma FirstsOnly.updateFirst {entries : List TaskEntry} (h : FirstsOnly entries) (taskId : String)
    {f : TaskEntry → TaskEntry} (hf : ∀ e, (f e).taskId = e.taskId) :
    FirstsOnly (updateFirst (·.named taskId) f entries) := by
  constructor
  · have hrep := h.repeats
    clear h
    induction entries with
    | nil => exact List.Pairwise.nil
    | cons x rest ih =>
        obtain ⟨hx, hrest⟩ := List.pairwise_cons.mp hrep
        rw [Foundation.updateFirst]
        by_cases hn : x.named taskId = true
        · rw [if_pos hn]
          refine List.pairwise_cons.mpr ⟨fun y hy heq => hx y hy ?_, hrest⟩
          rwa [hf] at heq
        · rw [if_neg hn]
          refine List.pairwise_cons.mpr ⟨fun y hy heq => ?_, ih hrest⟩
          rcases mem_updateFirst hy with h1 | ⟨z, hz, hzn, rfl⟩
          · exact hx y h1 heq
          · rw [hf] at heq
            rw [TaskEntry.named] at hzn hn
            rw [heq] at hzn
            exact absurd hzn hn
  · intro e he hne
    rcases mem_updateFirst he with h1 | ⟨z, hz, hzn, rfl⟩
    · exact h.named e h1 hne
    · exact ⟨taskId, by rw [hf]; simpa [TaskEntry.named] using hzn⟩

omit [PyRuntime] in
/-- Resetting entries keeps repetitions pending. -/
lemma FirstsOnly.map {entries : List TaskEntry} (h : FirstsOnly entries)
    {f : TaskEntry → TaskEntry} (hf : ∀ e, (f e).taskId = e.taskId)
    (hst : ∀ e, (f e).status = .pending ∨ (f e).status = e.status) :
    FirstsOnly (entries.map f) := by
  constructor
  · refine List.Pairwise.map f (fun x y hxy heq => ?_) h.repeats
    rw [hf, hf] at heq
    rcases hst y with h1 | h1
    · exact h1
    · rw [h1, hxy heq]
  · intro e he hne
    obtain ⟨x, hx, rfl⟩ := List.mem_map.mp he
    rcases hst x with h1 | h1
    · exact absurd h1 hne
    · rw [h1] at hne
      rw [hf]
      exact h.named x hx hne

omit [PyRuntime] in
/-- An entry that is not pending is the one `task` finds. -/
lemma FirstsOnly.find? {entries : List TaskEntry} (h : FirstsOnly entries) {e : TaskEntry}
    (he : e ∈ entries) (hne : e.status ≠ .pending) {s : String} (hs : e.taskId = .str s) :
    entries.find? (·.named s) = some e := by
  have hrep := h.repeats
  clear h
  induction entries with
  | nil => simp at he
  | cons x rest ih =>
      obtain ⟨hx, hrest⟩ := List.pairwise_cons.mp hrep
      rcases List.mem_cons.mp he with rfl | h1
      · simp [TaskEntry.named, hs]
      · have hxs : x.named s = false := by
          by_contra hcon
          have hid : x.taskId = .str s := by simpa [TaskEntry.named] using hcon
          exact hne (hx e h1 (by rw [hs, hid]))
        rw [List.find?_cons, hxs]
        exact ih h1 hrest

/-- `resume` reads the completed ids right. -/
lemma FirstsOnly.mem_completedIds {L : Ledger} (h : FirstsOnly L.taskLedger) (t : String) :
    t ∈ completedIds L ↔ L.Done t := by
  simp only [completedIds, List.mem_map, List.mem_filter, decide_eq_true_eq]
  constructor
  · rintro ⟨e, ⟨he, hst⟩, rfl⟩
    have hne : e.status ≠ .pending := by simp [hst]
    obtain ⟨s, hs⟩ := h.named e he hne
    rw [hs, Val.pyStr_str]
    exact ⟨e, h.find? he hne hs, hst⟩
  · rintro ⟨e, he, hst⟩
    have hid : e.taskId = .str t := by simpa [TaskEntry.named] using List.find?_some he
    exact ⟨e, ⟨List.mem_of_find?_eq_some he, hst⟩, by rw [hid, Val.pyStr_str]⟩

/-! ### Invariants of histories -/

/-- The completed set of the loop is what the ledger says. -/
def Exact (completed : List String) (L : Ledger) : Prop := ∀ t, t ∈ completed ↔ L.Done t

/-- A turn keeps the completed set exact. -/
lemma Turn.exact {W : Type} {h : Host W} {cfg : RunConfig} {node : TaskNode} {taskId : String}
    {completed : List String} {L : Ledger} {r : Except PyErr Unit} {δ : Delta} {fx : List Effect}
    (hturn : Turn h cfg node taskId completed L r δ fx) (hex : Exact completed L)
    (hdone : ¬ L.Done taskId) :
    Exact (addDone (L.apply taskId δ) taskId completed) (L.apply taskId δ) := by
  intro t
  have hother : t ≠ taskId → ((L.apply taskId δ).Done t ↔ L.Done t) := by
    intro hne
    rw [Ledger.Done, L.task?_apply_of_ne δ hturn.entry_taskId hne, Ledger.Done]
  rw [addDone]
  by_cases ht : t = taskId
  · subst ht
    split
    · rename_i hd
      simp [hd]
    · rename_i hd
      rw [hex]
      exact ⟨fun h => absurd h hdone, fun h => absurd h hd⟩
  · rw [hother ht, ← hex]
    split
    · simp [ht]
    · rfl

/-- What an invariant of the ledger has to survive.  At a turn the completed set is exact. -/
structure HistoryInvariant (manifests : Manifest → Prop) (overrides : Ledger → String → Prop)
    (I : Ledger → Prop) : Prop where
  start : ∀ {manifest L}, manifests manifest → startLedger manifest = .ok L → I L
  turn : ∀ {W : Type} {h : Host W} {cfg : RunConfig} {manifest node taskId completed L r δ fx},
    manifests manifest → lastNode manifest.taskGraph taskId = some node →
    (L.task? taskId).isSome → ¬ L.Done taskId → Exact completed L →
    Turn h cfg node taskId completed L r δ fx → I L → I (L.apply taskId δ)
  state : ∀ {L} (state : RunState), I L → I (L.setRunState state)
  reconcile : ∀ {L}, I L → I (reconcile L)
  override : ∀ {L blockerId b}, L.blocker? blockerId = some b → overrides L blockerId → I L →
    I (L.override b)
  record : ∀ {L} (resolution : Resolution) (subject : Val), I L →
    I (L.recordResolution resolution subject)

section Rule

variable {manifests : Manifest → Prop} {overrides : Ledger → String → Prop} {I : Ledger → Prop}
  {W : Type} {h : Host W} {cfg : RunConfig}

/-- An invariant survives the loop. -/
lemma LoopRun.invariant (hI : HistoryInvariant manifests overrides I) {manifest : Manifest}
    (hm : manifests manifest) {order completed : List String} {L L' : Ledger}
    {r : Except PyErr RunState} {fx : List Effect}
    (hrun : LoopRun h cfg manifest.taskGraph order completed L r L' fx) (hex : Exact completed L)
    (hL : I L) : I L' := by
  induction hrun with
  | finished => exact hL
  | unknown _ => exact hL
  | skip hdone _ ih =>
      refine ih (fun t => ?_) hL
      rw [List.mem_cons, hex]
      exact ⟨fun h => h.elim (fun h => h ▸ hdone) id, Or.inr⟩
  | paused _ _ _ => exact hL
  | aborted _ _ _ => exact hL
  | noNode _ _ _ => exact hL
  | raised hsome hdone hnode hturn => exact hI.turn hm hnode hsome hdone hex hturn hL
  | turned hsome hdone hnode hturn _ ih =>
      exact ih (hturn.exact hex hdone) (hI.turn hm hnode hsome hdone hex hturn hL)

/-- An invariant survives `_drive`. -/
lemma DriveRun.invariant (hI : HistoryInvariant manifests overrides I) {manifest : Manifest}
    (hm : manifests manifest) {completed : List String} {L L' : Ledger} {state : Option RunState}
    {fx : List Effect} (hrun : DriveRun h cfg manifest completed L state L' fx)
    (hex : Exact completed L) (hL : I L) : I L' := by
  cases hrun with
  | noOrder _ => exact hL
  | raised _ hloop => exact hloop.invariant hI hm hex hL
  | ended _ hloop => exact hI.reconcile (hI.state _ (hloop.invariant hI hm hex hL))

/-- No task of a new ledger is completed. -/
lemma exact_start {manifest : Manifest} {L : Ledger} (hstart : startLedger manifest = .ok L) :
    Exact [] L := by
  intro t
  simp only [List.not_mem_nil, false_iff]
  rintro ⟨e, he, hst⟩
  have hp := (startLedger_entries hstart).1 e (List.mem_of_find?_eq_some he)
  rw [hst] at hp
  exact absurd hp (by simp)

lemma firstsOnly_history :
    HistoryInvariant manifests overrides (fun L => FirstsOnly L.taskLedger) where
  start := fun _ hstart => firstsOnly_pending (startLedger_entries hstart).1
  turn := fun _ _ _ _ _ hturn hL => hL.updateFirst _ hturn.entry_taskId
  state := fun _ hL => hL
  reconcile := fun hL => hL
  override := by
    intro L blockerId b _ _ hL
    refine hL.map (fun e => ?_) fun e => ?_
    · split <;> rfl
    · split
      · exact Or.inl rfl
      · exact Or.inr rfl
  record := fun _ _ hL => hL

/-- A turn renames no entry. -/
lemma Turn.taskIds {W : Type} {h : Host W} {cfg : RunConfig} {node : TaskNode} {taskId : String}
    {completed : List String} {L : Ledger} {r : Except PyErr Unit} {δ : Delta} {fx : List Effect}
    (hturn : Turn h cfg node taskId completed L r δ fx) :
    (L.apply taskId δ).taskLedger.map (·.taskId) = L.taskLedger.map (·.taskId) :=
  map_updateFirst _ _ _ hturn.entry_taskId _

omit [PyRuntime] in
/-- An override renames no entry. -/
lemma override_taskIds (L : Ledger) (b : Blocker) :
    (L.override b).taskLedger.map (·.taskId) = L.taskLedger.map (·.taskId) := by
  rw [Ledger.override, List.map_map]
  refine List.map_congr_left fun e _ => ?_
  simp only [Function.comp_apply]
  split <;> rfl

/-- A ledger keeps the scope of its manifest. -/
lemma scope_history (m : Manifest) :
    HistoryInvariant (· = m) overrides (fun L => L.isolationScope = m.isolationScope) where
  start := by
    rintro _ L rfl hstart
    obtain ⟨-, -, -, -, -, hscope, -⟩ := startLedger_empty hstart
    exact hscope
  turn := fun _ _ _ _ _ _ hL => hL
  state := fun _ hL => hL
  reconcile := fun hL => hL
  override := fun _ _ hL => hL
  record := fun _ _ hL => hL

/-- **The rule of histories**: an invariant holds of every ledger reached. -/
theorem Reached.invariant (hI : HistoryInvariant manifests overrides I) {L : Ledger}
    (hL : Reached manifests overrides L) : I L := by
  have hfirst : HistoryInvariant manifests overrides (fun L => FirstsOnly L.taskLedger) :=
    firstsOnly_history
  suffices h : FirstsOnly L.taskLedger ∧ I L from h.2
  induction hL with
  | run hm hrun =>
      obtain ⟨L₀, state, hstart, hdrive⟩ := run_spec _ _ hrun
      have hex := exact_start hstart
      exact ⟨hdrive.invariant hfirst hm hex
        (hfirst.start hm hstart), hdrive.invariant hI hm hex (hI.start hm hstart)⟩
  | @resume W h cfg manifest s hm _ ih =>
      obtain ⟨r, state, L', fx, w, hdrive, hexec, -⟩ := resume_spec h cfg manifest s
      have hex : Exact (completedIds s.ledger) (s.ledger.setRunState .running) :=
        ih.1.mem_completedIds
      rw [hexec]
      exact ⟨hdrive.invariant hfirst hm hex ih.1,
        hdrive.invariant hI hm hex (hI.state _ ih.2)⟩
  | resolve _ hover hres ih =>
      obtain ⟨resolution, subject, ⟨rfl, -⟩ | ⟨hd, b, hb, rfl⟩⟩ := resolveBlocker_cases hres
      · exact ⟨ih.1, hI.record _ _ ih.2⟩
      · exact ⟨hfirst.override hb (hover hd) ih.1,
          hI.record _ _ (hI.override hb (hover hd) ih.2)⟩

/-- A ledger is only made of an accepted manifest. -/
lemma startLedger_accepted {m : Manifest} {L : Ledger} (hstart : startLedger m = .ok L) :
    m.Accepted := by
  rw [startLedger] at hstart
  obtain ⟨fs, hfs, hrest⟩ := except_bind_eq_ok.mp hstart
  refine ⟨fs, hfs, fun hfail => ?_⟩
  rw [if_pos hfail] at hrest
  exact absurd hrest (by simp [throw, throwThe, MonadExceptOf.throw, bind, Except.bind])

/-- Every history starts from an accepted manifest. -/
lemma Reached.accepted {m : Manifest} {L : Ledger}
    (hL : Reached (· = m) (fun _ _ => True) L) : m.Accepted := by
  refine hL.invariant (I := fun _ => m.Accepted) ⟨?_, fun _ _ _ _ _ _ h => h, fun _ h => h,
    fun h => h, fun _ _ h => h, fun _ _ h => h⟩
  rintro m' L rfl hstart
  exact startLedger_accepted hstart

/-- Fewer manifests and overrides reach fewer ledgers. -/
lemma Reached.mono {manifests' : Manifest → Prop} {overrides' : Ledger → String → Prop}
    (hm : ∀ m, manifests m → manifests' m) (ho : ∀ L i, overrides L i → overrides' L i) {L : Ledger}
    (hL : Reached manifests overrides L) : Reached manifests' overrides' L := by
  induction hL with
  | run h1 h2 => exact .run (hm _ h1) h2
  | resume h1 _ ih => exact .resume (hm _ h1) ih
  | resolve _ h1 h2 ih => exact .resolve ih (fun hd => ho _ _ (h1 hd)) h2

end Rule

end IplanRunner
