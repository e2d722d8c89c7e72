import IplanRunner.Executor.Books
import IplanRunner.Foundation.LastWord
import IplanRunner.Runs.Edits
import IplanRunner.Runs.Reprojection
import IplanRunner.Runs.Script

/-!
What the log of a ledger says of the files of its workspace.

* `EventBody.fate`: what an event says of a place: a file has been written there, or undone.
* `Retells`: a log that tells what has become of the files of a workspace.
* `executeTask_files`, `turn_files`: what a task makes of the files.
* `log_retells_files`: over runs, resumes and decisions the log retells the files.
-/

namespace IplanRunner

open Foundation

/-! ### What events say -/

/-- What has become of a place. -/
inductive Fate where
  | written
  | undone
  deriving DecidableEq, Repr

/-- The file, or its absence, that goes with a fate. -/
def Fate.fits : Fate → Option String → Prop
  | .written, file => file.isSome
  | .undone, file => file = none

/-- A path that is a string leads to the place. -/
def pathLeads (lim : Limits) (root : Loc) (T : Tree) (l : Loc) : Val → Bool
  | .str path => placeOf lim root T path = some l
  | _ => false

/-- A touched path of the event leads to the place. -/
def EventBody.leadsTo (lim : Limits) (root : Loc) (T : Tree) (l : Loc) (e : EventBody) : Bool :=
  match e.touchedPaths with
  | .list paths => paths.any (pathLeads lim root T l)
  | _ => false

/-- What an event says of a place. -/
def EventBody.fate (lim : Limits) (root : Loc) (T : Tree) (l : Loc) (e : EventBody) :
    Option Fate :=
  if e.leadsTo lim root T l then
    match e.kind with
    | .fileEdited => some .written
    | .compensation => some .undone
    | _ => none
  else none

/-- The log tells what has become of the files under the root: one of which it says nothing is as
before, where the last word is that one was written there is a file, and where it is that one was
undone there is none. -/
structure Retells (lim : Limits) (root : Loc) (T : Tree) (log : List EventBody) (T' : Tree) :
    Prop where
  links : T.SameLinks T'
  files : Retold (fun (l : {l : Loc // root <+: l}) e => e.fate lim root T l.1) Fate.fits
    (fun l => T.fileAt l.1) log fun l => T'.fileAt l.1

section Says

variable {lim : Limits} {root : Loc} {T T' T'' : Tree} {l : Loc}

lemma fate_congr (h : T.SameLinks T') (e : EventBody) :
    e.fate lim root T' l = e.fate lim root T l := by
  have hpath : pathLeads lim root T' l = pathLeads lim root T l := by
    funext p
    cases p with
    | str path => rw [pathLeads, pathLeads, placeOf_congr h]
    | _ => rfl
  have hleads : e.leadsTo lim root T' l = e.leadsTo lim root T l := by
    rw [EventBody.leadsTo, EventBody.leadsTo, hpath]
  rw [EventBody.fate, EventBody.fate, hleads]

/-- **The log of two phases retells both.** -/
lemma Retells.append {first rest : List EventBody} (hfirst : Retells lim root T first T')
    (hrest : Retells lim root T' rest T'') : Retells lim root T (first ++ rest) T'' :=
  ⟨hfirst.links.trans hrest.links,
    hfirst.files.append (hrest.files.congr fun _ e => (fate_congr hfirst.links e).symm)⟩

/-- An event that says nothing of files. -/
def EventBody.Mute (e : EventBody) : Prop := e.kind ≠ .fileEdited ∧ e.kind ≠ .compensation

lemma EventBody.Mute.fate {e : EventBody} (h : e.Mute) : e.fate lim root T l = none := by
  rw [EventBody.fate]
  split_ifs
  · split
    · exact absurd ‹_› h.1
    · exact absurd ‹_› h.2
    · rfl
  · rfl

/-- Where nothing is said nothing has happened. -/
lemma Retells.mute {log : List EventBody} (hlog : ∀ e ∈ log, e.Mute) (hsame : T' = T) :
    Retells lim root T log T' := by
  subst hsame
  refine ⟨Tree.SameLinks.refl _, fun _ _ => rfl, fun k s hs => ?_⟩
  obtain ⟨e, he, hsaid⟩ := lastWord_mem hs
  rw [(hlog e he).fate] at hsaid
  cases hsaid

lemma leadsTo_loopEvent {scope : Dict} {kind : EventKind} {taskId atTime : String}
    {paths : List String} : (loopEvent scope kind taskId atTime paths).leadsTo lim root T l = true
      ↔ Leads lim root T paths l := by
  simp [EventBody.leadsTo, loopEvent, strList, Leads, pathLeads]

/-- The log says one thing, of the places of these paths. -/
structure Says (lim : Limits) (root : Loc) (T : Tree) (paths : List String) (f : Fate)
    (log : List EventBody) : Prop where
  named : ∀ l, Leads lim root T paths l → ∃ e ∈ log, e.fate lim root T l = some f
  only : ∀ l, ∀ e ∈ log, ∀ f', e.fate lim root T l = some f' → f' = f ∧ Leads lim root T paths l

/-- **A log that says one thing** retells what it says. -/
lemma Says.retells {paths : List String} {f : Fate} {log : List EventBody}
    (h : Says lim root T paths f log) (hlinks : T.SameLinks T')
    (hfits : ∀ l, root <+: l → Leads lim root T paths l → f.fits (T'.fileAt l))
    (hothers : ∀ l, ¬ Leads lim root T paths l → T'.fileAt l = T.fileAt l) :
    Retells lim root T log T' := by
  refine ⟨hlinks, fun k hnone => ?_, fun k s hs => ?_⟩
  · refine hothers k.1 fun hleads => ?_
    obtain ⟨e, he, hsaid⟩ := h.named k.1 hleads
    rw [lastWord_eq_none_iff.mp hnone e he] at hsaid
    cases hsaid
  · obtain ⟨e, he, hsaid⟩ := lastWord_mem hs
    obtain ⟨rfl, hleads⟩ := h.only k.1 e he s hsaid
    exact hfits k.1 k.2 hleads

/-- The events of a success say that its edits were written. -/
lemma says_success {scope : Dict} {taskId : String} {b : Begun} {n : ℕ}
    {edits : List (String × String)} {ev : Option (String × Dict)}
    {completedAt releasedAt : String} : Says lim root T (edits.map Prod.fst) .written
      (successDelta scope taskId b n edits ev completedAt releasedAt).events := by
  have hedit : ∀ (l : Loc) (e : String × String),
      (loopEvent scope .fileEdited taskId e.2 [e.1]).fate lim root T l
        = if placeOf lim root T e.1 = some l then some .written else none := by
    intro l e
    have hleads : (loopEvent scope .fileEdited taskId e.2 [e.1]).leadsTo lim root T l = true
        ↔ placeOf lim root T e.1 = some l := by
      rw [leadsTo_loopEvent]
      simp [Leads]
    rw [EventBody.fate]
    exact if_congr hleads rfl rfl
  have hmute : ∀ kind atTime, kind = .taskStarted ∨ kind = .taskCompleted →
      (loopEvent scope kind taskId atTime []).Mute := by
    rintro kind atTime (rfl | rfl) <;> simp [EventBody.Mute, loopEvent]
  constructor
  · rintro l ⟨p, hp, hplace⟩
    obtain ⟨e, he, rfl⟩ := List.mem_map.mp hp
    refine ⟨loopEvent scope .fileEdited taskId e.2 [e.1], ?_, by rw [hedit, if_pos hplace]⟩
    exact List.mem_append_left _ (List.mem_cons_of_mem _ (List.mem_map_of_mem he))
  · intro l e he f' hf
    simp only [successDelta, List.mem_append, List.mem_cons, List.not_mem_nil, or_false] at he
    obtain (rfl | he) | rfl := he
    · rw [(hmute _ _ (Or.inl rfl)).fate] at hf
      cases hf
    · obtain ⟨x, hx, rfl⟩ := List.mem_map.mp he
      rw [hedit] at hf
      split_ifs at hf with hplace
      cases hf
      exact ⟨rfl, x.1, List.mem_map_of_mem hx, hplace⟩
    · rw [(hmute _ _ (Or.inr rfl)).fate] at hf
      cases hf

/-- The events of a failure say that what was touched has been undone. -/
lemma says_failure {scope : Dict} {taskId : String} {b : Begun} {n : ℕ} {result : ExecutorResult}
    {compensatedAt blockerId blockedAt releasedAt : String} :
    Says lim root T result.touchedPaths .undone (failureDelta scope taskId b n result compensatedAt
      blockerId blockedAt releasedAt).events := by
  have hcomp : ∀ l, (loopEvent scope .compensation taskId compensatedAt
      result.touchedPaths).fate lim root T l
        = if (loopEvent scope .compensation taskId compensatedAt
            result.touchedPaths).leadsTo lim root T l then some .undone else none := fun _ => rfl
  constructor
  · rintro l hleads
    have hsome : result.touchedPaths ≠ [] := by
      obtain ⟨p, hp, -⟩ := hleads
      exact List.ne_nil_of_mem hp
    refine ⟨loopEvent scope .compensation taskId compensatedAt result.touchedPaths, ?_, ?_⟩
    · simp [failureDelta, compensationEvents, hsome]
    · rw [hcomp, if_pos (leadsTo_loopEvent.mpr hleads)]
  · intro l e he f' hf
    simp only [failureDelta, compensationEvents, List.mem_append, List.mem_cons, List.not_mem_nil,
      or_false] at he
    obtain (rfl | he) | rfl := he
    · rw [EventBody.Mute.fate (by simp [EventBody.Mute, loopEvent])] at hf
      cases hf
    · split_ifs at he
      · cases he
      · obtain rfl := List.mem_singleton.mp he
        rw [hcomp] at hf
        split_ifs at hf with hleads
        cases hf
        exact ⟨rfl, leadsTo_loopEvent.mp hleads⟩
    · rw [EventBody.Mute.fate (by simp [EventBody.Mute, loopEvent])] at hf
      cases hf

end Says

section Runtime

variable [PyRuntime] {X : Type}

/-! ### What the loop makes of the files -/

/-- The calls of the host that are not the executor's leave the files alone. -/
structure Host.LeavesFiles (h : Host (Tree × X)) : Prop where
  clock : ∀ w, (h.clock w).2.1 = w.1
  ids : ∀ kind w, (h.ids kind w).2.1 = w.1
  control : ∀ w, (h.control w).2.1 = w.1

/-- The files are the same. -/
def SameFiles (s s' : Session (Tree × X)) : Prop := s'.world.1 = s.world.1

section Task

variable {h : Host (Tree × X)} {cfg : RunConfig}

omit [PyRuntime]

lemma sameFiles_bind {α β : Type} {m : Loop (Tree × X) α} {f : α → Loop (Tree × X) β}
    (hm : Call.Moves SameFiles m) (hf : ∀ a, Call.Moves SameFiles (f a)) :
    Call.Moves SameFiles (m >>= f) :=
  Call.Moves.bind (fun h₁ h₂ => h₂.trans h₁) hm hf

lemma sameFiles_update (f : Ledger → Ledger) :
    Call.Moves SameFiles (Loop.update f : Loop (Tree × X) Unit) := fun _ => rfl

lemma sameFiles_clock (hh : h.LeavesFiles) : Call.Moves SameFiles (Loop.clock h) :=
  fun s => hh.clock s.world

lemma sameFiles_ids (hh : h.LeavesFiles) (kind : String) :
    Call.Moves SameFiles (Loop.ids h kind) := fun s => hh.ids kind s.world

end Task

section Task

variable {h : Host (Tree × X)} {cfg : RunConfig}

lemma logEdits_files (hh : h.LeavesFiles) (taskId : String) (paths : List String) :
    Call.Moves SameFiles (logEdits h taskId paths) := by
  induction paths with
  | nil => exact fun s => rfl
  | cons path rest ih =>
      exact sameFiles_bind (sameFiles_clock hh) fun atTime =>
        sameFiles_bind (sameFiles_update _) fun _ => ih

omit [PyRuntime] in
lemma recordEvidence_files (hh : h.LeavesFiles) (taskId : String) (evidence : Option Dict) :
    Call.Moves SameFiles (recordEvidence h taskId evidence) := by
  cases evidence with
  | none => exact fun s => rfl
  | some evidence =>
      exact sameFiles_bind (sameFiles_ids hh _) fun evidenceId =>
        sameFiles_bind (sameFiles_update _) fun _ => sameFiles_update _

/-- The records of a success leave the files alone. -/
lemma settleSuccess_files (hh : h.LeavesFiles) (taskId : String) (result : ExecutorResult) :
    Call.Moves SameFiles (settleSuccess h taskId result) :=
  sameFiles_bind (logEdits_files hh _ _) fun _ =>
    sameFiles_bind (recordEvidence_files hh _ _) fun _ =>
    sameFiles_bind (sameFiles_clock hh) fun _ => sameFiles_bind (sameFiles_update _) fun _ =>
    sameFiles_bind (sameFiles_update _) fun _ => sameFiles_bind (sameFiles_update _) fun _ =>
    sameFiles_update _

lemma escalate_files (hh : h.LeavesFiles) (taskId reason atTime : String) :
    Call.Moves SameFiles (escalate h taskId reason atTime) :=
  sameFiles_bind (sameFiles_ids hh _) fun _ => sameFiles_update _

lemma beginTask_files (hh : h.LeavesFiles) (taskId atTime : String) :
    Call.Moves SameFiles (beginTask h taskId atTime) :=
  sameFiles_bind (sameFiles_ids hh _) fun _ => sameFiles_bind (sameFiles_update _) fun _ =>
    sameFiles_bind (sameFiles_ids hh _) fun _ => sameFiles_bind (sameFiles_update _) fun _ =>
    sameFiles_bind (sameFiles_clock hh) fun _ => sameFiles_bind (sameFiles_update _) fun _ =>
    sameFiles_bind (sameFiles_update _) fun _ => sameFiles_update _

/-- What a failure makes of the files is what its compensation does. -/
lemma settleFailure_files (hh : h.LeavesFiles) (taskId : String) (result : ExecutorResult)
    (s : Session (Tree × X)) : (settleFailure h taskId result s).2.world.1
      = if result.touchedPaths = [] then s.world.1
        else (h.compensate result.touchedPaths s.world).2.1 := by
  have htail : Call.Moves SameFiles (do
      let blockedAt ← Loop.clock h
      escalate h taskId (failureReason result) blockedAt) :=
    sameFiles_bind (sameFiles_clock hh) fun _ => escalate_files hh _ _ _
  have hlog : Call.Moves SameFiles (do
      let atTime ← Loop.clock h
      Loop.update (·.logEvent .compensation taskId atTime result.touchedPaths)
      Loop.update (·.setTxn ({ · with status := .compensated }))
      let blockedAt ← Loop.clock h
      escalate h taskId (failureReason result) blockedAt) :=
    sameFiles_bind (sameFiles_clock hh) fun _ => sameFiles_bind (sameFiles_update _) fun _ =>
      sameFiles_bind (sameFiles_update _) fun _ => htail
  rw [settleFailure]
  by_cases hnone : result.touchedPaths = []
  · rw [if_neg (not_not.mpr hnone), if_pos hnone]
    exact htail s
  · rw [if_pos hnone, if_neg hnone]
    have hcall : (Loop.compensate h result.touchedPaths s).2.world
        = (h.compensate result.touchedPaths s.world).2 := rfl
    rw [← hcall]
    rcases hc : Loop.compensate h result.touchedPaths s with ⟨e | u, s₁⟩
    · rw [Call.bind_error hc]
    · rw [Call.bind_ok hc]
      exact hlog s₁

/-- **What a task makes of the files**, from the call of the executor on: what the call does, and
the compensation when the result is a failure that has touched anything. -/
lemma executeTask_files {x : Executor (Tree × X)} (hh : h.LeavesFiles) (hx : x.Lists)
    {node : TaskNode} {taskId : String} {s s' : Session (Tree × X)}
    (hexec : executeTask (h.driving x) cfg node taskId s = (.ok (), s')) :
    ∃ result w, x.execute node s.ledger.isolationScope s.world = (.ok result, w)
      ∧ s'.world.1 = if result.outcome = .success ∨ result.touchedPaths = [] then w.1
        else (x.compensate result.touchedPaths w).2.1 := by
  have hd : (h.driving x).LeavesFiles := ⟨hh.clock, hh.ids, hh.control⟩
  obtain ⟨last, n, fx, hlast, -, -, hretry⟩ := executeWithRetry_last (h.driving x) cfg node
    s.ledger.isolationScope cfg.maxRetries 1 s
  rw [attemptsFrom_final hx] at hlast
  obtain rfl : s.world = last := Option.some.inj hlast
  rw [executeTask, Loop.bind_ledger] at hexec
  rcases hone : x.execute node s.ledger.isolationScope s.world with ⟨e | result, w⟩
  · have hdone : (h.driving x).execute node s.ledger.isolationScope s.world = (.error e, w) := hone
    rw [hdone] at hretry
    rw [Call.bind_error hretry] at hexec
    cases hexec
  have hdone : (h.driving x).execute node s.ledger.isolationScope s.world = (.ok result, w) := hone
  rw [hdone] at hretry
  rw [Call.bind_ok hretry] at hexec
  refine ⟨result, w, rfl, ?_⟩
  have hrelease : Call.Moves SameFiles (do
      let releasedAt ← Loop.clock (h.driving x)
      Loop.update (·.setLease ({ · with releasedAt := .str releasedAt }))) :=
    sameFiles_bind (sameFiles_clock hd) fun _ => sameFiles_update _
  simp only [Loop.bind_update] at hexec
  by_cases ho : result.outcome = .success
  · rw [if_pos ho] at hexec
    obtain ⟨_, s₁, hsettle, hend⟩ := Call.bind_eq_ok.mp hexec
    have hfirst := settleSuccess_files hd taskId result
      { s with
        ledger := s.ledger.setTxn ({ · with attempts := some n })
        world := w
        effects := s.effects ++ fx }
    have hlast := hrelease s₁
    rw [hend] at hlast
    rw [hsettle] at hfirst
    rw [if_pos (Or.inl ho)]
    exact hlast.trans hfirst
  · rw [if_neg ho] at hexec
    obtain ⟨_, s₁, hsettle, hend⟩ := Call.bind_eq_ok.mp hexec
    have hfirst := settleFailure_files hd taskId result
      { s with
        ledger := s.ledger.setTxn ({ · with attempts := some n })
        world := w
        effects := s.effects ++ fx }
    have hlast := hrelease s₁
    rw [hend] at hlast
    rw [hsettle] at hfirst
    have hboth := Eq.trans hlast hfirst
    rw [hboth]
    refine if_congr ?_ rfl rfl
    simp [ho]

variable {lim : Limits} {cwd root : Loc} {workspace : String} {x : Executor (Tree × X)}

omit [PyRuntime] in
/-- The events of a failure retell the compensation of what has been written. -/
lemma retells_failure {scope : Dict} {taskId : String} {b : Begun} {n : ℕ}
    {result : ExecutorResult} {compensatedAt blockerId blockedAt releasedAt : String}
    (hb : KeepsBooks lim cwd workspace x) {T : Tree} {w : Tree × X}
    (hroot : resolveWorkspace lim cwd workspace T = .ok root)
    (hfiled : Filed lim root T result.touchedPaths w.1) :
    Retells lim root T (failureDelta scope taskId b n result compensatedAt blockerId blockedAt
      releasedAt).events (if result.touchedPaths = [] then w.1
        else (x.compensate result.touchedPaths w).2.1) := by
  have hkept : ∀ l, ¬ Leads lim root T result.touchedPaths l → w.1.fileAt l = T.fileAt l :=
    fun l hl => hfiled.others l fun p hp hplace => hl ⟨p, hp, hplace⟩
  by_cases hnone : result.touchedPaths = []
  · rw [if_pos hnone]
    refine says_failure.retells hfiled.links (fun l _ hl => ?_) hkept
    obtain ⟨p, hp, -⟩ := hl
    exact absurd hp (by simp [hnone])
  · rw [if_neg hnone, hb.undoes]
    obtain ⟨hlinks, hgone, hothers⟩ := undoWrites_spec hfiled.toTraced hroot
    refine says_failure.retells (hfiled.links.trans hlinks) (fun l hin hl => hgone l hin hl)
      fun l hl => ?_
    rw [hothers l hl, hkept l hl]

/-- **The events of a task retell what it has made of the files.** -/
lemma executeTask_retells (hb : KeepsBooks lim cwd workspace x) (hh : h.LeavesFiles)
    {node : TaskNode} {L : Ledger} {b : Begun} {s s' : Session (Tree × X)}
    (hs : s.ledger = L.apply node.taskId.pyStr
      (crashDelta L.isolationScope node.taskId.pyStr b none))
    (hroot : resolveWorkspace lim cwd workspace s.world.1 = .ok root)
    (hexec : executeTask (h.driving x) cfg node node.taskId.pyStr s = (.ok (), s')) :
    ∃ events, s'.ledger.bodies = L.bodies ++ events
      ∧ Retells lim root s.world.1 events s'.world.1 := by
  obtain ⟨result, w, hcall, hfiles⟩ := executeTask_files hh hb.lists hexec
  have hfiled := hb.files hroot hcall
  have hscope : s.ledger.isolationScope = L.isolationScope := by rw [hs]; rfl
  rw [hscope] at hcall
  obtain ⟨last, r, δ, fx, gx, w', hlast, -, -, hcourse, hexec'⟩ :=
    executeTask_course (h.driving x) cfg node L b s hs
  rw [attemptsFrom_final hb.lists] at hlast
  obtain rfl : s.world = last := Option.some.inj hlast
  rw [hexec'] at hexec
  obtain ⟨rfl, rfl⟩ := Prod.mk.inj hexec
  refine ⟨δ.events, bodies_apply _ _ _, ?_⟩
  rw [hfiles]
  have hsame : ∀ {result' w''}, (h.driving x).execute node L.isolationScope s.world
      = (.ok result', w'') → result' = result := by
    intro result' w'' hcall'
    exact Except.ok.inj (congrArg Prod.fst (hcall'.symm.trans hcall))
  cases hcourse with
  | completed hcall' ho hedits _ =>
      obtain rfl := hsame hcall'
      rw [if_pos (Or.inl ho)]
      refine says_success.retells hfiled.links (fun l _ hl => ?_) fun l hl => ?_
      · obtain ⟨p, hp, hplace⟩ := hl
        exact hfiled.filled p (hedits ▸ hp) l hplace
      · exact hfiled.others l fun p hp hplace => hl ⟨p, hedits ▸ hp, hplace⟩
  | untouched hcall' ho _ =>
      obtain rfl := hsame hcall'
      simpa [ho] using retells_failure hb hroot hfiled
  | compensated hcall' ho _ _ =>
      obtain rfl := hsame hcall'
      simpa [ho] using retells_failure hb hroot hfiled

/-- The events of a session, added to the log since an earlier one, retell the files. -/
def Session.Retells (lim : Limits) (root : Loc) (s s' : Session (Tree × X)) : Prop :=
  ∃ events, s'.ledger.bodies = s.ledger.bodies ++ events
    ∧ IplanRunner.Retells lim root s.world.1 events s'.world.1

omit [PyRuntime] in
lemma mute_block (scope : Dict) (taskId reason blockerId atTime : String) (status : TaskStatus) :
    ∀ e ∈ (blockDelta scope taskId reason blockerId atTime status).events, e.Mute := by
  simp [blockDelta, EventBody.Mute, loopEvent]

/-- A task that is run. -/
lemma runTask_retells (hb : KeepsBooks lim cwd workspace x) (hh : h.LeavesFiles) {node : TaskNode}
    {s s' : Session (Tree × X)}
    (hroot : resolveWorkspace lim cwd workspace s.world.1 = .ok root)
    (hexec : runTask (h.driving x) cfg node s = (.ok (), s')) : s.Retells lim root s' := by
  have hd : (h.driving x).LeavesFiles := ⟨hh.clock, hh.ids, hh.control⟩
  by_cases hc : alreadyCommitted s.ledger (executeKey node.taskId.pyStr) = true
  · obtain rfl : s = s' := by simpa [runTask, hc] using hexec
    exact ⟨[], (List.append_nil _).symm, .mute (by simp) rfl⟩
  have hc' : alreadyCommitted s.ledger (executeKey node.taskId.pyStr) = false := by simpa using hc
  by_cases hl : canAcquire s.ledger.agentLeases node.taskId.pyStr
      ((h.driving x).clock s.world).1 = true
  · obtain ⟨b, w, -, hbegin⟩ := beginTask_spec (h.driving x) node.taskId.pyStr
      ((h.driving x).clock s.world).1 { s with world := ((h.driving x).clock s.world).2 }
    have hfiles := beginTask_files hd node.taskId.pyStr ((h.driving x).clock s.world).1
      { s with world := ((h.driving x).clock s.world).2 }
    rw [hbegin] at hfiles
    have hworld : w.1 = s.world.1 := hfiles.trans (hd.clock s.world)
    have hrest : executeTask (h.driving x) cfg node node.taskId.pyStr
        ⟨s.ledger.apply node.taskId.pyStr
          (crashDelta s.ledger.isolationScope node.taskId.pyStr b none), w, s.effects⟩
        = (.ok (), s') := by
      rw [← hexec]
      simp [runTask, hc', hl, Call.bind_ok hbegin]
    obtain ⟨events, hbodies, hretells⟩ :=
      executeTask_retells hb hh rfl (by rwa [hworld]) hrest
    rw [hworld] at hretells
    exact ⟨events, hbodies, hretells⟩
  · have hl' : canAcquire s.ledger.agentLeases node.taskId.pyStr
        ((h.driving x).clock s.world).1 = false := by simpa using hl
    have hblock := escalate_apply (h.driving x) node.taskId.pyStr "lease conflict"
      ((h.driving x).clock s.world).1 { s with world := ((h.driving x).clock s.world).2 }
    have hfiles := escalate_files hd node.taskId.pyStr "lease conflict"
      ((h.driving x).clock s.world).1 { s with world := ((h.driving x).clock s.world).2 }
    have hexec' : runTask (h.driving x) cfg node s
        = escalate (h.driving x) node.taskId.pyStr "lease conflict"
          ((h.driving x).clock s.world).1
          { s with world := ((h.driving x).clock s.world).2 } := by
      rw [hblock]
      simp [runTask, hc', hl', Call.bind_ok hblock]
    rw [hexec'] at hexec
    rw [hexec] at hfiles hblock
    obtain rfl := (Prod.mk.inj hblock).2
    exact ⟨_, bodies_apply _ _ _, .mute (mute_block _ _ _ _ _ _) (hfiles.trans (hd.clock s.world))⟩

/-- **A turn that returns logs what it has made of the files.** -/
lemma turn_retells (hb : KeepsBooks lim cwd workspace x) (hh : h.LeavesFiles) {node : TaskNode}
    {completed completed' : List String} {s s' : Session (Tree × X)}
    (hknown : (s.ledger.task? node.taskId.pyStr).isSome)
    (hroot : resolveWorkspace lim cwd workspace s.world.1 = .ok root)
    (hexec : turn (h.driving x) cfg node node.taskId.pyStr completed s = (.ok completed', s')) :
    s.Retells lim root s' := by
  have hd : (h.driving x).LeavesFiles := ⟨hh.clock, hh.ids, hh.control⟩
  by_cases hmet : DepsMet node completed
  · have hif : (node.dependsOn.all fun d => decide (d.pyStr ∈ completed)) = true := by
      simpa [DepsMet] using hmet
    rw [turn, if_pos hif] at hexec
    obtain ⟨_, s₁, hrun, hrest⟩ := Call.bind_eq_ok.mp hexec
    obtain ⟨status, s₂, hstatus, hend⟩ := Call.bind_eq_ok.mp hrest
    have hread : ∀ u : Session (Tree × X), (taskStatus node.taskId.pyStr u).2 = u := by
      intro u
      rw [taskStatus, Loop.bind_ledger]
      cases u.ledger.task? node.taskId.pyStr <;> rfl
    have hsame : s₂ = s₁ := by
      rw [← hread s₁, hstatus]
    have hlast : s' = s₂ := by
      split at hend <;> exact (Prod.mk.inj hend).2.symm
    rw [hlast, hsame]
    exact runTask_retells hb hh hroot hrun
  · obtain ⟨blockerId, atTime, w, hblock⟩ := turn_of_unmet (h.driving x) cfg hmet hknown
    have hif : ¬ (node.dependsOn.all fun d => decide (d.pyStr ∈ completed)) = true := by
      simpa [DepsMet] using hmet
    have hfiles : SameFiles s s' := by
      have hmoves : Call.Moves SameFiles
          (turn (h.driving x) cfg node node.taskId.pyStr completed) := by
        rw [turn, if_neg hif]
        exact sameFiles_bind (sameFiles_bind (sameFiles_ids hd _) fun _ =>
          sameFiles_bind (sameFiles_clock hd) fun _ => sameFiles_update _) fun _ s => rfl
      have hone := hmoves s
      rwa [hexec] at hone
    rw [hexec] at hblock
    obtain rfl := (Prod.mk.inj hblock).2
    exact ⟨_, bodies_apply _ _ _, .mute (mute_block _ _ _ _ _ _) hfiles⟩

omit [PyRuntime] in
/-- What is logged first is retold first. -/
lemma Session.Retells.trans {s s₁ s' : Session (Tree × X)} (hfirst : s.Retells lim root s₁)
    (hrest : s₁.Retells lim root s') : s.Retells lim root s' := by
  obtain ⟨first, hbodies, hone⟩ := hfirst
  obtain ⟨rest, hbodies', htwo⟩ := hrest
  exact ⟨first ++ rest, by rw [hbodies', hbodies, List.append_assoc], hone.append htwo⟩

omit [PyRuntime] in
lemma Session.Retells.resolves {s s' : Session (Tree × X)} (h : s.Retells lim root s')
    (hroot : resolveWorkspace lim cwd workspace s.world.1 = .ok root) :
    resolveWorkspace lim cwd workspace s'.world.1 = .ok root := by
  obtain ⟨events, -, hone⟩ := h
  rw [resolveWorkspace_congr hone.links, hroot]

omit [PyRuntime] in
/-- Nothing is logged, and the files are as before. -/
lemma Session.retells_still {s s' : Session (Tree × X)} (hledger : s'.ledger.bodies
    = s.ledger.bodies) (hfiles : SameFiles s s') : s.Retells lim root s' :=
  ⟨[], by rw [hledger, List.append_nil], .mute (by simp) hfiles⟩

/-- **A loop that ends has logged what it has made of the files.** -/
lemma driveLoop_retells (hb : KeepsBooks lim cwd workspace x) (hh : h.LeavesFiles)
    {graph : List TaskNode} {order completed : List String} {state : RunState}
    {s s' : Session (Tree × X)}
    (hroot : resolveWorkspace lim cwd workspace s.world.1 = .ok root)
    (hexec : driveLoop (h.driving x) cfg graph order completed s = (.ok state, s')) :
    s.Retells lim root s' := by
  have hd : (h.driving x).LeavesFiles := ⟨hh.clock, hh.ids, hh.control⟩
  induction order generalizing completed s with
  | nil =>
      rw [driveLoop] at hexec
      obtain rfl := (Prod.mk.inj hexec).2
      exact Session.retells_still rfl rfl
  | cons taskId rest ih =>
      by_cases hdone : s.ledger.Done taskId
      · rw [driveLoop_done hdone] at hexec
        exact ih hroot hexec
      cases he : s.ledger.task? taskId with
      | none =>
          rw [driveLoop_unknown he] at hexec
          cases hexec
      | some entry =>
          have hsome : (s.ledger.task? taskId).isSome := by rw [he]; rfl
          have hcontrol : s.Retells lim root
              { s with world := ((h.driving x).control s.world).2 } :=
            Session.retells_still rfl (hd.control s.world)
          cases hanswer : ((h.driving x).control s.world).1 with
          | aborted =>
              rw [driveLoop_aborted hsome hdone hanswer] at hexec
              obtain rfl := (Prod.mk.inj hexec).2
              exact hcontrol
          | paused =>
              rw [driveLoop_paused hsome hdone hanswer] at hexec
              obtain rfl := (Prod.mk.inj hexec).2
              exact hcontrol
          | running =>
              cases hnode : lastNode graph taskId with
              | none =>
                  rw [driveLoop_noNode hsome hdone hanswer hnode] at hexec
                  cases hexec
              | some node =>
                  obtain rfl := lastNode_pyStr hnode
                  rw [driveLoop_turn hsome hdone hanswer hnode] at hexec
                  obtain ⟨completed₁, s₁, hturn, hrest⟩ := Call.bind_eq_ok.mp hexec
                  have hroot' := hcontrol.resolves hroot
                  have hone := turn_retells hb hh (s := { s with
                    world := ((h.driving x).control s.world).2 }) hsome hroot' hturn
                  exact hcontrol.trans (hone.trans (ih (hone.resolves hroot') hrest))

/-- **So has `_drive`**, when it returns. -/
lemma drive_retells (hb : KeepsBooks lim cwd workspace x) (hh : h.LeavesFiles) {m : Manifest}
    {completed : List String} {res : RunResult} {s s' : Session (Tree × X)}
    (hroot : resolveWorkspace lim cwd workspace s.world.1 = .ok root)
    (hexec : drive (h.driving x) cfg m completed s = (.ok res, s')) :
    res.ledger = s'.ledger ∧ s.Retells lim root s' := by
  obtain ⟨r, state, L', fx, w, -, hspec, hres⟩ := drive_spec (h.driving x) cfg m completed s
  rw [hexec] at hspec
  obtain ⟨rfl, hs'⟩ := Prod.mk.inj hspec
  refine ⟨by rw [(hres res rfl).1, hs'], ?_⟩
  have hend := drive_snd (h.driving x) cfg m completed s
  rw [hexec, driveSession] at hend
  rw [drive] at hexec
  obtain ⟨order, s₁, horder, hexec⟩ := Call.bind_eq_ok.mp hexec
  rw [Call.ofExcept_apply, Prod.mk.injEq] at horder
  obtain ⟨horder, rfl⟩ := horder
  obtain ⟨state, s₂, hloop, -⟩ := Call.bind_eq_ok.mp hexec
  rw [horder] at hend
  dsimp only at hend
  rw [hloop] at hend
  rw [hend]
  exact (driveLoop_retells hb hh hroot hloop).trans (Session.retells_still rfl rfl)

end Task

/-! ### Histories -/

/-- The loop is driven by `ScriptedExecutor`, on a script of writes and quiet checks, and its other
calls leave the files alone. -/
def DrivenByScript (lim : Limits) (cwd : Loc) (workspace : String) (h : Host (Tree × X)) : Prop :=
  ∃ (h₀ : Host (Tree × X)) (command : Val → Call PyErr (Tree × X) CommandOutcome) (script : Val)
    (secrets : List String), h₀.LeavesFiles ∧ WritingScript command script
      ∧ h = h₀.driving
        (scriptedExecutor (workspaceEffectors lim cwd workspace command) secrets script)

/-- A ledger and the files of its workspace: of a run on the files `T₀`, of resumes, decisions,
landings and signatures, the run and the resumes driven by scripts and returning.  Nothing else
changes the files. -/
inductive FilesHistory (lim : Limits) (cwd : Loc) (workspace : String) (T₀ : Tree) :
    Ledger → Tree → Prop
  | run {X : Type} {h : Host (Tree × X)} {cfg : RunConfig} {m : Manifest} {y y' : X} {T : Tree}
      {res : RunResult} {fx : List Effect} : DrivenByScript lim cwd workspace h →
      run h cfg m (T₀, y) = (.ok res, (T, y'), fx) →
      FilesHistory lim cwd workspace T₀ res.ledger T
  | resume {X : Type} {h : Host (Tree × X)} {cfg : RunConfig} {m : Manifest} {y : X} {L : Ledger}
      {T : Tree} {res : RunResult} {s : Session (Tree × X)} :
      FilesHistory lim cwd workspace T₀ L T → DrivenByScript lim cwd workspace h →
      resume h cfg m ⟨L, (T, y), []⟩ = (.ok res, s) →
      FilesHistory lim cwd workspace T₀ res.ledger s.world.1
  | resolve {L L' : Ledger} {T : Tree} {blockerId decision atTime : String} {actor : Actor} :
      FilesHistory lim cwd workspace T₀ L T →
      resolveBlocker L blockerId decision actor atTime = .ok L' →
      FilesHistory lim cwd workspace T₀ L' T
  | land {W : Type} {h : Host W} {repo : Repo W} {branch message : String} {gate : Option Gate}
      {w : W} {L : Ledger} {T : Tree} : FilesHistory lim cwd workspace T₀ L T →
      FilesHistory lim cwd workspace T₀ (land h repo branch message gate ⟨L, w, []⟩).2.ledger T
  | sign {L : Ledger} {T : Tree} {key : String} : FilesHistory lim cwd workspace T₀ L T →
      FilesHistory lim cwd workspace T₀ (L.sign key).2 T

section History

variable {lim : Limits} {cwd root : Loc} {workspace : String} {T₀ : Tree}

omit [PyRuntime] in
/-- An event that is added to a log, and says nothing of files. -/
lemma Retells.log {log : List EventBody} {T : Tree} (h : Retells lim root T₀ log T) {e : EventBody}
    (he : e.Mute) : Retells lim root T₀ (log ++ [e]) T :=
  h.append (.mute (by simpa using he) rfl)

/-- **The log retells the files** over every history. -/
lemma FilesHistory.retells (hlim : lim.links ≤ lim.depth)
    (hroot : resolveWorkspace lim cwd workspace T₀ = .ok root) {L : Ledger} {T : Tree}
    (hL : FilesHistory lim cwd workspace T₀ L T) : Retells lim root T₀ L.bodies T := by
  induction hL with
  | @run X h cfg m y y' T res fx hdriven hrun =>
      obtain ⟨h₀, command, script, secrets, hh, hscript, rfl⟩ := hdriven
      rw [IplanRunner.run] at hrun
      split at hrun
      · cases hrun
      rename_i L hstart
      rcases hexec : drive (h₀.driving (scriptedExecutor (workspaceEffectors lim cwd workspace
        command) secrets script)) cfg m [] ⟨L, (T₀, y), []⟩ with ⟨r, s'⟩
      rw [hexec] at hrun
      obtain ⟨rfl, hworld⟩ := Prod.mk.inj hrun
      obtain ⟨hledger, events, hbodies, hretells⟩ := drive_retells
        (scriptedExecutor_keepsBooks hlim hscript secrets) hh hroot hexec
      have hnew : L.bodies = [] := by
        rw [Ledger.bodies, (startLedger_new hstart).log]
        rfl
      rw [hledger, hbodies, hnew, List.nil_append]
      rw [(Prod.mk.inj hworld).1] at hretells
      exact hretells
  | @resume X h cfg m y L T res s _ hdriven hresume ih =>
      obtain ⟨h₀, command, script, secrets, hh, hscript, rfl⟩ := hdriven
      have hexec : drive (h₀.driving (scriptedExecutor (workspaceEffectors lim cwd workspace
        command) secrets script)) cfg m (completedIds L)
          ⟨L.setRunState .running, (T, y), []⟩ = (.ok res, s) := hresume
      have hroot' : resolveWorkspace lim cwd workspace T = .ok root := by
        rw [resolveWorkspace_congr ih.links, hroot]
      obtain ⟨hledger, events, hbodies, hretells⟩ := drive_retells
        (scriptedExecutor_keepsBooks hlim hscript secrets) hh hroot' hexec
      rw [hledger, hbodies]
      exact ih.append hretells
  | resolve _ hres ih =>
      obtain ⟨resolution, subject, ⟨rfl, -⟩ | ⟨-, b, -, rfl⟩⟩ := resolveBlocker_cases hres
      · rw [bodies_recordResolution]
        exact ih.log (by simp [EventBody.Mute, resolutionEvent])
      · rw [bodies_recordResolution]
        exact ih.log (by simp [EventBody.Mute, resolutionEvent])
  | @land W h repo branch message gate w L T _ ih =>
      rcases land_ledger h repo branch message gate ⟨L, w, []⟩ with hkeep | ⟨commit, -, hcommit⟩
      · rwa [hkeep]
      · rw [hcommit, Ledger.bodies, Ledger.recordCommit_executionLog, appendEvent_map_body]
        exact ih.log (by simp [EventBody.Mute, landingEvent])
  | sign _ ih => rwa [bodies_sign]

/-! ### What a landing names -/

end History

end Runtime

section Example

attribute [local instance] cpython

end Example

end IplanRunner
