import IplanRunner.Effectors.Undo
import IplanRunner.Executor.Workspace
import IplanRunner.Foundation.Runtime

/-!
The compensation of a task that failed (`executor/scripted.py`), over trees with links.

* `WritesOnly`, `QuietChecks`: the actions of the task are writes, its checks change no file.
* `Traced.performActions`: what the actions have changed is at the places of the paths they list.
* `Compensates`: the executor returns a failure, and the run loop compensates what it lists.
* `compensated_iff`: the files are as before exactly when no write has led to one of them.
-/

namespace IplanRunner

open Foundation

section Runtime

variable [PyRuntime] {X : Type} {lim : Limits} {cwd root : Loc} {workspace : String}
  {command : Val → Call PyErr (Tree × X) CommandOutcome}

/-! ### A write that is denied -/

omit [PyRuntime] in
lemma makeAndWrite_not_denied {path content message : String} {target : Path} {T T' : Tree} :
    makeAndWrite lim path content target T ≠ (.error (.denied message), T') := by
  intro h
  rw [makeAndWrite] at h
  split at h
  · cases h
  · split at h
    · cases h
    · split at h
      · cases h
      · split at h <;> cases h

omit [PyRuntime] in
/-- A denied write makes nothing. -/
lemma applyWriteDoc_denied {path content : Val} {roots : List Val} {T T' : Tree} {message : String}
    (h : applyWriteDoc lim cwd workspace path content roots T
      = (.error (.permissionError message), T')) : T' = T := by
  have hmade : ∀ path target, makeAndWriteDoc lim path content target T
      ≠ (.error (.permissionError message), T') := by
    intro path target hdoc
    cases content with
    | str text =>
        rw [makeAndWriteDoc] at hdoc
        rcases hmk : makeAndWrite lim path text target T with ⟨e | p, T₁⟩
        · rw [hmk] at hdoc
          cases e with
          | denied m => exact makeAndWrite_not_denied hmk
          | _ => cases hdoc
        · rw [hmk] at hdoc
          cases hdoc
    | _ =>
        rw [makeAndWriteDoc] at hdoc
        · split at hdoc
          · cases hdoc
          · split at hdoc <;> cases hdoc
        · simp
  cases path with
  | str path =>
      rw [applyWriteDoc] at h
      split at h
      · exact (congrArg Prod.snd h).symm
      · dsimp only at h
        split at h
        · exact (congrArg Prod.snd h).symm
        · split at h
          · exact (congrArg Prod.snd h).symm
          · exact absurd h (hmade _ _)
  | _ => cases h

/-- The actions are writes. -/
def WritesOnly (actions : List Val) : Prop :=
  ∀ action ∈ actions, action.item "type" = .ok (.str "write")

/-- A write action writes, or is denied and leaves the workspace as it is. -/
lemma attemptAction_write {action : Val} {roots : List Val} {w w' : Tree × X} {q : Performed}
    (hkind : action.item "type" = .ok (.str "write"))
    (h : attemptAction (workspaceEffectors lim cwd workspace command) roots action w
      = (.ok q, w')) :
    (∃ p, q = .wrote p) ∨ (∃ reason, q = .failed reason) ∧ w'.1 = w.1 := by
  rw [attemptAction, performAction, hkind, Call.bind_ok (Call.ofExcept_apply _ _),
    if_pos (Val.pyEq_refl _)] at h
  rcases hpath : action.item "path" with e | path
  · rw [hpath, Call.bind_error (Call.ofExcept_apply _ _)] at h
    cases e with
    | permissionError message =>
        cases h
        exact Or.inr ⟨⟨message, rfl⟩, rfl⟩
    | _ => cases h
  rw [hpath, Call.bind_ok (Call.ofExcept_apply _ _)] at h
  rcases hcontent : action.get "content" (.str "") with e | content
  · rw [hcontent, Call.bind_error (Call.ofExcept_apply _ _)] at h
    cases e with
    | permissionError message =>
        cases h
        exact Or.inr ⟨⟨message, rfl⟩, rfl⟩
    | _ => cases h
  rw [hcontent, Call.bind_ok (Call.ofExcept_apply _ _)] at h
  rcases hwrite :
      (workspaceEffectors lim cwd workspace command).applyWrite path content roots w with
    ⟨e | p, w₁⟩
  · rw [Call.bind_error hwrite] at h
    cases e with
    | permissionError message =>
        cases h
        have hdoc : applyWriteDoc lim cwd workspace path content roots w.1
            = (.error (.permissionError message), w'.1) :=
          congrArg (fun r => (r.1, r.2.1)) hwrite
        exact Or.inr ⟨⟨message, rfl⟩, applyWriteDoc_denied hdoc⟩
    | _ => cases h
  · rw [Call.bind_ok hwrite] at h
    cases h
    exact Or.inl ⟨p, rfl⟩

/-- **What the actions have changed is at the places of the paths they list.** -/
theorem Traced.performActions (hlim : lim.links ≤ lim.depth) {T₀ : Tree} {roots actions : List Val}
    (hroot : resolveWorkspace lim cwd workspace T₀ = .ok root) (hwrites : WritesOnly actions)
    {touched touched' : List String} {failure : Option String} {w w' : Tree × X}
    (h : Traced lim root T₀ touched w.1)
    (hrun : performActions (workspaceEffectors lim cwd workspace command) roots actions touched w
      = (.ok (touched', failure), w')) : Traced lim root T₀ touched' w'.1 := by
  induction actions generalizing touched w with
  | nil =>
      cases hrun
      exact h
  | cons action rest ih =>
      obtain ⟨hkind, hrest⟩ := List.forall_mem_cons.mp hwrites
      rcases hone : attemptAction (workspaceEffectors lim cwd workspace command) roots action w with
        ⟨e | q, w₁⟩
      · rw [performActions_raised hone] at hrun
        cases hrun
      rw [performActions_cons hone] at hrun
      rcases attemptAction_write hkind hone with ⟨p, rfl⟩ | ⟨⟨reason, rfl⟩, hsame⟩
      · obtain ⟨path, content, -, -, -, hwrite⟩ := attemptAction_wrote_iff.mp hone
        have hdoc : applyWriteDoc lim cwd workspace path content roots w.1 = (.ok p, w₁.1) :=
          congrArg (fun r => (r.1, r.2.1)) hwrite
        obtain ⟨-, -, text, root', -, hroot', -, hnull, T₁, loc, hmade, hopens, hput⟩ :=
          (applyWriteDoc_ok_iff lim cwd workspace).mp hdoc
        rw [resolveWorkspace_congr h.links, hroot] at hroot'
        obtain rfl : root = root' := Except.ok.inj hroot'
        refine ih hrest ?_ hrun
        rw [hput]
        exact h.write hlim hnull hmade hopens text
      · cases hrun
        rw [hsame]
        exact h

/-! ### Checks -/

/-- The commands of the checks change no file. -/
def QuietChecks (command : Val → Call PyErr (Tree × X) CommandOutcome) (checks : List Val) : Prop :=
  ∀ check ∈ checks, ∀ cmd, check.item "command" = .ok cmd → ∀ w, (command cmd w).2.1 = w.1

omit [PyRuntime] in
lemma runCheckList_quiet {secrets : List String} {checks : List Val}
    (h : QuietChecks command checks) (report : CheckReport) (w : Tree × X) :
    (runCheckList command secrets checks report w).2.1 = w.1 := by
  let sameTree : Tree × X → Tree × X → Prop := fun w w' => w'.1 = w.1
  have hmoves : Call.Moves sameTree (runCheckList command secrets checks report) :=
    runCheckList_moves (R := sameTree) (fun _ => rfl) (fun h₁ h₂ => h₂.trans h₁) h report
  exact hmoves w

/-- A task of writes, followed by checks that change no file. -/
structure WritesThenChecks (command : Val → Call PyErr (Tree × X) CommandOutcome) (spec : Val) :
    Prop where
  actions : ∀ actions, actionsOf spec = .ok actions → WritesOnly actions
  checks : ∀ checks checkList, spec.get "checks" (.list []) = .ok checks →
    checks.iter = .ok checkList → QuietChecks command checkList

/-- **What a task has changed is at the places of the paths its result lists.** -/
theorem traced_applyTaskSpec (hlim : lim.links ≤ lim.depth) {roots : List Val}
    {secrets : List String} {spec : Val} (hspec : WritesThenChecks command spec)
    {w w' : Tree × X} (hroot : resolveWorkspace lim cwd workspace w.1 = .ok root)
    {result : ExecutorResult}
    (h : applyTaskSpec (workspaceEffectors lim cwd workspace command) roots secrets spec w
      = (.ok result, w')) : Traced lim root w.1 result.touchedPaths w'.1 := by
  rw [applyTaskSpec] at h
  obtain ⟨actions, w₁, hactions, h⟩ := Call.bind_eq_ok.mp h
  obtain ⟨⟨touched, failure⟩, w₂, hloop, h⟩ := Call.bind_eq_ok.mp h
  rw [Call.ofExcept_apply, Prod.mk.injEq] at hactions
  obtain ⟨hactions, rfl⟩ := hactions
  have htraced := Traced.performActions hlim hroot (hspec.actions actions hactions)
    (traced_refl w.1) hloop
  cases failure with
  | some reason =>
      cases h
      exact htraced
  | none =>
      have hpaths := (applyChecks_ok h).1
      have hsame : w'.1 = w₂.1 := by
        dsimp only at h
        rw [applyChecks] at h
        obtain ⟨checks, w₃, hchecks, h⟩ := Call.bind_eq_ok.mp h
        rw [Call.ofExcept_apply, Prod.mk.injEq] at hchecks
        obtain ⟨hchecks, rfl⟩ := hchecks
        split at h
        · cases h
          rfl
        · obtain ⟨checkList, w₄, hlist, h⟩ := Call.bind_eq_ok.mp h
          rw [Call.ofExcept_apply, Prod.mk.injEq] at hlist
          obtain ⟨hlist, rfl⟩ := hlist
          obtain ⟨report, w₅, hrun, h⟩ := Call.bind_eq_ok.mp h
          cases h
          have hquiet := @runCheckList_quiet X command secrets checkList
            (hspec.checks checks checkList hchecks hlist) ⟨true, []⟩ w₂
          rw [runChecks] at hrun
          rw [show (workspaceEffectors lim cwd workspace command).runCommand
            = command from rfl] at hrun
          rwa [hrun] at hquiet
      rw [hsame, hpaths]
      exact htraced

/-! ### Compensation -/

/-- `execute` returns a failure, and the run loop calls `compensate` with what it lists, if
anything. -/
def Compensates (x : Executor (Tree × X)) (node : TaskNode) (scope : Dict) (w w' : Tree × X) :
    Prop :=
  ∃ result w₁, x.execute node scope w = (.ok result, w₁) ∧ result.outcome = .failure
    ∧ w' = if result.touchedPaths = [] then w₁ else (x.compensate result.touchedPaths w₁).2

/-- **Compensation undoes the task** exactly when no write it has carried out leads into the
workspace to a file that was there before. -/
theorem compensated_iff (hlim : lim.links ≤ lim.depth) {secrets : List String} {spec taskSpec : Val}
    {node : TaskNode} {scope : Dict} {w w' : Tree × X}
    (hroot : resolveWorkspace lim cwd workspace w.1 = .ok root)
    (htask : taskSpecOf spec node = .ok taskSpec) (hspec : WritesThenChecks command taskSpec)
    (h : Compensates (scriptedExecutor (workspaceEffectors lim cwd workspace command) secrets spec)
      node scope w w') :
    Restored root w.1 w'.1
      ↔ ∀ p ∈ (scriptedExecutor (workspaceEffectors lim cwd workspace command) secrets spec).written
          node scope w, ∀ loc, placeOf lim root w.1 p = some loc → root <+: loc →
        w.1.fileAt loc = none := by
  obtain ⟨result, w₁, hexecute, -, rfl⟩ := h
  change scriptedExecute _ secrets spec node scope w = _ at hexecute
  rw [scriptedExecute] at hexecute
  obtain ⟨taskSpec', w₂, htask', hexecute⟩ := Call.bind_eq_ok.mp hexecute
  obtain ⟨roots, w₃, hroots, hexecute⟩ := Call.bind_eq_ok.mp hexecute
  rw [Call.ofExcept_apply, Prod.mk.injEq] at htask' hroots
  obtain ⟨htask', rfl⟩ := htask'
  obtain ⟨hroots, rfl⟩ := hroots
  obtain rfl : taskSpec = taskSpec' := Except.ok.inj (htask.symm.trans htask')
  have htraced := traced_applyTaskSpec hlim hspec hroot hexecute
  have hwritten :
      (scriptedExecutor (workspaceEffectors lim cwd workspace command) secrets spec).written
        node scope w = result.touchedPaths := by
    show scriptedWrites _ spec node scope w = _
    rw [scriptedWrites, htask, hroots, (applyTaskSpec_ok hexecute).1]
  rw [hwritten]
  by_cases hnone : result.touchedPaths = []
  · -- nothing has been written, and nothing is compensated
    rw [if_pos hnone, hnone]
    refine iff_of_true (fun l _ => htraced.others l ?_) (by simp)
    simp [hnone]
  · have hundo :
        ((scriptedExecutor (workspaceEffectors lim cwd workspace command) secrets spec).compensate
          result.touchedPaths w₁).2.1
          = (undoWrites lim cwd result.touchedPaths workspace w₁.1).2 := by
      show (undoTouched _ result.touchedPaths w₁).2.1 = _
      rw [undoTouched]
      rcases hr :
          (workspaceEffectors lim cwd workspace command).undoWrites result.touchedPaths w₁ with
        ⟨e | removed, w₂⟩
      · rw [Call.bind_error hr]
        exact (congrArg (fun r => r.2.1) hr).symm
      · rw [Call.bind_ok hr]
        exact (congrArg (fun r => r.2.1) hr).symm
    rw [if_neg hnone, hundo]
    exact restored_iff htraced hroot

end Runtime

section Example

attribute [local instance] cpython

/-- A command that does nothing and fails. -/
def failingCommand (_ : Val) : Call PyErr (Tree × Unit) CommandOutcome := fun w => (.ok ⟨1, ""⟩, w)

/-- A task that writes one file, with a check. -/
def checkedWrite : Val :=
  .dict [("actions", .list [.dict [("type", .str "write"), ("path", .str "src/a"),
    ("content", .str "new")]]), ("checks", .list [.dict [("name", .str "test"), ("command",
    .str "false")]])]

/-- The executor of a script with this task, in `/w`. -/
def checkedExecutor : Executor (Tree × Unit) :=
  scriptedExecutor (workspaceEffectors ⟨40, 100⟩ [] "/w" failingCommand) []
    (.dict [("T1", checkedWrite)])

/-- The node of the task. -/
def checkedNode : TaskNode := ⟨.str "T1", .str "T1", [], .dict []⟩

/-- A scope with one root. -/
def checkedScope : Dict := [("allowed_roots", .list [.str "src/"])]

lemma checkedWrite_writesThenChecks : WritesThenChecks failingCommand checkedWrite where
  actions := by
    intro actions hactions
    have hall : ∀ actions', actionsOf checkedWrite = .ok actions' →
        ∀ action ∈ actions', (action.item "type").toOption = some (.str "write") := by
      intro actions' h'
      have hone : (actionsOf checkedWrite).toOption = some [.dict [("type", .str "write"),
        ("path", .str "src/a"), ("content", .str "new")]] := by decide +kernel
      rw [h'] at hone
      obtain rfl := Option.some.inj hone
      decide +kernel
    intro action haction
    exact eq_ok_of_toOption (hall actions hactions action haction)
  checks := fun _ _ _ _ _ _ _ _ _ => rfl

/-- The failure of the check, over a workspace with these entries. -/
def CheckFails (entries : List (String × Node)) : Prop :=
  (checkedExecutor.execute checkedNode checkedScope (workspaceTree entries, ())).1.toOption.map
    (fun r => (r.outcome, r.touchedPaths)) = some (.failure, ["src/a"])

instance (entries : List (String × Node)) : Decidable (CheckFails entries) :=
  inferInstanceAs (Decidable (_ = _))

/-- The world that is left behind. -/
def afterFailure (entries : List (String × Node)) : Tree × Unit :=
  (checkedExecutor.compensate ["src/a"]
    (checkedExecutor.execute checkedNode checkedScope (workspaceTree entries, ())).2).2

lemma CheckFails.compensates {entries : List (String × Node)} (h : CheckFails entries) :
    Compensates checkedExecutor checkedNode checkedScope (workspaceTree entries, ())
      (afterFailure entries) := by
  rw [CheckFails] at h
  rcases hrun : checkedExecutor.execute checkedNode checkedScope (workspaceTree entries, ()) with
    ⟨e | result, w₁⟩
  · rw [hrun] at h
    cases h
  · rw [hrun] at h
    obtain ⟨houtcome, htouched⟩ := Prod.mk.inj (Option.some.inj h)
    refine ⟨result, w₁, hrun, houtcome, ?_⟩
    rw [htouched, if_neg (by simp), afterFailure, hrun]

/-- In an empty workspace the file is new, and gone again afterwards. -/
theorem compensated_new : Restored (locOf "w") (workspaceTree []) (afterFailure []).1 := by
  have hroot : resolveWorkspace ⟨40, 100⟩ [] "/w" (workspaceTree []) = .ok (locOf "w") := by
    decide +kernel
  have htask : taskSpecOf (.dict [("T1", checkedWrite)]) checkedNode = .ok checkedWrite :=
    eq_ok_of_toOption (by decide +kernel)
  have hfails : CheckFails [] := by decide +kernel
  refine (@compensated_iff _ Unit ⟨40, 100⟩ [] (locOf "w") "/w" failingCommand (by decide) []
    (.dict [("T1", checkedWrite)]) checkedWrite checkedNode checkedScope (workspaceTree [], ()) _
    hroot htask checkedWrite_writesThenChecks hfails.compensates).mpr ?_
  intro p hp loc hloc _
  have hwritten : checkedExecutor.written checkedNode checkedScope (workspaceTree [], ())
      = ["src/a"] := by decide +kernel
  change p ∈ checkedExecutor.written checkedNode checkedScope (workspaceTree [], ()) at hp
  rw [hwritten, List.mem_singleton] at hp
  have hplace : placeOf ⟨40, 100⟩ (locOf "w") (workspaceTree []) "src/a"
      = some (locOf "w/src/a") := by decide +kernel
  rw [hp] at hloc
  obtain rfl := Option.some.inj (hplace.symm.trans hloc)
  decide +kernel

/-- **A file that was there is lost**: the task writes over it, the check fails, and the
compensation takes the file away. -/
theorem not_compensated :
    resolveWorkspace ⟨40, 100⟩ [] "/w" (workspaceTree [("w/src/a", .file "old")]) = .ok (locOf "w")
    ∧ WritesThenChecks failingCommand checkedWrite
    ∧ Compensates checkedExecutor checkedNode checkedScope
      (workspaceTree [("w/src/a", .file "old")], ()) (afterFailure [("w/src/a", .file "old")])
    ∧ (workspaceTree [("w/src/a", .file "old")]).fileAt (locOf "w/src/a") = some "old"
    ∧ (afterFailure [("w/src/a", .file "old")]).1.fileAt (locOf "w/src/a") = none
    ∧ ¬ Restored (locOf "w") (workspaceTree [("w/src/a", .file "old")])
      (afterFailure [("w/src/a", .file "old")]).1 := by
  have hfails : CheckFails [("w/src/a", .file "old")] := by decide +kernel
  have hold : (workspaceTree [("w/src/a", .file "old")]).fileAt (locOf "w/src/a") = some "old" := by
    decide +kernel
  have hgone : (afterFailure [("w/src/a", .file "old")]).1.fileAt (locOf "w/src/a") = none := by
    decide +kernel
  refine ⟨by decide +kernel, checkedWrite_writesThenChecks, hfails.compensates, hold, hgone, ?_⟩
  intro hrestored
  have hsame := hrestored (locOf "w/src/a") (by decide +kernel)
  rw [hold, hgone] at hsame
  cases hsame

end Example

end IplanRunner
