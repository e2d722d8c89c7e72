import IplanRunner.Executor.Undone

/-!
Executors that keep books of the files of a workspace (`executor/scripted.py`).

* `Filed`: a trace of writes, with a file at the place of every path of it.
* `KeepsBooks`: an executor that has written a file at each path it lists and nowhere else, and
  that undoes what it is told to.
* `performActions_filed`, `undoWrites_spec`: the loop over the actions, and the undoing.
* `scriptedExecutor_keepsBooks`: `ScriptedExecutor` is one, on writes and quiet checks.
-/

namespace IplanRunner

open Foundation

variable {lim : Limits} {root : Loc}

/-! ### Traces of writes -/

/-- The tree differs from the first one by the files at the places of the paths, and there is one at
each of them. -/
structure Filed (lim : Limits) (root : Loc) (T₀ : Tree) (paths : List String) (T : Tree) : Prop
    extends Traced lim root T₀ paths T where
  filled : ∀ p ∈ paths, ∀ l, placeOf lim root T₀ p = some l → (T.fileAt l).isSome

lemma filed_refl (T : Tree) : Filed lim root T [] T := ⟨traced_refl T, by simp⟩

/-- A write adds its path. -/
lemma Filed.write (hlim : lim.links ≤ lim.depth) {T₀ T T₁ : Tree} {paths : List String}
    (h : Filed lim root T₀ paths T) {path : String} {loc : Loc}
    (hnull : hasNull (joinPath root path) = false)
    (hmade : Tree.made lim.links [] (joinPath root path).dropLast T = some T₁)
    (hopens : T₁.opens lim.links (joinPath root path) = some loc) (content : String) :
    Filed lim root T₀ (paths ++ [path]) (T₁.put loc (.file content)) := by
  refine ⟨h.toTraced.write hlim hnull hmade hopens content, fun p hp l hl => ?_⟩
  obtain ⟨-, hplace, hothers⟩ := placeOf_of_opens hlim hmade hopens content
  rw [placeOf_congr h.links] at hplace
  by_cases hloc : l = loc
  · have hnode : (T₁.put loc (.file content)).node loc = some (.file content) := by
      rw [Tree.put_node (Tree.leaf_of_opens hopens), if_pos rfl]
    rw [hloc, Tree.fileAt_eq_some_iff.mpr hnode]
    rfl
  · rw [hothers l hloc]
    rcases List.mem_append.mp hp with hold | hnew
    · exact h.filled p hold l hl
    · obtain rfl := List.mem_singleton.mp hnew
      exact absurd (Option.some.inj (hl.symm.trans hplace)) hloc

/-! ### What an undoing leaves -/

lemma RemovedInside.sameLinks {T T' : Tree} (h : RemovedInside root T T') : T.SameLinks T' := by
  intro loc target
  by_cases hsame : T'.node loc = T.node loc
  · rw [hsame]
  · obtain ⟨-, hnone, content, hfile⟩ := h loc hsame
    rw [hnone, hfile]
    simp

/-- One of the paths leads to the place. -/
def Leads (lim : Limits) (root : Loc) (T : Tree) (paths : List String) (l : Loc) : Prop :=
  ∃ p ∈ paths, placeOf lim root T p = some l

/-- **An undoing of a trace** takes the files away that stand at its places in the workspace, and
changes nothing else. -/
theorem undoWrites_spec {T₀ T : Tree} {paths : List String} {cwd : Loc} {workspace : String}
    (h : Traced lim root T₀ paths T) (hroot : resolveWorkspace lim cwd workspace T₀ = .ok root) :
    T.SameLinks (undoWrites lim cwd paths workspace T).2
      ∧ (∀ l, root <+: l → Leads lim root T₀ paths l →
        (undoWrites lim cwd paths workspace T).2.fileAt l = none)
      ∧ ∀ l, ¬ Leads lim root T₀ paths l →
        (undoWrites lim cwd paths workspace T).2.fileAt l = T.fileAt l := by
  have hplaces : ∀ p ∈ paths, ∃ loc, placeOf lim root T p = some loc := by
    intro p hp
    rw [placeOf_congr h.links]
    exact h.places p hp
  have hleads : ∀ l, Leads lim root T paths l ↔ Leads lim root T₀ paths l := by
    intro l
    simp only [Leads, placeOf_congr h.links]
  obtain ⟨removed, T', hrun, hgone, hkept⟩ := undoFrom_spec h.clear hplaces
  have hinside := undoFrom_inside lim root paths T
  rw [undoWrites, resolveWorkspace_congr h.links, hroot]
  dsimp only
  rw [hrun] at hinside ⊢
  refine ⟨hinside.sameLinks, fun l hin hl => ?_, fun l hl => ?_⟩
  · exact hgone l ⟨hin, (hleads l).mpr hl⟩
  · exact hkept l fun hu => hl ((hleads l).mp hu.2)

section Runtime

variable [PyRuntime] {X : Type} {cwd : Loc} {workspace : String}
  {command : Val → Call PyErr (Tree × X) CommandOutcome}

/-- An executor on a workspace that has written a file at each path it lists and nowhere else, and
that undoes the writes it is given. -/
structure KeepsBooks (lim : Limits) (cwd : Loc) (workspace : String) (x : Executor (Tree × X)) :
    Prop where
  lists : x.Lists
  files : ∀ {root node scope w w' result}, resolveWorkspace lim cwd workspace w.1 = .ok root →
    x.execute node scope w = (.ok result, w') → Filed lim root w.1 result.touchedPaths w'.1
  undoes : ∀ paths w, (x.compensate paths w).2.1 = (undoWrites lim cwd paths workspace w.1).2

/-! ### The actions -/

/-- What writes preserve, the loop over write actions preserves. -/
lemma performActions_writes {roots actions : List Val} (hwrites : WritesOnly actions)
    {P : List String → Tree → Prop}
    (hstep : ∀ {touched path content p T T'}, P touched T →
      applyWriteDoc lim cwd workspace path content roots T = (.ok p, T') →
      P (touched ++ [p]) T')
    {touched touched' : List String} {failure : Option String} {w w' : Tree × X}
    (h : P touched w.1)
    (hrun : performActions (workspaceEffectors lim cwd workspace command) roots actions touched w
      = (.ok (touched', failure), w')) : P touched' w'.1 := by
  induction actions generalizing touched w with
  | nil =>
      cases hrun
      exact h
  | cons action rest ih =>
      obtain ⟨hkind, hrest⟩ := List.forall_mem_cons.mp hwrites
      rcases hone : attemptAction (workspaceEffectors lim cwd workspace command) roots action w with
        ⟨e | q, w₁⟩
      · rw [performActions_raised hone] at hrun
        cases hrun
      rw [performActions_cons hone] at hrun
      rcases attemptAction_write hkind hone with ⟨p, rfl⟩ | ⟨⟨reason, rfl⟩, hsame⟩
      · obtain ⟨path, content, -, -, -, hwrite⟩ := attemptAction_wrote_iff.mp hone
        have hdoc : applyWriteDoc lim cwd workspace path content roots w.1 = (.ok p, w₁.1) :=
          congrArg (fun r => (r.1, r.2.1)) hwrite
        exact ih hrest (hstep h hdoc) hrun
      · cases hrun
        rw [hsame]
        exact h

/-- **There is a file at each path the loop lists, and no other file has changed.** -/
lemma performActions_filed (hlim : lim.links ≤ lim.depth) {T₀ : Tree} {roots actions : List Val}
    (hroot : resolveWorkspace lim cwd workspace T₀ = .ok root) (hwrites : WritesOnly actions)
    {touched touched' : List String} {failure : Option String} {w w' : Tree × X}
    (h : Filed lim root T₀ touched w.1)
    (hrun : performActions (workspaceEffectors lim cwd workspace command) roots actions touched w
      = (.ok (touched', failure), w')) : Filed lim root T₀ touched' w'.1 := by
  refine performActions_writes hwrites ?_ h hrun
  intro touched path content p T T' hfiled hdoc
  obtain ⟨-, -, text, root', -, hroot', -, hnull, T₁, loc, hmade, hopens, hput⟩ :=
    (applyWriteDoc_ok_iff lim cwd workspace).mp hdoc
  rw [resolveWorkspace_congr hfiled.links, hroot] at hroot'
  obtain rfl : root = root' := Except.ok.inj hroot'
  rw [hput]
  exact hfiled.write hlim hnull hmade hopens text

omit [PyRuntime] in
/-- Checks that change no file leave what the actions have made. -/
lemma applyChecks_quiet {secrets touched : List String} {spec : Val}
    (hspec : WritesThenChecks command spec) {result : ExecutorResult} {w w' : Tree × X}
    (h : applyChecks (workspaceEffectors lim cwd workspace command) secrets spec touched w
      = (.ok result, w')) : w'.1 = w.1 := by
  rw [applyChecks] at h
  obtain ⟨checks, w₃, hchecks, h⟩ := Call.bind_eq_ok.mp h
  rw [Call.ofExcept_apply, Prod.mk.injEq] at hchecks
  obtain ⟨hchecks, rfl⟩ := hchecks
  split at h
  · cases h
    rfl
  · obtain ⟨checkList, w₄, hlist, h⟩ := Call.bind_eq_ok.mp h
    rw [Call.ofExcept_apply, Prod.mk.injEq] at hlist
    obtain ⟨hlist, rfl⟩ := hlist
    obtain ⟨report, w₅, hrun, h⟩ := Call.bind_eq_ok.mp h
    cases h
    have hquiet := @runCheckList_quiet X command secrets checkList
      (hspec.checks checks checkList hchecks hlist) ⟨true, []⟩ w
    rw [runChecks] at hrun
    rw [show (workspaceEffectors lim cwd workspace command).runCommand = command from rfl] at hrun
    rwa [hrun] at hquiet

/-- **There is a file at each path a task lists, and no other file has changed.** -/
lemma applyTaskSpec_filed (hlim : lim.links ≤ lim.depth) {roots : List Val}
    {secrets : List String} {spec : Val} (hspec : WritesThenChecks command spec)
    {w w' : Tree × X} (hroot : resolveWorkspace lim cwd workspace w.1 = .ok root)
    {result : ExecutorResult}
    (h : applyTaskSpec (workspaceEffectors lim cwd workspace command) roots secrets spec w
      = (.ok result, w')) : Filed lim root w.1 result.touchedPaths w'.1 := by
  rw [applyTaskSpec] at h
  obtain ⟨actions, w₁, hactions, h⟩ := Call.bind_eq_ok.mp h
  obtain ⟨⟨touched, failure⟩, w₂, hloop, h⟩ := Call.bind_eq_ok.mp h
  rw [Call.ofExcept_apply, Prod.mk.injEq] at hactions
  obtain ⟨hactions, rfl⟩ := hactions
  have hfiled := performActions_filed hlim hroot (hspec.actions actions hactions)
    (filed_refl w.1) hloop
  cases failure with
  | some reason =>
      cases h
      exact hfiled
  | none =>
      have hpaths := (applyChecks_ok h).1
      rw [applyChecks_quiet hspec h, hpaths]
      exact hfiled

/-- The script holds writes only, behind which its checks change no file. -/
def WritingScript (command : Val → Call PyErr (Tree × X) CommandOutcome) (script : Val) : Prop :=
  ∀ node taskSpec, taskSpecOf script node = .ok taskSpec → WritesThenChecks command taskSpec

/-- **`ScriptedExecutor` keeps books**, on a script of writes and quiet checks. -/
theorem scriptedExecutor_keepsBooks (hlim : lim.links ≤ lim.depth) {script : Val}
    (hscript : WritingScript command script) (secrets : List String) :
    KeepsBooks lim cwd workspace
      (scriptedExecutor (workspaceEffectors lim cwd workspace command) secrets script) where
  lists := scriptedExecutor_lists _ secrets script
  files := by
    intro root node scope w w' result hroot h
    change scriptedExecute _ secrets script node scope w = _ at h
    rw [scriptedExecute] at h
    obtain ⟨taskSpec, w₁, htask, h⟩ := Call.bind_eq_ok.mp h
    obtain ⟨roots, w₂, hroots, h⟩ := Call.bind_eq_ok.mp h
    rw [Call.ofExcept_apply, Prod.mk.injEq] at htask hroots
    obtain ⟨htask, rfl⟩ := htask
    obtain ⟨-, rfl⟩ := hroots
    exact applyTaskSpec_filed hlim (hscript node taskSpec htask) hroot h
  undoes := by
    intro paths w
    change (undoTouched _ paths w).2.1 = _
    rw [undoTouched]
    rcases hr : (workspaceEffectors lim cwd workspace command).undoWrites paths w with
      ⟨e | removed, w₂⟩
    · rw [Call.bind_error hr]
      exact (congrArg (fun r => r.2.1) hr).symm
    · rw [Call.bind_ok hr]
      exact (congrArg (fun r => r.2.1) hr).symm

end Runtime

end IplanRunner
