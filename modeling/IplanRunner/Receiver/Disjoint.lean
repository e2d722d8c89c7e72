import Mathlib.Data.List.Forall2
import IplanRunner.Receiver.Settled

/-!
The workspaces of two dispatched tasks.

* `Dispatched`: a task with an object repository, and the directory `execute` clones it into.
* `SameLetters`: two components that differ only in characters `_slug` replaces.
* `workspaces_disjoint_iff`: the directories are apart unless both components are the same so.
-/

namespace IplanRunner

open Foundation

/-! ### Slugs -/

/-- A character that reads `_` in a slug. -/
def blank (c : Char) : Prop := c = '_' ∨ safeChar c = false

/-- The components have the same characters, but for those that read `_`. -/
def SameLetters (a b : String) : Prop :=
  List.Forall₂ (fun c d => c = d ∨ blank c ∧ blank d) a.toList b.toList

section Runtime

variable [PyRuntime]

/-- A slug replaces character by character. -/
lemma slug_toList {component text : String} (h : slug (.str component) = .ok text) :
    text.toList = component.toList.map fun c => if safeChar c then c else '_' := by
  rw [slug] at h
  dsimp only at h
  split_ifs at h
  cases h
  exact String.toList_ofList

omit [PyRuntime] in
/-- Two characters read the same in a slug. -/
lemma slugChar_eq_iff (c d : Char) :
    (if safeChar c then c else '_') = (if safeChar d then d else '_')
      ↔ c = d ∨ blank c ∧ blank d := by
  have hunderscore : safeChar '_' = true := by decide
  by_cases hc : safeChar c = true
  · by_cases hd : safeChar d = true
    · simp only [hc, hd, if_true, blank, Bool.true_eq_false, or_false]
      refine ⟨Or.inl, ?_⟩
      rintro (heq | ⟨rfl, rfl⟩)
      · exact heq
      · rfl
    · have hne : c ≠ d := fun heq => hd (heq ▸ hc)
      simp [hc, hd, hne, blank]
  · by_cases hd : safeChar d = true
    · have hne : c ≠ d := fun heq => hc (heq ▸ hd)
      simp [hc, hd, hne, blank, eq_comm]
    · simp [hc, hd, blank]

/-- **Two components have one slug** exactly when they have the same letters. -/
lemma slug_eq_iff {a b s t : String} (ha : slug (.str a) = .ok s) (hb : slug (.str b) = .ok t) :
    s = t ↔ SameLetters a b := by
  rw [← String.toList_inj, slug_toList ha, slug_toList hb, ← List.forall₂_eq_eq_eq,
    List.forall₂_map_left_iff, List.forall₂_map_right_iff, SameLetters]
  simp only [slugChar_eq_iff]

/-! ### Two tasks -/

/-- Neither path is the other or leads into it. -/
def Apart (d₁ d₂ : String) : Prop :=
  ¬ stepsOf d₁.toList <+: stepsOf d₂.toList ∧ ¬ stepsOf d₂.toList <+: stepsOf d₁.toList

/-- A dispatched task with string ids and an object repository, and the directory it is cloned
into. -/
structure Dispatched (deps : ReceiverDeps) (payload : Dict) (runId taskId dest : String) :
    Prop where
  run : (Val.dict payload).item "run_id" = .ok (.str runId)
  task : (Val.dict payload).item "task_id" = .ok (.str taskId)
  cloned : clonedWorkspace deps payload (.str runId) (.str taskId) = .ok (some dest)

variable {deps : ReceiverDeps} {payload : Dict} {runId taskId dest : String}

/-- **All that the worker of a task removes, clones into or cleans up is its clone.** -/
lemma Dispatched.only_dest [SqlText] (h : Dispatched deps payload runId taskId dest) :
    (execute deps payload).Only fun op => ∀ path, op.directory = some path → path = dest := by
  have hdest := (cloneDest_of_cloned h.cloned).2
  refine only_execute_of (fun op hnone _ path hpath => ?_)
    fun op path runId' taskId' hdir hrun htask _ hpath path' hpath' => ?_
  · rw [hnone] at hpath
    cases hpath
  · obtain rfl := Option.some.inj (hdir.symm.trans hpath')
    obtain rfl := Except.ok.inj (hrun.symm.trans h.run)
    obtain rfl := Except.ok.inj (htask.symm.trans h.task)
    exact Except.ok.inj (hpath.symm.trans hdest)

/-- Two clones are apart unless they are one directory. -/
lemma apart_cloneDest_iff {root d₁ d₂ r₁ t₁ r₂ t₂ : String}
    (h₁ : cloneDest root (.str r₁) (.str t₁) = .ok d₁)
    (h₂ : cloneDest root (.str r₂) (.str t₂) = .ok d₂) :
    Apart d₁ d₂ ↔ ¬ (SameLetters r₁ r₂ ∧ SameLetters t₁ t₂) := by
  obtain ⟨run₁, task₁, hr₁, ht₁, hsteps₁⟩ := cloneDest_steps h₁
  obtain ⟨run₂, task₂, hr₂, ht₂, hsteps₂⟩ := cloneDest_steps h₂
  have hname : ∀ n m : Name, String.ofList n.val = String.ofList m.val ↔ n = m := by
    intro n m
    rw [String.ofList_inj, Subtype.ext_iff]
  have hprefix : ∀ a b c d : Name, ([.down a, .down b] : List (Foundation.Step Name))
      <+: [.down c, .down d] ↔ a = c ∧ b = d := by
    intro a b c d
    simp [List.cons_prefix_cons]
  rw [Apart, hsteps₁, hsteps₂, List.prefix_append_right_inj, List.prefix_append_right_inj, hprefix,
    hprefix, ← slug_eq_iff hr₁ hr₂, ← slug_eq_iff ht₁ ht₂, hname, hname, eq_comm (a := run₂),
    eq_comm (a := task₂), and_self]

/-! ### Main results -/

/-- **Workspaces of two tasks, exactly.**  Each worker removes, makes room for, clones into and
cleans up its own directory only, and the two directories are apart if and only if the ids of the
tasks differ in more than characters that `_slug` replaces. -/
theorem workspaces_disjoint_iff [SqlText] {p₁ p₂ : Dict} {r₁ t₁ d₁ r₂ t₂ d₂ : String}
    (h₁ : Dispatched deps p₁ r₁ t₁ d₁) (h₂ : Dispatched deps p₂ r₂ t₂ d₂) :
    (execute deps p₁).Only (fun op => ∀ path, op.directory = some path → path = d₁)
      ∧ (execute deps p₂).Only (fun op => ∀ path, op.directory = some path → path = d₂)
      ∧ (Apart d₁ d₂ ↔ ¬ (SameLetters r₁ r₂ ∧ SameLetters t₁ t₂)) :=
  ⟨h₁.only_dest, h₂.only_dest,
    apart_cloneDest_iff (cloneDest_of_cloned h₁.cloned).2 (cloneDest_of_cloned h₂.cloned).2⟩

end Runtime

section Example

attribute [local instance] cpython stringText

/-- A dispatched task with an object repository, of a given run. -/
private def runPayload (runId : String) : Dict :=
  (Dict.set (oneTodoPayload "T1") "run_id" (.str runId)).set "context_package"
    (.dict [("repository", .dict [("url", .str "https://h/r"), ("base_ref", .str "main")])])

/-- The clones of the runs `a/b` and `a/c` are apart. -/
theorem workspaces_disjoint_of_letters : ∃ d₁ d₂,
    Dispatched scriptDeps (runPayload "a/b") "a/b" "T1" d₁
      ∧ Dispatched scriptDeps (runPayload "a/c") "a/c" "T1" d₂ ∧ Apart d₁ d₂ := by
  have h₁ : Dispatched scriptDeps (runPayload "a/b") "a/b" "T1" "/w/a_b/T1" := ⟨rfl, rfl, rfl⟩
  have h₂ : Dispatched scriptDeps (runPayload "a/c") "a/c" "T1" "/w/a_c/T1" := ⟨rfl, rfl, rfl⟩
  refine ⟨_, _, h₁, h₂, (workspaces_disjoint_iff h₁ h₂).2.2.mpr fun h => ?_⟩
  have hletters : safeChar 'b' = false ∧ safeChar 'c' = false := by
    simpa [SameLetters, blank] using h.1
  exact absurd hletters.1 (by decide)

/-- **Two runs with one clone**: `a/b` and `a_b`. -/
theorem workspaces_shared : ∃ d,
    Dispatched scriptDeps (runPayload "a/b") "a/b" "T1" d
      ∧ Dispatched scriptDeps (runPayload "a_b") "a_b" "T1" d ∧ ¬ Apart d d := by
  refine ⟨"/w/a_b/T1", ⟨rfl, rfl, rfl⟩, ⟨rfl, rfl, rfl⟩, fun h => ?_⟩
  exact h.1 (List.prefix_refl _)

end Example

end IplanRunner
