import IplanRunner.Orchestrator.Loop

/-!
Landing a run (`land` in `orchestrator/loop.py`).

* `Repo`: the two `git` calls it makes, in the world of the run.
* `sortedSet`, `landedPaths`: the paths the landed commit names.
* `land`: on a clean tree only the gate is run.
-/

namespace IplanRunner

open Foundation

/-- `git_has_changes` and `git_commit_all` on the workspace; both may raise. -/
structure Repo (W : Type) where
  hasChanges : W → Except PyErr Bool × W
  commitAll : String → String → W → Except PyErr String × W

/-- The members of `set(xs)`, each where it occurs first. -/
def distinct : List Val → List Val → List Val
  | seen, [] => seen.reverse
  | seen, x :: xs => if seen.any (·.pyEq x) then distinct seen xs else distinct (x :: seen) xs

/-- What a string is compared by. -/
def sortText : Val → Option String
  | .str s => some s
  | _ => none

/-- `sorted(set(xs))`: what cannot be put in a set, or compared, raises.  Timestamps count as not
comparable. -/
def sortedSet (xs : List Val) : Except PyErr (List Val) :=
  let members := distinct [] xs
  if xs.any (!·.hashable) then .error .typeError
  else if members.length ≤ 1 then .ok members
  else if members.all fun x => (sortText x).isSome then
    .ok (members.mergeSort fun a b => decide ((sortText a).getD "" ≤ (sortText b).getD ""))
  else if members.all fun x => x.num?.isSome then
    .ok (members.mergeSort fun a b => decide (a.num?.getD 0 ≤ b.num?.getD 0))
  else .error .typeError

lemma mem_distinct {x : Val} :
    ∀ {xs seen : List Val}, x ∈ distinct seen xs → x ∈ seen ∨ x ∈ xs := by
  intro xs
  induction xs with
  | nil =>
      intro seen hx
      rw [distinct, List.mem_reverse] at hx
      exact Or.inl hx
  | cons y ys ih =>
      intro seen hx
      rw [distinct] at hx
      split at hx
      · rcases ih hx with h1 | h1
        · exact Or.inl h1
        · exact Or.inr (List.mem_cons_of_mem _ h1)
      · rcases ih hx with h1 | h1
        · rcases List.mem_cons.mp h1 with rfl | h2
          · exact Or.inr (by simp)
          · exact Or.inl h2
        · exact Or.inr (List.mem_cons_of_mem _ h1)

/-- Sorting a set makes up no member. -/
lemma mem_sortedSet {xs ys : List Val} (h : sortedSet xs = .ok ys) {x : Val} (hx : x ∈ ys) :
    x ∈ xs := by
  have hmember : x ∈ distinct [] xs → x ∈ xs := fun hd => (mem_distinct hd).resolve_left (by simp)
  rw [sortedSet] at h
  split_ifs at h
  · cases h
    exact hmember hx
  · cases h
    exact hmember (List.mem_mergeSort.mp hx)
  · cases h
    exact hmember (List.mem_mergeSort.mp hx)

/-- The paths of the `file_edited` events, sorted. -/
def landedPaths (log : List Event) : Except PyErr (List Val) := do
  sortedSet (← collect (fun e =>
    if e.kind.toVal.pyEq (.str "file_edited") then e.touchedPaths.iter else .ok []) log)

/-- The `commit` event of a landing. -/
def landingEvent (scope : Dict) (atTime : String) (touched : List Val) : EventBody where
  kind := .commit
  subjectId := .str "LANDING"
  atTime := .str atTime
  touchedPaths := .list touched
  clientId := scope.get "client_id"
  projectId := scope.get "project_id"

section Runtime

variable [PyRuntime]

/-- What a landing writes. -/
@[simps] def Ledger.recordCommit (L : Ledger) (branch : String) (commit : Commit) : Ledger :=
  { L with
    vcs := some ⟨branch, (L.vcs.map (·.commits)).getD [] ++ [commit]⟩
    executionLog := appendEvent L.executionLog
      (landingEvent L.isolationScope commit.atTime commit.touchedPaths)
    control := { L.control with requiresLanding := true } }

variable {W : Type} (h : Host W) (repo : Repo W)

/-- A `git` call. -/
def Loop.git {α : Type} (call : W → Except PyErr α × W) : Loop W α := fun s =>
  ((call s.world).1, { s with world := (call s.world).2 })

/-- The commit of `land`. -/
def commitRun (branch message : String) : Loop W Unit := do
  let sha ← Loop.git (repo.commitAll branch message)
  let atTime ← Loop.clock h
  let touched ← Call.ofExcept (landedPaths (← Loop.ledger).executionLog)
  Loop.update (·.recordCommit branch ⟨sha, message, atTime, touched⟩)

/-- `land`. -/
def land (branch message : String) (gate : Option Gate) : Loop W RunResult := do
  if ← Loop.git repo.hasChanges then commitRun h repo branch message
  let ledger ← Loop.ledger
  let gateResult ← Call.ofExcept (runGate ledger.toDoc (gate.getD defaultGate))
  return ⟨ledger, gateResult⟩

end Runtime

end IplanRunner
