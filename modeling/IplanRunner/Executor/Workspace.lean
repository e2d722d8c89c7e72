import IplanRunner.Effectors.Apply
import IplanRunner.Executor.Actions

/-!
The effectors of a workspace, over trees with links.

* `checkTarget`, `applyWriteDoc`: `apply_write` on the values of an action; on texts it is
  `applyWrite`, as `applyWriteDoc_str` says.
* `applyWriteDoc_ok_iff`: what a write that returns has checked and done.
* `workspaceEffectors`: the three functions; what a command does to the tree is left to the system.
-/

namespace IplanRunner

open Foundation

/-- The exception of an errno. -/
def errnoName : Errno → String
  | .noent => "FileNotFoundError"
  | .notdir => "NotADirectoryError"
  | .loop => "OSError"
  | .exist => "FileExistsError"
  | .isdir => "IsADirectoryError"

/-- What a call of an effector raises. -/
def EffectError.raised : EffectError → PyErr
  | .denied message => .permissionError message
  | .resolution => .other "RuntimeError"
  | .nullByte => .valueError "embedded null byte"
  | .os errno => .other (errnoName errno)

section Write

variable (lim : Limits) (cwd : Loc) (workspace : String)

/-- What `apply_write` checks behind the jail: the target, when its deepest ancestor that exists is
in the workspace. -/
def checkTarget (path : String) (T : Tree) : Except EffectError Path :=
  match resolveWorkspace lim cwd workspace T with
  | .error e => .error e
  | .ok workspaceRoot =>
      let target := joinPath workspaceRoot path
      match T.realpath lim.depth [] ((existingAncestor lim T target.reverse).map some) with
      | none => .error .resolution
      | some resolved =>
          if resolved ≠ workspaceRoot ∧ workspaceRoot ∉ parents resolved then
            .error (.denied s!"sandbox denied {path}: SANDBOX.ESCAPE (realpath)")
          else .ok target

/-- The end of `apply_write`, once the target has passed: `write_text` refuses what is no text,
behind the `mkdir`. -/
def makeAndWriteDoc (path : String) (content : Val) (target : Path) (T : Tree) :
    Except PyErr String × Tree :=
  match content with
  | .str text =>
      let (r, T') := makeAndWrite lim path text target T
      (r.mapError EffectError.raised, T')
  | _ =>
      if hasNull target.dropLast then (.error EffectError.nullByte.raised, T)
      else
        match mkdirParents lim.links target.dropLast.reverse T with
        | (.error e, T') => (.error (EffectError.os e).raised, T')
        | (.ok (), T') => (.error .typeError, T')

/-- `apply_write`, on the values of an action. -/
def applyWriteDoc (path content : Val) (allowedRoots : List Val) (T : Tree) :
    Except PyErr String × Tree :=
  match path with
  | .str path =>
      match classifyDoc path allowedRoots [] with
      | .error e => (.error e, T)
      | .ok decision =>
          let reason := decision.reason
          if !decision.allowed then
            (.error (.permissionError s!"sandbox denied {path}: {reason}"), T)
          else
            match checkTarget lim cwd workspace path T with
            | .error e => (.error e.raised, T)
            | .ok target => makeAndWriteDoc lim path content target T
  | _ => (.error .typeError, T)

/-- **On texts** it is `apply_write`. -/
theorem applyWriteDoc_str (path content : String) (roots : List String) (T : Tree) :
    applyWriteDoc lim cwd workspace (.str path) (.str content) (roots.map .str) T
      = ((applyWrite lim cwd path content workspace roots T).1.mapError EffectError.raised,
          (applyWrite lim cwd path content workspace roots T).2) := by
  have hdecision : classifyDoc path (roots.map .str) [] = .ok (classifyPath path roots) :=
    classifyDoc_str path roots []
  rw [applyWriteDoc, applyWrite, hdecision]
  dsimp only
  by_cases hallowed : (classifyPath path roots).allowed = true
  swap
  · rw [if_pos (by simpa using hallowed), if_pos (by simpa using hallowed)]
    rfl
  rw [if_neg (by simpa using hallowed), if_neg (by simpa using hallowed), checkTarget]
  cases resolveWorkspace lim cwd workspace T with
  | error e => rfl
  | ok root =>
      dsimp only
      cases T.realpath lim.depth []
          ((existingAncestor lim T (joinPath root path).reverse).map some) with
      | none => rfl
      | some resolved =>
          dsimp only
          by_cases hout : resolved ≠ root ∧ root ∉ parents resolved
          · rw [if_pos hout, if_pos hout]
            rfl
          · rw [if_neg hout, if_neg hout]
            rfl

/-! ### What a write that returns has done -/

/-- The deepest ancestor of the path that exists is, links followed, in the workspace. -/
def AncestorInside (T : Tree) (root : Loc) (path : String) : Prop :=
  ∃ resolved, T.realpath lim.depth []
    ((existingAncestor lim T (joinPath root path).reverse).map some) = some resolved
      ∧ root <+: resolved

lemma checkTarget_ok_iff {path : String} {T : Tree} {target : Path} :
    checkTarget lim cwd workspace path T = .ok target
      ↔ ∃ root, resolveWorkspace lim cwd workspace T = .ok root
        ∧ AncestorInside lim T root path ∧ target = joinPath root path := by
  rw [checkTarget]
  cases resolveWorkspace lim cwd workspace T with
  | error e => simp
  | ok root =>
      simp only [Except.ok.injEq, exists_eq_left', AncestorInside]
      cases T.realpath lim.depth []
          ((existingAncestor lim T (joinPath root path).reverse).map some) with
      | none => simp
      | some resolved =>
          dsimp only
          by_cases hin : root <+: resolved
          · rw [if_neg (mem_parents_or_eq.mpr hin)]
            simp [hin, eq_comm]
          · rw [if_pos (by_contra fun h => hin (mem_parents_or_eq.mp h))]
            simp [hin]

/-- **What a write that returns has checked and done.** -/
theorem applyWriteDoc_ok_iff {path content : Val} {allowedRoots : List Val} {T T' : Tree}
    {p : String} : applyWriteDoc lim cwd workspace path content allowedRoots T = (.ok p, T')
      ↔ path = .str p ∧ (∃ reason, classifyDoc p allowedRoots [] = .ok ⟨true, reason⟩)
        ∧ ∃ text root, content = .str text ∧ resolveWorkspace lim cwd workspace T = .ok root
          ∧ AncestorInside lim T root p ∧ hasNull (joinPath root p) = false
          ∧ ∃ T₁ loc, Tree.made lim.links [] (joinPath root p).dropLast T = some T₁
            ∧ T₁.opens lim.links (joinPath root p) = some loc
            ∧ T' = T₁.put loc (.file text) := by
  have hdoc : ∀ {path : String} {target : Path},
    makeAndWriteDoc lim path content target T = (.ok p, T')
      ↔ ∃ text, content = .str text ∧ makeAndWrite lim path text target T = (.ok p, T') := by
    intro path target
    cases content with
    | str text =>
        simp only [makeAndWriteDoc, Val.str.injEq, exists_eq_left']
        rcases makeAndWrite lim path text target T with ⟨e | p', T₁⟩ <;> simp [Except.mapError]
    | _ =>
        simp only [makeAndWriteDoc, reduceCtorEq, false_and, exists_false, iff_false]
        split
        · simp
        · split <;> simp
  cases path with
  | str path =>
      rw [applyWriteDoc]
      rcases hclass : classifyDoc path allowedRoots [] with e | ⟨allowed, reason⟩
      · refine ⟨fun h => absurd (congrArg Prod.fst h) (by simp), ?_⟩
        rintro ⟨hp, ⟨reason, hreason⟩, -⟩
        cases hp
        rw [hclass] at hreason
        cases hreason
      cases allowed with
      | false =>
          refine ⟨fun h => absurd (congrArg Prod.fst h) (by simp), ?_⟩
          rintro ⟨hp, ⟨reason, hreason⟩, -⟩
          cases hp
          rw [hclass] at hreason
          cases hreason
      | true =>
          dsimp only
          rw [if_neg (by simp)]
          cases hcheck : checkTarget lim cwd workspace path T with
          | error e =>
              refine ⟨fun h => absurd (congrArg Prod.fst h) (by simp), ?_⟩
              rintro ⟨hp, -, text, root, -, hroot, hinside, -⟩
              cases hp
              have hok := (checkTarget_ok_iff lim cwd workspace).mpr ⟨root, hroot, hinside, rfl⟩
              rw [hcheck] at hok
              cases hok
          | ok target =>
              obtain ⟨root, hroot, hinside, rfl⟩ := (checkTarget_ok_iff lim cwd workspace).mp hcheck
              dsimp only
              rw [hdoc]
              simp only [makeAndWrite_ok_iff]
              constructor
              · rintro ⟨text, htext, rfl, hnull, T₁, loc, hmade⟩
                exact ⟨rfl, ⟨reason, hclass⟩, text, root, htext, hroot, hinside, hnull, T₁, loc,
                  hmade⟩
              · rintro ⟨hp, -, text, root', htext, hroot', -, hnull, T₁, loc, hmade⟩
                cases hp
                rw [hroot] at hroot'
                cases hroot'
                exact ⟨text, htext, rfl, hnull, T₁, loc, hmade⟩
  | _ => simp [applyWriteDoc]

end Write

/-! ### The effectors -/

/-- The effectors of a workspace, beside a world of its own the commands see. -/
def workspaceEffectors {X : Type} (lim : Limits) (cwd : Loc) (workspace : String)
    (command : Val → Call PyErr (Tree × X) CommandOutcome) : Effectors (Tree × X) where
  applyWrite := fun path content roots =>
    Call.onFst (applyWriteDoc lim cwd workspace path content roots)
  runCommand := command
  undoWrites := fun paths => Call.onFst fun T =>
    let (r, T') := undoWrites lim cwd paths workspace T
    (r.mapError EffectError.raised, T')

/-- A write that returns is one the jail allows, of the path it was given. -/
def Effectors.Jailed {W : Type} (eff : Effectors W) : Prop :=
  ∀ path content roots w p w', eff.applyWrite path content roots w = (.ok p, w') →
    path = .str p ∧ ∃ reason, classifyDoc p roots [] = .ok ⟨true, reason⟩

theorem workspaceEffectors_jailed {X : Type} (lim : Limits) (cwd : Loc) (workspace : String)
    (command : Val → Call PyErr (Tree × X) CommandOutcome) :
    (workspaceEffectors lim cwd workspace command).Jailed := by
  intro path content roots w p w' h
  have hwrite : applyWriteDoc lim cwd workspace path content roots w.1 = (.ok p, w'.1) := by
    have hpair := congrArg (fun r => (r.1, r.2.1)) h
    exact hpair
  obtain ⟨hpath, hallowed, -⟩ := (applyWriteDoc_ok_iff lim cwd workspace).mp hwrite
  exact ⟨hpath, hallowed⟩

end IplanRunner
