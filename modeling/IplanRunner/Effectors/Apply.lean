import Mathlib.Data.List.Infix
import IplanRunner.Effectors.Sandbox
import IplanRunner.Foundation.MadeParents

/-!
Writes and their undoing in a workspace (`effectors/apply.py`, `effectors/compensate.py`), over
trees with links.

* `applyWrite`, `undoWrites`: the two functions; a call that raises leaves what it has made.
* `applyWrite_ok_iff`: what a write that returns has checked, made and written.
* `LedOut`: with its missing directories made, the path leads outside of the workspace.
* `effects_inside_iff`: a write stays inside exactly when it is not led out; an undoing always does.
* `ledOut_iff_dangling`: a path without steps up is led out by its last name alone, a link to a file
  that does not exist.
-/

namespace IplanRunner

open Foundation

/-! ### The functions -/

/-- What a call raises: a `PermissionError`, the `RuntimeError` of a resolution, the `ValueError` of
a null byte, or an `OSError`. -/
inductive EffectError where
  | denied (message : String)
  | resolution
  | nullByte
  | os (errno : Errno)
  deriving DecidableEq

/-- How many links the system follows on a path, and how deep `realpath` nests them. -/
structure Limits where
  links : ℕ
  depth : ℕ

/-- A name of the path holds a null byte, which no call of the system takes. -/
def hasNull (path : Path) : Bool :=
  path.any fun s => s.text.contains (Char.ofNat 0)

/-- `Path(workspace).resolve()`. -/
def resolveWorkspace (lim : Limits) (cwd : Loc) (workspace : String) (T : Tree) :
    Except EffectError Loc :=
  if workspace.toList.contains (Char.ofNat 0) then .error .nullByte
  else
    match T.realpath lim.depth (if isabs workspace.toList then [] else cwd)
        (compsOf workspace.toList) with
    | some root => .ok root
    | none => .error .resolution

/-- `root / path`. -/
def joinPath (root : Loc) (path : String) : Path :=
  if isabs path.toList then stepsOf path.toList else root.map .down ++ stepsOf path.toList

/-- The loop of `apply_write` up to the deepest ancestor that exists, on the parts of the path from
the last one on. -/
def existingAncestor (lim : Limits) (T : Tree) : Path → Path
  | [] => []
  | s :: above =>
      if !hasNull (above.reverse ++ [s]) && T.pathExists lim.links (above.reverse ++ [s]) then
        above.reverse ++ [s]
      else existingAncestor lim T above

instance : LawfulBEq Loc := inferInstance

/-- `parents`. -/
def parents : Loc → List Loc
  | [] => []
  | n :: loc => (n :: loc).dropLast.inits

/-- The end of `apply_write`, once the target has passed. -/
def makeAndWrite (lim : Limits) (path content : String) (target : Path) (T : Tree) :
    Except EffectError String × Tree :=
  if hasNull target.dropLast then (.error .nullByte, T)
  else
    match mkdirParents lim.links target.dropLast.reverse T with
    | (.error e, T') => (.error (.os e), T')
    | (.ok (), T') =>
        if hasNull target then (.error .nullByte, T')
        else
          match T'.writeText lim.links target content with
          | .error e => (.error (.os e), T')
          | .ok T'' => (.ok path, T'')

/-- `apply_write`. -/
def applyWrite (lim : Limits) (cwd : Loc) (path content workspace : String)
    (allowedRoots : List String) (T : Tree) : Except EffectError String × Tree :=
  let decision := classifyPath path allowedRoots
  let reason := decision.reason
  if !decision.allowed then (.error (.denied s!"sandbox denied {path}: {reason}"), T)
  else
    match resolveWorkspace lim cwd workspace T with
    | .error e => (.error e, T)
    | .ok workspaceRoot =>
        let target := joinPath workspaceRoot path
        match T.realpath lim.depth [] ((existingAncestor lim T target.reverse).map some) with
        | none => (.error .resolution, T)
        | some resolved =>
            if resolved ≠ workspaceRoot ∧ workspaceRoot ∉ parents resolved then
              (.error (.denied s!"sandbox denied {path}: SANDBOX.ESCAPE (realpath)"), T)
            else makeAndWrite lim path content target T

/-- The loop of `undo_writes`. -/
def undoFrom (lim : Limits) (root : Loc) :
    List String → Tree → Except EffectError (List String) × Tree
  | [], T => (.ok [], T)
  | path :: rest, T =>
      if hasNull (joinPath root path) then (.error .nullByte, T)
      else
        match T.realpath lim.depth [] ((joinPath root path).map some) with
        | none => (.error .resolution, T)
        | some target =>
            if root.isPrefixOf target && T.isFile lim.links (target.map .down) then
              match T.unlink lim.links (target.map .down) with
              | .error e => (.error (.os e), T)
              | .ok T' =>
                  match undoFrom lim root rest T' with
                  | (.error e, T'') => (.error e, T'')
                  | (.ok removed, T'') => (.ok (path :: removed), T'')
            else undoFrom lim root rest T

/-- `undo_writes`. -/
def undoWrites (lim : Limits) (cwd : Loc) (touchedPaths : List String) (workspace : String)
    (T : Tree) : Except EffectError (List String) × Tree :=
  match resolveWorkspace lim cwd workspace T with
  | .error e => (.error e, T)
  | .ok root => undoFrom lim root touchedPaths T

/-! ### Undoing -/

/-- Every entry that is different is a file that has been removed, under the root. -/
def RemovedInside (root : Loc) (T T' : Tree) : Prop :=
  ∀ loc, T'.node loc ≠ T.node loc →
    root <+: loc ∧ T'.node loc = none ∧ ∃ content, T.node loc = some (.file content)

/-- `unlink` on a location without links removes that location, when a file is there. -/
lemma unlink_of_straight {T T' : Tree} {links : ℕ} {loc : Loc} (hstraight : T.Straight loc)
    (hfile : T.isFile links (loc.map .down) = true)
    (h : T.unlink links (loc.map .down) = .ok T') :
    T' = T.remove loc ∧ ∃ content, T.node loc = some (.file content) := by
  have hcontent : ∃ content, T.node loc = some (.file content) := by
    rw [Tree.isFile] at hfile
    split at hfile
    · rename_i content hstat
      rw [Tree.stat] at hstat
      split at hstat
      · rename_i d j hlook
        obtain rfl := hstraight.look hlook
        exact ⟨content, hstat⟩
      · exact absurd hstat (by simp)
    · exact absurd hfile (by simp)
  refine ⟨?_, hcontent⟩
  obtain ⟨content, hnode⟩ := hcontent
  rcases List.eq_nil_or_concat loc with rfl | ⟨above, n, rfl⟩
  · rw [T.top] at hnode
    exact absurd hnode (by simp)
  · rw [List.concat_eq_append] at hstraight hnode h ⊢
    rw [List.map_append, List.map_singleton, Tree.unlink, List.getLast?_concat,
      List.dropLast_concat] at h
    dsimp only at h
    split at h
    · rename_i d j hlook
      obtain rfl : d = above := (hstraight.mono (List.prefix_append _ _)).look hlook
      split at h
      · exact absurd h (by simp)
      · rw [hnode] at h
        exact (Except.ok.inj h).symm
    · exact absurd h (by simp)

lemma removedInside_refl (root : Loc) (T : Tree) : RemovedInside root T T :=
  fun _ hne => absurd rfl hne

lemma RemovedInside.trans {root : Loc} {T T' T'' : Tree} (h : RemovedInside root T T')
    (h' : RemovedInside root T' T'') : RemovedInside root T T'' := by
  intro loc hne
  by_cases hsame : T'.node loc = T.node loc
  · rw [← hsame] at hne ⊢
    exact h' loc hne
  · obtain ⟨hin, hnone, hfile⟩ := h loc hsame
    refine ⟨hin, ?_, hfile⟩
    by_contra hagain
    have hne' : T''.node loc ≠ T'.node loc := by rwa [hnone]
    obtain ⟨-, hnone', -⟩ := h' loc hne'
    exact hagain hnone'

/-- **Undoing removes files under the root only.** -/
theorem undoFrom_inside (lim : Limits) (root : Loc) (paths : List String) (T : Tree) :
    RemovedInside root T (undoFrom lim root paths T).2 := by
  induction paths generalizing T with
  | nil => exact removedInside_refl root T
  | cons path rest ih =>
      rw [undoFrom]
      split
      · exact removedInside_refl root T
      · split
        · exact removedInside_refl root T
        · rename_i target htarget
          split
          · rename_i hchecks
            rw [Bool.and_eq_true, List.isPrefixOf_iff_prefix] at hchecks
            split
            · exact removedInside_refl root T
            · rename_i T₁ hunlink
              have hstraight := Tree.realpath_straight Tree.straight_top htarget
              obtain ⟨rfl, content, hfile⟩ := unlink_of_straight hstraight hchecks.2 hunlink
              have hstep : RemovedInside root T (T.remove target) := by
                intro loc hne
                by_cases hloc : loc = target
                · subst hloc
                  exact ⟨hchecks.1, Tree.remove_node_self (Tree.leaf_of_file hfile), content, hfile⟩
                · exact absurd (Tree.remove_node_of_ne hloc) hne
              have hrest := hstep.trans (ih (T.remove target))
              split
              · rename_i heq; rw [heq] at hrest; exact hrest
              · rename_i heq; rw [heq] at hrest; exact hrest
          · exact ih T

/-! ### Writing -/

/-- Every file made or changed is under the root. -/
def FilesInside (root : Loc) (T T' : Tree) : Prop :=
  ∀ loc content, T'.node loc = some (.file content) → T.node loc ≠ some (.file content) →
    root <+: loc

/-- What `apply_write` checks before it makes anything: the jail allows the path, and the deepest
ancestor that exists is, links followed, in the workspace. -/
structure Checked (lim : Limits) (T : Tree) (root : Loc) (path : String)
    (allowedRoots : List String) : Prop where
  allowed : (classifyPath path allowedRoots).allowed = true
  inside : ∃ resolved, T.realpath lim.depth []
    ((existingAncestor lim T (joinPath root path).reverse).map some) = some resolved
      ∧ root <+: resolved

/-- With its missing directories made, the path leads to a place at which a file can be written. -/
def LeadsTo (lim : Limits) (T : Tree) (root : Loc) (path : String) (loc : Loc) : Prop :=
  hasNull (joinPath root path) = false ∧
    ∃ T₁, Tree.made lim.links [] (joinPath root path).dropLast T = some T₁
      ∧ T₁.opens lim.links (joinPath root path) = some loc

/-- With its missing directories made, the path leads out of the workspace, to a place that does not
hold the content already. -/
def LedOut (lim : Limits) (T : Tree) (root : Loc) (path content : String) : Prop :=
  ∃ loc, LeadsTo lim T root path loc ∧ T.node loc ≠ some (.file content) ∧ ¬ root <+: loc

lemma mem_parents_or_eq {root resolved : Loc} :
    ¬ (resolved ≠ root ∧ root ∉ parents resolved) ↔ root <+: resolved := by
  cases resolved with
  | nil =>
      rw [parents, List.prefix_nil]
      simp [eq_comm]
  | cons n loc =>
      rw [parents, List.mem_inits, not_and_or, not_not, not_not]
      constructor
      · rintro (rfl | h)
        · exact List.prefix_refl _
        · exact h.trans (List.dropLast_prefix _)
      · intro h
        by_cases heq : n :: loc = root
        · exact Or.inl heq
        · obtain ⟨rest, hrest⟩ := h
          have hne : rest ≠ [] := by
            rintro rfl
            exact heq (by rw [← hrest, List.append_nil])
          refine Or.inr ⟨rest.dropLast, ?_⟩
          rw [← hrest, List.dropLast_append_of_ne_nil hne]

lemma hasNull_dropLast {path : Path} (h : hasNull path = false) :
    hasNull path.dropLast = false := by
  rw [hasNull, List.any_eq_false] at h ⊢
  exact fun s hs => h s (List.dropLast_subset _ hs)

/-- **What a write that returns has done.** -/
theorem makeAndWrite_ok_iff (lim : Limits) (path content : String) (target : Path) (T T' : Tree)
    (p : String) : makeAndWrite lim path content target T = (.ok p, T')
      ↔ p = path ∧ hasNull target = false
        ∧ ∃ T₁ loc, Tree.made lim.links [] target.dropLast T = some T₁
          ∧ T₁.opens lim.links target = some loc ∧ T' = T₁.put loc (.file content) := by
  rw [makeAndWrite]
  by_cases hnull : hasNull target.dropLast = true
  · rw [if_pos hnull]
    refine ⟨fun h => absurd (congrArg Prod.fst h) (by simp), ?_⟩
    rintro ⟨-, hfree, -⟩
    rw [hasNull_dropLast hfree] at hnull
    exact absurd hnull (by simp)
  rw [if_neg hnull]
  obtain ⟨hmade, hunmade⟩ := Tree.mkdirParents_eq lim.links target.dropLast T
  cases hmk : Tree.made lim.links [] target.dropLast T with
  | none =>
      obtain ⟨e, T', he⟩ := hunmade hmk
      rw [he]
      refine ⟨fun h => absurd (congrArg Prod.fst h) (by simp), ?_⟩
      rintro ⟨-, -, T₁, loc, h, -⟩
      exact absurd h (by simp)
  | some T₁ =>
      rw [hmade T₁ hmk]
      dsimp only
      by_cases hfull : hasNull target = true
      · rw [if_pos hfull]
        refine ⟨fun h => absurd (congrArg Prod.fst h) (by simp), ?_⟩
        rintro ⟨-, hfree, -⟩
        rw [hfree] at hfull
        exact absurd hfull (by simp)
      · rw [if_neg hfull]
        rw [Bool.not_eq_true] at hfull
        cases hopens : T₁.opens lim.links target with
        | some loc =>
            rw [Tree.writeText_of_opens hopens]
            constructor
            · intro h
              cases h
              exact ⟨rfl, hfull, T₁, loc, rfl, hopens, rfl⟩
            · rintro ⟨rfl, -, T₂, loc', hT, hopens', rfl⟩
              cases hT
              rw [hopens] at hopens'
              cases hopens'
              rfl
        | none =>
            obtain ⟨e, he⟩ := Tree.writeText_of_not_opens hopens content
            rw [he]
            refine ⟨fun h => absurd (congrArg Prod.fst h) (by simp), ?_⟩
            rintro ⟨-, -, T₂, loc, hT, hopens', -⟩
            cases hT
            rw [hopens] at hopens'
            exact absurd hopens' (by simp)

/-- **What a write that returns has checked and done.** -/
theorem applyWrite_ok_iff (lim : Limits) (cwd : Loc) (path content workspace : String)
    (allowedRoots : List String) (T T' : Tree) (p : String) :
    applyWrite lim cwd path content workspace allowedRoots T = (.ok p, T')
      ↔ p = path ∧ ∃ root, resolveWorkspace lim cwd workspace T = .ok root
        ∧ Checked lim T root path allowedRoots ∧ hasNull (joinPath root path) = false
        ∧ ∃ T₁ loc, Tree.made lim.links [] (joinPath root path).dropLast T = some T₁
          ∧ T₁.opens lim.links (joinPath root path) = some loc
            ∧ T' = T₁.put loc (.file content) := by
  rw [applyWrite]
  dsimp only
  by_cases hallowed : (classifyPath path allowedRoots).allowed = true
  swap
  · rw [if_pos (by simpa using hallowed)]
    refine ⟨fun h => absurd (congrArg Prod.fst h) (by simp), ?_⟩
    rintro ⟨-, root, -, hchecked, -⟩
    exact absurd hchecked.allowed hallowed
  rw [if_neg (by simpa using hallowed)]
  cases hroot : resolveWorkspace lim cwd workspace T with
  | error e =>
      refine ⟨fun h => absurd (congrArg Prod.fst h) (by simp), ?_⟩
      rintro ⟨-, root, h, -⟩
      exact absurd h (by simp)
  | ok root =>
      dsimp only
      cases hreal : T.realpath lim.depth []
          ((existingAncestor lim T (joinPath root path).reverse).map some) with
      | none =>
          refine ⟨fun h => absurd (congrArg Prod.fst h) (by simp), ?_⟩
          rintro ⟨-, root', h, hchecked, -⟩
          cases h
          obtain ⟨resolved, h, -⟩ := hchecked.inside
          rw [hreal] at h
          exact absurd h (by simp)
      | some resolved =>
          dsimp only
          by_cases hin : root <+: resolved
          · rw [if_neg (mem_parents_or_eq.mpr hin), makeAndWrite_ok_iff]
            constructor
            · rintro ⟨hp, h⟩
              exact ⟨hp, root, rfl, ⟨hallowed, resolved, hreal, hin⟩, h⟩
            · rintro ⟨hp, root', h, -, hrest⟩
              cases h
              exact ⟨hp, hrest⟩
          · rw [if_pos (by_contra fun h => hin (mem_parents_or_eq.mp h))]
            refine ⟨fun h => absurd (congrArg Prod.fst h) (by simp), ?_⟩
            rintro ⟨-, root', h, hchecked, -⟩
            cases h
            obtain ⟨resolved', h, hin'⟩ := hchecked.inside
            rw [hreal] at h
            cases h
            exact absurd hin' hin

/-- The write changes one file, behind what is made. -/
lemma filesInside_put_iff {root loc : Loc} {T T₁ : Tree} {content : String} (hgrows : T.Grows T₁)
    (hleaf : T₁.Leaf loc) : FilesInside root T (T₁.put loc (.file content))
      ↔ (T.node loc ≠ some (.file content) → root <+: loc) := by
  constructor
  · intro h hne
    exact h loc content (by rw [Tree.put_node hleaf, if_pos rfl]) hne
  · intro h l c hnew hold
    rw [Tree.put_node hleaf] at hnew
    split at hnew
    · rename_i hl
      cases hnew
      rw [hl] at hold ⊢
      exact h hold
    · rcases hgrows l with hsame | ⟨-, hdir⟩
      · rw [hsame] at hnew
        exact absurd hnew hold
      · rw [hdir] at hnew
        exact absurd hnew (by simp)

/-- **Effects stay inside the workspace** exactly when the write is not led out; an undoing never
leaves it, whether it returns or raises. -/
theorem effects_inside_iff (lim : Limits) (cwd : Loc) (path content workspace : String)
    (allowedRoots touchedPaths : List String) (T : Tree) :
    ((∀ p T' root, applyWrite lim cwd path content workspace allowedRoots T = (.ok p, T') →
        resolveWorkspace lim cwd workspace T = .ok root → FilesInside root T T')
      ↔ ∀ root, resolveWorkspace lim cwd workspace T = .ok root →
        Checked lim T root path allowedRoots → ¬ LedOut lim T root path content)
    ∧ ∀ root, resolveWorkspace lim cwd workspace T = .ok root →
      RemovedInside root T (undoWrites lim cwd touchedPaths workspace T).2 := by
  refine ⟨⟨?_, ?_⟩, ?_⟩
  · rintro hinside root hroot hchecked ⟨loc, ⟨hnull, T₁, hmade, hopens⟩, hcontent, hout⟩
    have happly := (applyWrite_ok_iff lim cwd path content workspace allowedRoots T
      (T₁.put loc (.file content)) path).mpr
        ⟨rfl, root, hroot, hchecked, hnull, T₁, loc, hmade, hopens, rfl⟩
    have hfiles := hinside _ _ root happly hroot
    rw [filesInside_put_iff (Tree.made_grows hmade).1 (Tree.leaf_of_opens hopens)] at hfiles
    exact hout (hfiles hcontent)
  · intro hnot p T' root happly hroot
    obtain ⟨-, root', hroot', hchecked, hnull, T₁, loc, hmade, hopens, rfl⟩ :=
      (applyWrite_ok_iff ..).mp happly
    rw [hroot] at hroot'
    cases hroot'
    rw [filesInside_put_iff (Tree.made_grows hmade).1 (Tree.leaf_of_opens hopens)]
    intro hcontent
    by_contra hout
    exact hnot root hroot hchecked ⟨loc, ⟨hnull, T₁, hmade, hopens⟩, hcontent, hout⟩
  · intro root hroot
    rw [undoWrites, hroot]
    exact undoFrom_inside lim root touchedPaths T

/-- The location of a text. -/
def locOf (text : String) : Loc :=
  (stepsOf text.toList).filterMap fun s => match s with
    | .up => none
    | .down n => some n

/-- A tree with these entries, each in a directory given before. -/
def treeOf (entries : List (String × Node)) : Tree :=
  entries.foldl (fun T e => T.put (locOf e.1) e.2) Tree.empty

/-- A workspace `/w` with one root, and a directory outside of it. -/
def workspaceTree (entries : List (String × Node)) : Tree :=
  treeOf ([("w", .dir), ("w/src", .dir), ("o", .dir)] ++ entries)

/-- The write of `"x"` to a path under `src/` returns, and the place outside of the workspace holds
it afterwards and not before. -/
def WritesOutside (entries : List (String × Node)) (path outside : String) : Prop :=
  (applyWrite ⟨40, 100⟩ [] path "x" "/w" ["src/"] (workspaceTree entries)).1 = .ok path
    ∧ (applyWrite ⟨40, 100⟩ [] path "x" "/w" ["src/"] (workspaceTree entries)).2.node
      (locOf outside) = some (.file "x")
    ∧ (workspaceTree entries).node (locOf outside) ≠ some (.file "x")
    ∧ resolveWorkspace ⟨40, 100⟩ [] "/w" (workspaceTree entries) = .ok (locOf "w")
    ∧ ¬ locOf "w" <+: locOf outside

/-- **Writes that leave the workspace**: through a link to a file that does not exist; over an
existing file behind a link the check has not seen, a directory before it being missing; and up from
a directory that has to be made first, behind a link back to the workspace. -/
theorem effects_not_inside :
    WritesOutside [("w/src/a", .link "../../o/new".toList)] "src/a" "o/new"
    ∧ WritesOutside [("o/f", .file "old"), ("w/src/a", .link "../../o/f".toList)]
      "src/n/../a" "o/f"
    ∧ WritesOutside [("w/src/l", .link "..".toList)] "src/l/n/../../o/../../src/y" "src/y" := by
  refine ⟨⟨?_, ?_, ?_, ?_, ?_⟩, ⟨?_, ?_, ?_, ?_, ?_⟩, ⟨?_, ?_, ?_, ?_, ?_⟩⟩ <;> decide +kernel

/-! ### Paths without steps up -/

/-- The loop ends at the longest part of the path that leads somewhere. -/
lemma existingAncestor_spec (lim : Limits) (T : Tree) {path : Path} (hnull : hasNull path = false) :
    ∃ above rest, path = above ++ rest ∧ existingAncestor lim T path.reverse = above
      ∧ (∃ d j, T.look lim.links above = .found d j)
      ∧ ∀ s rest', rest = s :: rest' → ∀ d j, T.look lim.links (above ++ [s]) ≠ .found d j := by
  induction path using List.reverseRecOn with
  | nil => exact ⟨[], [], rfl, rfl, ⟨[], _, T.look_nil _⟩, fun _ _ h => absurd h (by simp)⟩
  | append_singleton path s ih =>
      rw [List.reverse_append, List.reverse_singleton, List.singleton_append, existingAncestor,
        List.reverse_reverse, hnull, Bool.not_false, Bool.true_and, Tree.pathExists]
      cases hlook : T.look lim.links (path ++ [s]) with
      | found d j =>
          exact ⟨path ++ [s], [], (List.append_nil _).symm, rfl, ⟨d, j, hlook⟩,
            fun _ _ h => absurd h (by simp)⟩
      | _ =>
          have hinit : hasNull path = false := by
            have hdrop := hasNull_dropLast hnull
            rwa [List.dropLast_concat] at hdrop
          obtain ⟨above, rest, hpath, hanc, hfound, hstop⟩ := ih hinit
          refine ⟨above, rest ++ [s], by rw [hpath, List.append_assoc], by simpa using hanc, hfound,
            fun s' rest' hrest d j hlook' => ?_⟩
          cases rest with
          | nil =>
              cases hrest
              rw [List.append_nil] at hpath
              rw [hpath, hlook'] at hlook
              exact absurd hlook (by simp)
          | cons first rest =>
              cases hrest
              exact hstop _ rest rfl d j hlook'

/-- A path without steps up behind which a directory has to be made ends below that directory. -/
lemma opens_below {T : Tree} {links : ℕ} {above mid : Path} {first last : Step Name} {d : Loc}
    {j : ℕ} (hlook : T.look links above = .found d j)
    (hstop : ∀ d j, T.look links (above ++ [first]) ≠ .found d j)
    (hup : .up ∉ mid ++ [last]) :
    (∀ T₁ loc, Tree.made links [] (above ++ first :: mid) T = some T₁ →
        T₁.opens links (above ++ first :: mid ++ [last]) = some loc → d <+: loc)
      ∧ ∀ loc, T.look links (above ++ first :: mid ++ [last]) ≠ .fresh loc := by
  have hassoc : above ++ first :: mid ++ [last] = above ++ [first] ++ (mid ++ [last]) := by
    simp only [List.append_assoc, List.cons_append, List.nil_append]
  constructor
  · intro T₁ loc hmade hopens
    rw [Tree.made_append, Tree.made_of_look (by simp [hlook]) (by simp [hlook])] at hmade
    split at hmade
    swap
    · exact absurd hmade (by simp)
    rw [Option.bind_some, List.nil_append, Tree.made] at hmade
    obtain ⟨T₂, hstep, hmid⟩ := Option.bind_eq_some_iff.mp hmade
    rcases Tree.makeStep_cases hstep with ⟨-, hdir⟩ | ⟨n, d', j', rfl, hlook', hdir, hn, rfl⟩
    · obtain ⟨d', j', hfound, -⟩ := Tree.isDir_iff.mp hdir
      exact absurd hfound (hstop d' j')
    rw [hlook] at hlook'
    cases hlook'
    obtain ⟨names, rfl⟩ := exists_names fun hmem => hup (List.mem_append_left _ hmem)
    obtain ⟨hnext, hbelow⟩ := Tree.look_put_dir hlook hdir hn
    obtain ⟨T₃, hmade₃, -, hlook₃, hdir₃, hempty₃⟩ :=
      Tree.made_straight hnext (Tree.grows_put hdir hn).2 hbelow names
    rw [hmid] at hmade₃
    cases hmade₃
    cases last with
    | up => exact absurd (List.mem_append_right _ (List.mem_singleton_self _)) hup
    | down m =>
        rw [hassoc, ← List.append_assoc, Tree.opens, Tree.look_snoc, hlook₃, Tree.andThen,
          (Tree.lookup_single hdir₃ j).2 m (hempty₃ m)] at hopens
        cases hopens
        rw [List.append_assoc, List.append_assoc]
        exact List.prefix_append _ _
  · intro loc hfresh
    rw [hassoc, Tree.look_append] at hfresh
    cases hfirst : T.look links (above ++ [first]) with
    | found d' j' => exact hstop d' j' hfirst
    | fresh loc' =>
        rw [hfirst, Tree.andThen, if_neg (by simp)] at hfresh
        exact absurd hfresh (by simp)
    | fails e =>
        rw [hfirst] at hfresh
        exact absurd hfresh (by simp [Tree.andThen])

/-- **Without steps up a path is led out by its last name alone**: a link, to a place outside at
which nothing is yet. -/
theorem ledOut_iff_dangling {lim : Limits} {T : Tree} {root : Loc} {path : String}
    {allowedRoots : List String} (hchecked : Checked lim T root path allowedRoots)
    (hnull : hasNull (joinPath root path) = false) (hup : .up ∉ joinPath root path)
    (content : String) : LedOut lim T root path content
      ↔ ∃ loc, T.look lim.links (joinPath root path) = .fresh loc ∧ ¬ root <+: loc := by
  obtain ⟨resolved, hreal, hin⟩ := hchecked.inside
  obtain ⟨above, rest, hpath, hanc, ⟨d, j, hlook⟩, hstop⟩ := existingAncestor_spec lim T hnull
  rw [hanc] at hreal
  obtain rfl : resolved = d := Tree.realpath_of_found hlook hreal
  rw [LedOut]
  simp only [LeadsTo, hnull, true_and]
  generalize joinPath root path = target at hpath hup
  subst hpath
  rcases List.eq_nil_or_concat rest with rfl | ⟨mid, last, rfl⟩
  · -- the path exists, and is inside
    rw [List.append_nil]
    constructor
    · rintro ⟨loc, ⟨T₁, hmade, hopens⟩, -, hout⟩
      have hlook₁ : T₁.look lim.links above = .found resolved j :=
        (Tree.made_grows hmade).1.lookup hlook
      rw [Tree.opens, hlook₁] at hopens
      dsimp only at hopens
      split at hopens
      · cases hopens
        exact absurd hin hout
      · exact absurd hopens (by simp)
    · rintro ⟨loc, hfresh, -⟩
      rw [hlook] at hfresh
      exact absurd hfresh (by simp)
  rw [List.concat_eq_append, ← List.append_assoc, List.dropLast_concat] at *
  cases mid with
  | nil =>
      -- the last name alone is missing: nothing is made
      rw [List.append_nil] at *
      rw [Tree.made_of_look (by simp [hlook]) (by simp [hlook])]
      constructor
      · rintro ⟨loc, ⟨T₁, hmade, hopens⟩, -, hout⟩
        split at hmade
        · cases hmade
          rw [Tree.opens] at hopens
          split at hopens
          · rename_i d j' hlast
            exact absurd hlast (hstop last [] rfl d j')
          · rename_i hlast
            cases hopens
            exact ⟨_, hlast, hout⟩
          · exact absurd hopens (by simp)
        · exact absurd hmade (by simp)
      · rintro ⟨loc, hfresh, hout⟩
        have hdir : T.isDir lim.links above = true := by
          refine Tree.isDir_iff.mpr ⟨resolved, j, hlook, ?_⟩
          by_contra hdir
          rw [T.look_snoc, hlook, Tree.andThen, Tree.lookup_notdir hdir] at hfresh
          exact absurd hfresh (by simp)
        obtain ⟨-, -, -, -, hnone⟩ := Tree.lookup_fresh hfresh
        refine ⟨loc, ⟨T, by rw [if_pos hdir], by rw [Tree.opens, hfresh]⟩, ?_, hout⟩
        rw [hnone]
        simp
  | cons first mid =>
      have hup' : .up ∉ mid ++ [last] := by
        intro hmem
        refine hup ?_
        rw [List.append_assoc, List.cons_append]
        exact List.mem_append_right _ (List.mem_cons_of_mem _ hmem)
      obtain ⟨hbelow, hfresh⟩ := opens_below hlook (hstop first (mid ++ [last]) rfl) hup'
      constructor
      · rintro ⟨loc, ⟨T₁, hmade, hopens⟩, -, hout⟩
        exact absurd (hin.trans (hbelow T₁ loc hmade hopens)) hout
      · rintro ⟨loc, hlook', -⟩
        exact absurd hlook' (hfresh loc)

end IplanRunner
