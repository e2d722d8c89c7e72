import Mathlib.Data.List.Induction
import IplanRunner.Foundation.FileTree

/-!
What `Path.mkdir(parents=True, exist_ok=True)` makes, read from the top of the path down.

* `Tree.makeStep`, `Tree.made`: every step of the path that is no directory yet is made one, where
  there is room for it; `mkdirParents_of_made` and `mkdirParents_of_unmade` say that the call, which
  works from the bottom up and back, comes to the same.
* `Tree.Grows`: only directories are new.
* `made_straight`: names below an empty directory are all made, one inside the other.
-/

namespace Foundation

namespace Tree

/-! ### Growing trees -/

/-- Only directories are new. -/
def Grows (T T' : Tree) : Prop :=
  ∀ loc, T'.node loc = T.node loc ∨ T.node loc = none ∧ T'.node loc = some .dir

lemma Grows.refl (T : Tree) : T.Grows T := fun _ => Or.inl rfl

lemma Grows.trans {T T' T'' : Tree} (h : T.Grows T') (h' : T'.Grows T'') : T.Grows T'' := by
  intro loc
  rcases h' loc with h1 | ⟨h1, h2⟩
  · rw [h1]
    exact h loc
  · rcases h loc with h3 | ⟨h3, h4⟩
    · exact Or.inr ⟨h3 ▸ h1, h2⟩
    · rw [h1] at h4
      exact absurd h4 (by simp)

lemma Grows.node {T T' : Tree} (h : T.Grows T') {loc : Loc} {nd : Node}
    (hn : T.node loc = some nd) : T'.node loc = some nd := by
  rcases h loc with h1 | ⟨h1, -⟩
  · rw [h1, hn]
  · rw [h1] at hn
    exact absurd hn (by simp)

/-- A new directory in a directory. -/
lemma grows_put {T : Tree} {d : Loc} {n : Name} (hdir : T.node d = some .dir)
    (hn : T.node (d ++ [n]) = none) :
    T.Grows (T.put (d ++ [n]) .dir) ∧ (T.put (d ++ [n]) .dir).node (d ++ [n]) = some .dir := by
  have hleaf : T.Leaf (d ++ [n]) :=
    ⟨by simp, by rw [List.dropLast_concat, hdir], by rw [hn]; simp⟩
  refine ⟨fun loc => ?_, by rw [put_node hleaf, if_pos rfl]⟩
  rw [put_node hleaf]
  by_cases hloc : loc = d ++ [n]
  · rw [if_pos hloc, hloc]
    exact Or.inr ⟨hn, rfl⟩
  · rw [if_neg hloc]
    exact Or.inl rfl

lemma Grows.walk {T T' : Tree} (h : T.Grows T') {follow follow' : Loc → List Comp → Lookup}
    (hfollow : ∀ cur comps loc j, follow cur comps = .found loc j →
      follow' cur comps = .found loc j)
    {left : ℕ} {cur loc : Loc} {comps : List Comp} {j : ℕ}
    (hfound : T.walk follow left cur comps = .found loc j) :
    T'.walk follow' left cur comps = .found loc j := by
  induction comps generalizing cur with
  | nil => exact hfound
  | cons c rest ih =>
      by_cases hdir : T.node cur = some .dir
      · rw [T.walk_dir hdir] at hfound
        rw [T'.walk_dir (h.node hdir)]
        cases c with
        | none => exact ih hfound
        | some s =>
            cases s with
            | up => exact ih hfound
            | down n =>
                dsimp only at hfound ⊢
                cases hn : T.node (cur ++ [n]) with
                | none =>
                    rw [hn] at hfound
                    dsimp only at hfound
                    split at hfound <;> exact absurd hfound (by simp)
                | some nd =>
                    rw [hn] at hfound
                    rw [h.node hn]
                    cases nd with
                    | dir => exact ih hfound
                    | file content => exact ih hfound
                    | link target => exact hfollow _ _ _ _ hfound
      · rw [T.walk_notdir hdir] at hfound
        exact absurd hfound (by simp)

/-- What is found stays where it is while directories are made. -/
lemma Grows.lookup {T T' : Tree} (h : T.Grows T') {left : ℕ} {cur loc : Loc} {comps : List Comp}
    {j : ℕ} (hfound : T.lookup left cur comps = .found loc j) :
    T'.lookup left cur comps = .found loc j := by
  induction left generalizing cur loc comps j with
  | zero => exact h.walk (fun _ _ _ _ hf => absurd hf (by simp)) hfound
  | succ left ih => exact h.walk (fun _ _ _ _ hf => ih hf) hfound

/-! ### One step of a path -/

variable (T : Tree) (links : ℕ)

lemma look_append (path rest : Path) :
    T.look links (path ++ rest) = T.andThen (T.look links path) (rest.map some) := by
  rw [look, List.map_append, lookup_append]
  rfl

lemma look_snoc (path : Path) (s : Step Name) :
    T.look links (path ++ [s]) = T.andThen (T.look links path) [some s] :=
  T.look_append links path [s]

lemma look_nil : T.look links [] = .found [] links := T.lookup_nil links []

variable {T links}

lemma isDir_iff {path : Path} :
    T.isDir links path = true ↔ ∃ d j, T.look links path = .found d j ∧ T.node d = some .dir := by
  rw [isDir, beq_iff_eq, stat]
  constructor
  · intro h
    split at h
    · rename_i d j hlook
      exact ⟨d, j, hlook, h⟩
    · exact absurd h (by simp)
  · rintro ⟨d, j, hlook, hdir⟩
    rw [hlook]
    exact hdir

lemma isDir_eq_false_of_ne {path : Path} (h : ∀ d j, T.look links path ≠ .found d j) :
    T.isDir links path = false := by
  rw [← Bool.not_eq_true, isDir_iff]
  rintro ⟨d, j, hlook, -⟩
  exact h d j hlook

variable (T links)

/-- The tree with a directory made behind what a walk has found, where there is room for it. -/
def makeEntry : Step Name → Lookup → Option Tree
  | .down n, .found d _ =>
      if T.node d = some .dir ∧ T.node (d ++ [n]) = none then some (T.put (d ++ [n]) .dir) else none
  | _, _ => none

/-- The tree in which the last step of a path leads to a directory: the tree itself, or the one with
the directory made. -/
def makeStep (above : Path) (s : Step Name) : Option Tree :=
  if T.isDir links (above ++ [s]) then some T else T.makeEntry s (T.look links above)

end Tree

/-- The tree in which every step of a path, behind the steps above, leads to a directory. -/
def Tree.made (links : ℕ) : Path → Path → Tree → Option Tree
  | _, [], T => some T
  | above, s :: rest, T => (T.makeStep links above s).bind (Tree.made links (above ++ [s]) rest)

namespace Tree

variable {T T' : Tree} {links : ℕ}

lemma made_append (above xs ys : Path) (T : Tree) :
    made links above (xs ++ ys) T = (made links above xs T).bind (made links (above ++ xs) ys) := by
  induction xs generalizing above T with
  | nil => rw [List.nil_append, List.append_nil, made]; rfl
  | cons s xs ih =>
      rw [List.cons_append, made, made, Option.bind_assoc]
      congr 1
      funext T'
      rw [ih, List.append_assoc, List.singleton_append]

lemma made_snoc (path : Path) (s : Step Name) (T : Tree) :
    made links [] (path ++ [s]) T
      = (made links [] path T).bind fun T' => T'.makeStep links path s := by
  rw [made_append, List.nil_append]
  congr 1
  funext T'
  rw [made]
  cases T'.makeStep links path s <;> rfl

/-- What one step makes. -/
lemma makeStep_cases {above : Path} {s : Step Name} (h : T.makeStep links above s = some T') :
    T' = T ∧ T.isDir links (above ++ [s]) = true
      ∨ ∃ n d j, s = .down n ∧ T.look links above = .found d j ∧ T.node d = some .dir
        ∧ T.node (d ++ [n]) = none ∧ T' = T.put (d ++ [n]) .dir := by
  rw [makeStep] at h
  split at h
  · rename_i hdir
    exact Or.inl ⟨(Option.some.inj h).symm, hdir⟩
  · cases s with
    | up => exact absurd h (by simp [makeEntry])
    | down n =>
        cases hlook : T.look links above with
        | found d j =>
            rw [hlook, makeEntry] at h
            split at h
            · rename_i hroom
              exact Or.inr ⟨n, d, j, rfl, rfl, hroom.1, hroom.2, (Option.some.inj h).symm⟩
            · exact absurd h (by simp)
        | fresh loc => rw [hlook] at h; exact absurd h (by simp [makeEntry])
        | fails e => rw [hlook] at h; exact absurd h (by simp [makeEntry])

/-- A directory that has been made is found, and empty. -/
lemma look_put_dir {path : Path} {d : Loc} {j : ℕ} (hlook : T.look links path = .found d j)
    (hdir : T.node d = some .dir) {n : Name} (hn : T.node (d ++ [n]) = none) :
    (T.put (d ++ [n]) .dir).look links (path ++ [.down n]) = .found (d ++ [n]) j
      ∧ ∀ m, (T.put (d ++ [n]) .dir).node (d ++ [n] ++ [m]) = none := by
  obtain ⟨hgrows, hnew⟩ := grows_put hdir hn
  refine ⟨?_, fun m => ?_⟩
  · rw [look_snoc, look, hgrows.lookup hlook, andThen,
      lookup_entry (hgrows.node hdir) hnew (by simp), lookup_nil]
  · have hold : T.node (d ++ [n] ++ [m]) = none := by
      by_contra hne
      have hparent := T.parent _ _ hne
      rw [hn] at hparent
      exact absurd hparent (by simp)
    have hleaf : T.Leaf (d ++ [n]) :=
      ⟨by simp, by rw [List.dropLast_concat, hdir], by rw [hn]; simp⟩
    rw [put_node hleaf, if_neg (by simp), hold]

lemma makeStep_grows {above : Path} {s : Step Name} (h : T.makeStep links above s = some T') :
    T.Grows T' ∧ T'.isDir links (above ++ [s]) = true := by
  rcases makeStep_cases h with ⟨rfl, hdir⟩ | ⟨n, d, j, rfl, hlook, hdir, hn, rfl⟩
  · exact ⟨Grows.refl T', hdir⟩
  · obtain ⟨hgrows, hnew⟩ := grows_put hdir hn
    exact ⟨hgrows, isDir_iff.mpr ⟨d ++ [n], j, (look_put_dir hlook hdir hn).1, hnew⟩⟩

/-- What is made grows the tree, and the path leads to a directory in it. -/
lemma made_grows {path : Path} (h : made links [] path T = some T') :
    T.Grows T' ∧ T'.isDir links path = true := by
  induction path using List.reverseRecOn generalizing T' with
  | nil =>
      obtain rfl := Option.some.inj h
      exact ⟨Grows.refl T, isDir_iff.mpr ⟨[], links, look_nil T links, T.top⟩⟩
  | append_singleton path s ih =>
      rw [made_snoc] at h
      obtain ⟨T₁, hfirst, hlast⟩ := Option.bind_eq_some_iff.mp h
      obtain ⟨hgrows, hdir⟩ := makeStep_grows hlast
      exact ⟨(ih hfirst).1.trans hgrows, hdir⟩

/-- Nothing is made on a path whose walk does not end for want of an entry. -/
lemma made_of_look {path : Path} (hfresh : ∀ loc, T.look links path ≠ .fresh loc)
    (hnoent : T.look links path ≠ .fails .noent) :
    made links [] path T = if T.isDir links path then some T else none := by
  induction path using List.reverseRecOn with
  | nil =>
      rw [if_pos (isDir_iff.mpr ⟨[], links, look_nil T links, T.top⟩)]
      rfl
  | append_singleton path s ih =>
      have hsnoc := T.look_snoc links path s
      rw [made_snoc]
      cases hlook : T.look links path with
      | found d j =>
          rw [ih (by simp [hlook]) (by simp [hlook])]
          by_cases hdir : T.node d = some .dir
          · rw [if_pos (isDir_iff.mpr ⟨d, j, hlook, hdir⟩), Option.bind_some, makeStep]
            by_cases hd : T.isDir links (path ++ [s]) = true
            · rw [if_pos hd, if_pos hd]
            · rw [if_neg hd, if_neg hd, hlook]
              cases s with
              | up => rfl
              | down n =>
                  refine if_neg fun hroom => hfresh (d ++ [n]) ?_
                  rw [hsnoc, hlook, andThen, (lookup_single hdir j).2 n hroom.2]
          · have hnot : ∀ d' j', T.look links path = .found d' j' → T.node d' ≠ some .dir := by
              intro d' j' h'
              rw [hlook] at h'
              cases h'
              exact hdir
            rw [hlook, andThen, lookup_notdir hdir] at hsnoc
            have hup : ¬ T.isDir links path = true := by
              rw [isDir_iff]
              rintro ⟨d', j', h', hdir'⟩
              exact hnot d' j' h' hdir'
            rw [if_neg hup, isDir_eq_false_of_ne (by simp [hsnoc])]
            rfl
      | fresh loc =>
          rw [hlook, andThen, if_neg (by simp)] at hsnoc
          exact absurd hsnoc hnoent
      | fails e =>
          rw [hlook, andThen] at hsnoc
          have he : e ≠ .noent := by
            rintro rfl
            exact hnoent hsnoc
          rw [ih (by simp [hlook]) (by simpa [hlook] using he),
            isDir_eq_false_of_ne (by simp [hlook]), isDir_eq_false_of_ne (by simp [hsnoc])]
          rfl

/-! ### The call -/

/-- In a directory `mkdir(exist_ok=True)` makes the step, or raises. -/
lemma mkdirExistOk_eq {above : Path} (hdir : T.isDir links above = true) (s : Step Name) :
    (∀ T', T.makeStep links above s = some T' → T.mkdirExistOk links (above ++ [s]) = .ok T')
      ∧ (T.makeStep links above s = none → ∃ e, T.mkdirExistOk links (above ++ [s]) = .error e)
      ∧ T.mkdir links (above ++ [s]) ≠ .error .noent := by
  obtain ⟨d, j, hlook, hd⟩ := isDir_iff.mp hdir
  have hsnoc := T.look_snoc links above s
  rw [hlook, andThen] at hsnoc
  cases s with
  | up =>
      rw [(lookup_single hd j).1] at hsnoc
      have hmk : T.mkdir links (above ++ [.up]) = .error .exist := by
        rw [mkdir, List.getLast?_concat, hsnoc]
      rw [mkdirExistOk, hmk, makeStep]
      by_cases hup : T.isDir links (above ++ [.up]) = true
      · simp [hup]
      · simp [hup, makeEntry]
  | down n =>
      cases hn : T.node (d ++ [n]) with
      | none =>
          rw [(lookup_single hd j).2 n hn] at hsnoc
          have hmk : T.mkdir links (above ++ [.down n]) = .ok (T.put (d ++ [n]) .dir) := by
            rw [mkdir, List.getLast?_concat, List.dropLast_concat]
            simp [hlook, hd, hn]
          have hnot : T.isDir links (above ++ [.down n]) = false :=
            isDir_eq_false_of_ne (by simp [hsnoc])
          rw [mkdirExistOk, hmk, makeStep, hnot, hlook]
          simp [hd, hn, makeEntry]
      | some nd =>
          have hmk : T.mkdir links (above ++ [.down n]) = .error .exist := by
            rw [mkdir, List.getLast?_concat, List.dropLast_concat]
            simp [hlook, hd, hn]
          rw [mkdirExistOk, hmk, makeStep]
          by_cases hup : T.isDir links (above ++ [.down n]) = true
          · simp [hup]
          · simp [hup, hlook, hn, makeEntry]

/-- Where there is no directory to work in, `mkdir` fails the way the walk did. -/
lemma mkdir_of_not_dir {above : Path} (h : T.isDir links above = false) (s : Step Name) :
    T.mkdir links (above ++ [s]) = .error (T.look links above).errno
      ∧ T.isDir links (above ++ [s]) = false := by
  have hsnoc := T.look_snoc links above s
  suffices hlast : (∀ d j, T.look links (above ++ [s]) ≠ .found d j)
      ∧ (s = .up → (T.look links (above ++ [s])).errno = (T.look links above).errno) by
    refine ⟨?_, isDir_eq_false_of_ne hlast.1⟩
    rw [mkdir, List.getLast?_concat, List.dropLast_concat]
    cases s with
    | up =>
        dsimp only
        rw [← hlast.2 rfl]
        cases hup : T.look links (above ++ [.up]) with
        | found d j => exact absurd hup (hlast.1 d j)
        | fresh loc => rfl
        | fails e => rfl
    | down n =>
        dsimp only
        cases hlook : T.look links above with
        | found d j =>
            have hdir : T.node d ≠ some .dir := by
              intro hdir
              rw [isDir_iff.mpr ⟨d, j, hlook, hdir⟩] at h
              exact absurd h (by simp)
            exact if_pos hdir
        | fresh loc => rfl
        | fails e => rfl
  cases hlook : T.look links above with
  | found d j =>
      have hdir : T.node d ≠ some .dir := by
        intro hdir
        rw [isDir_iff.mpr ⟨d, j, hlook, hdir⟩] at h
        exact absurd h (by simp)
      rw [hlook, andThen, lookup_notdir hdir] at hsnoc
      rw [hsnoc]
      exact ⟨by simp, fun _ => rfl⟩
  | fresh loc =>
      rw [hlook, andThen, if_neg (by simp)] at hsnoc
      rw [hsnoc]
      exact ⟨by simp, fun _ => rfl⟩
  | fails e =>
      rw [hlook, andThen] at hsnoc
      rw [hsnoc]
      exact ⟨by simp, fun _ => rfl⟩

/-- A first attempt that does not miss an entry is the whole call. -/
lemma mkdirParents_of_ne {path : Path} {s : Step Name}
    (h : T.mkdir links (path ++ [s]) ≠ .error .noent) :
    mkdirParents links (path ++ [s]).reverse T
      = attempt (T.mkdirExistOk links (path ++ [s])) T := by
  rw [List.reverse_append, List.reverse_singleton, List.singleton_append, mkdirParents,
    List.reverse_reverse, mkdirExistOk]
  cases hmk : T.mkdir links (path ++ [s]) with
  | ok T₁ => rfl
  | error e =>
      cases e with
      | noent => exact absurd hmk h
      | _ => by_cases hup : T.isDir links (path ++ [s]) = true <;> simp [hup, attempt]

/-- An attempt that misses an entry makes what is above first. -/
lemma mkdirParents_of_missing {path : Path} {s : Step Name} {T' : Tree}
    (h : T.mkdir links (path ++ [s]) = .error .noent)
    (habove : mkdirParents links path.reverse T = (.ok (), T')) :
    mkdirParents links (path ++ [s]).reverse T
      = attempt (T'.mkdirExistOk links (path ++ [s])) T' := by
  rw [List.reverse_append, List.reverse_singleton, List.singleton_append, mkdirParents,
    List.reverse_reverse]
  simp only [h, habove]

/-- It raises what that raises. -/
lemma mkdirParents_of_unmakeable {path : Path} {s : Step Name} {T' : Tree} {e : Errno}
    (h : T.mkdir links (path ++ [s]) = .error .noent)
    (habove : mkdirParents links path.reverse T = (.error e, T')) :
    mkdirParents links (path ++ [s]).reverse T = (.error e, T') := by
  rw [List.reverse_append, List.reverse_singleton, List.singleton_append, mkdirParents,
    List.reverse_reverse]
  simp only [h, habove]

/-- **`mkdir(parents=True, exist_ok=True)` makes the steps of the path**, or raises. -/
theorem mkdirParents_eq (links : ℕ) (path : Path) (T : Tree) :
    (∀ T', made links [] path T = some T' → mkdirParents links path.reverse T = (.ok (), T'))
      ∧ (made links [] path T = none →
        ∃ e T', mkdirParents links path.reverse T = (.error e, T')) := by
  induction path using List.reverseRecOn with
  | nil => exact ⟨fun T' h => by rw [← Option.some.inj h]; rfl, fun h => absurd h (by simp [made])⟩
  | append_singleton path s ih =>
      rw [made_snoc]
      by_cases hdir : T.isDir links path = true
      · -- the parent is there: one attempt
        obtain ⟨d, j, hlook, -⟩ := isDir_iff.mp hdir
        obtain ⟨hmade, hnone, hnoent⟩ := mkdirExistOk_eq hdir s
        rw [made_of_look (by simp [hlook]) (by simp [hlook]), if_pos hdir, Option.bind_some,
          mkdirParents_of_ne hnoent]
        refine ⟨fun T' h => by rw [hmade T' h]; rfl, fun h => ?_⟩
        obtain ⟨e, he⟩ := hnone h
        exact ⟨e, T, by rw [he]; rfl⟩
      · rw [Bool.not_eq_true] at hdir
        obtain ⟨hmk, hlast⟩ := mkdir_of_not_dir hdir s
        by_cases hnoent : (T.look links path).errno = .noent
        · -- an entry is missing above: it is made first
          rw [hnoent] at hmk
          cases hpath : made links [] path T with
          | none =>
              obtain ⟨e, T', he⟩ := ih.2 hpath
              exact ⟨fun T' h => absurd h (by simp),
                fun _ => ⟨e, T', mkdirParents_of_unmakeable hmk he⟩⟩
          | some T₁ =>
              obtain ⟨hmade, hnone, -⟩ := mkdirExistOk_eq (made_grows hpath).2 s
              rw [mkdirParents_of_missing hmk (ih.1 T₁ hpath), Option.bind_some]
              refine ⟨fun T' h => by rw [hmade T' h]; rfl, fun h => ?_⟩
              obtain ⟨e, he⟩ := hnone h
              exact ⟨e, T₁, by rw [he]; rfl⟩
        · -- something else is in the way
          have hne : T.mkdir links (path ++ [s]) ≠ .error .noent := by
            rw [hmk]
            simpa using hnoent
          have hfresh : ∀ loc, T.look links path ≠ .fresh loc := by
            intro loc hlook
            exact hnoent (by rw [hlook]; rfl)
          have hfails : T.look links path ≠ .fails .noent := by
            intro hlook
            exact hnoent (by rw [hlook]; rfl)
          rw [made_of_look hfresh hfails, hdir, mkdirParents_of_ne hne, mkdirExistOk, hmk, hlast]
          refine ⟨fun T' h => absurd h (by simp), fun _ => ?_⟩
          generalize (T.look links path).errno = e at hnoent
          cases e with
          | noent => exact absurd rfl hnoent
          | _ => exact ⟨_, _, rfl⟩

/-! ### Names below an empty directory -/

/-- **Names below an empty directory are all made**, one inside the other. -/
theorem made_straight {path : Path} {d : Loc} {j : ℕ} (hlook : T.look links path = .found d j)
    (hdir : T.node d = some .dir) (hempty : ∀ n, T.node (d ++ [n]) = none) (names : List Name) :
    ∃ T', made links path (names.map .down) T = some T' ∧ T.Grows T'
      ∧ T'.look links (path ++ names.map .down) = .found (d ++ names) j
      ∧ T'.node (d ++ names) = some .dir ∧ ∀ n, T'.node (d ++ names ++ [n]) = none := by
  induction names generalizing T path d with
  | nil =>
      refine ⟨T, rfl, Grows.refl T, ?_, ?_, ?_⟩
      · rw [List.map_nil, List.append_nil, List.append_nil, hlook]
      · rwa [List.append_nil]
      · rwa [List.append_nil]
  | cons n names ih =>
      obtain ⟨hgrows, hnew⟩ := grows_put hdir (hempty n)
      have hstep : T.makeStep links path (.down n) = some (T.put (d ++ [n]) .dir) := by
        have hfresh : T.look links (path ++ [.down n]) = .fresh (d ++ [n]) := by
          rw [look_snoc, hlook, andThen, (lookup_single hdir j).2 n (hempty n)]
        have hnot : ¬ T.isDir links (path ++ [.down n]) = true := by
          rw [isDir_eq_false_of_ne (by simp [hfresh])]
          simp
        rw [makeStep, if_neg hnot, hlook, makeEntry, if_pos ⟨hdir, hempty n⟩]
      obtain ⟨hnext, hbelow⟩ := look_put_dir hlook hdir (hempty n)
      obtain ⟨T', hmade, hgrows', hlook', hdir', hempty'⟩ := ih hnext hnew hbelow
      refine ⟨T', ?_, hgrows.trans hgrows', ?_, ?_, ?_⟩
      · rw [List.map_cons, made, hstep, Option.bind_some, hmade]
      · rw [List.map_cons, List.append_cons, hlook', List.append_assoc, List.singleton_append]
      · rwa [List.append_assoc, List.singleton_append] at hdir'
      · rwa [List.append_assoc, List.singleton_append] at hempty'

end Tree

end Foundation
