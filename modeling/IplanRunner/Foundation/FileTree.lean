import IplanRunner.Foundation.Calls
import IplanRunner.Foundation.PosixPath

/-!
A tree of files, directories and symbolic links, and how a path is followed through it.

* `Tree`: what is found at each location, a location being the list of names that leads to it; what
  has an entry below it is a directory.  A location without a link before it is its own real path.
* `Tree.lookup`: the walk of the kernel along the parts of a path, with a bound on the links it
  follows; `lookup_append` says how it goes on behind the first parts.
* `Tree.realpath`: the resolution of links of `os.path.realpath`, which goes on where nothing is
  found; `realpath_of_found`: where the walk finds something the two agree.
* `Tree.put`, `Tree.remove`: the changes of one entry.
* `Tree.mkdir`, `Tree.mkdirParents`, `Tree.writeText`, `Tree.unlink`: the calls that change a tree,
  as `pathlib` makes them.
-/

namespace Foundation

/-- A location: the names that lead to it from the top. -/
abbrev Loc := List Name

/-- What is found at a location. -/
inductive Node where
  | dir
  | file (content : String)
  | link (target : List Char)
  deriving DecidableEq

/-- A tree of entries, each in a directory. -/
structure Tree where
  node : Loc → Option Node
  top : node [] = some .dir
  parent : ∀ loc n, node (loc ++ [n]) ≠ none → node loc = some .dir

/-- The tree with nothing in it. -/
def Tree.empty : Tree where
  node := fun loc => if loc = [] then some .dir else none
  top := rfl
  parent := by
    intro loc n hn
    exact absurd (if_neg (by simp)) hn

/-- Why a call fails. -/
inductive Errno where
  | noent
  | notdir
  | loop
  | exist
  | isdir
  deriving DecidableEq, Repr

/-- A part of a path as the kernel reads it; `none` is an empty part or a dot, which stays where it
is. -/
abbrev Comp := Option (Step Name)

/-- The parts of a text. -/
def compsOf (text : List Char) : List Comp := (text.splitOn '/').map stepOf

/-! ### The walk of the kernel -/

/-- How a walk ends. -/
inductive Lookup where
  /-- Something is there, and so many links may still be followed. -/
  | found (loc : Loc) (left : ℕ)
  /-- Only the last name is missing. -/
  | fresh (loc : Loc)
  | fails (e : Errno)
  deriving DecidableEq

/-- The errno of a walk that does not end in a directory. -/
def Lookup.errno : Lookup → Errno
  | .found _ _ => .notdir
  | .fresh _ => .noent
  | .fails e => e

namespace Tree

variable (T : Tree)

/-- The walk along the parts of a path, `follow` going on behind a link. -/
def walk (follow : Loc → List Comp → Lookup) (left : ℕ) : Loc → List Comp → Lookup
  | cur, [] => .found cur left
  | cur, c :: rest =>
      if T.node cur ≠ some .dir then .fails .notdir
      else match c with
        | none => walk follow left cur rest
        | some .up => walk follow left cur.dropLast rest
        | some (.down n) =>
            match T.node (cur ++ [n]) with
            | none => if rest = [] then .fresh (cur ++ [n]) else .fails .noent
            | some (.link target) =>
                follow (if isabs target then [] else cur) (compsOf target ++ rest)
            | some _ => walk follow left (cur ++ [n]) rest

/-- The walk that follows so many links at most. -/
def lookup : ℕ → Loc → List Comp → Lookup
  | 0 => T.walk (fun _ _ => .fails .loop) 0
  | left + 1 => T.walk (lookup left) (left + 1)

/-- How a walk goes on behind its first parts. -/
def andThen : Lookup → List Comp → Lookup
  | .found loc left, rest => T.lookup left loc rest
  | .fresh loc, rest => if rest = [] then .fresh loc else .fails .noent
  | .fails e, _ => .fails e

lemma walk_nil (follow : Loc → List Comp → Lookup) (left : ℕ) (cur : Loc) :
    T.walk follow left cur [] = .found cur left := rfl

lemma walk_notdir {cur : Loc} (hdir : T.node cur ≠ some .dir)
    (follow : Loc → List Comp → Lookup) (left : ℕ) (c : Comp) (rest : List Comp) :
    T.walk follow left cur (c :: rest) = .fails .notdir :=
  if_pos hdir

lemma walk_dir {cur : Loc} (hdir : T.node cur = some .dir)
    (follow : Loc → List Comp → Lookup) (left : ℕ) (c : Comp) (rest : List Comp) :
    T.walk follow left cur (c :: rest) = match c with
      | none => T.walk follow left cur rest
      | some .up => T.walk follow left cur.dropLast rest
      | some (.down n) =>
          match T.node (cur ++ [n]) with
          | none => if rest = [] then .fresh (cur ++ [n]) else .fails .noent
          | some (.link target) =>
              follow (if isabs target then [] else cur) (compsOf target ++ rest)
          | some _ => T.walk follow left (cur ++ [n]) rest :=
  if_neg (not_not.mpr hdir)

lemma lookup_nil (left : ℕ) (cur : Loc) : T.lookup left cur [] = .found cur left := by
  cases left <;> rfl

lemma walk_append {follow : Loc → List Comp → Lookup} {left : ℕ}
    (hself : ∀ cur comps, T.lookup left cur comps = T.walk follow left cur comps)
    (hfollow : ∀ cur xs ys, follow cur (xs ++ ys) = T.andThen (follow cur xs) ys)
    (cur : Loc) (xs ys : List Comp) :
    T.walk follow left cur (xs ++ ys) = T.andThen (T.walk follow left cur xs) ys := by
  induction xs generalizing cur with
  | nil => rw [List.nil_append, walk_nil, andThen, hself]
  | cons c xs ih =>
      by_cases hdir : T.node cur = some .dir
      · rw [List.cons_append, T.walk_dir hdir, T.walk_dir hdir]
        cases c with
        | none => exact ih cur
        | some s =>
            cases s with
            | up => exact ih cur.dropLast
            | down n =>
                dsimp only
                cases hnode : T.node (cur ++ [n]) with
                | none =>
                    by_cases hxs : xs = []
                    · rw [hxs, if_pos rfl, List.nil_append, andThen]
                    · rw [if_neg hxs, if_neg fun h => hxs (List.append_eq_nil_iff.mp h).1, andThen]
                | some nd =>
                    cases nd with
                    | dir => exact ih (cur ++ [n])
                    | file content => exact ih (cur ++ [n])
                    | link target =>
                        dsimp only
                        rw [← List.append_assoc, hfollow]
      · rw [List.cons_append, T.walk_notdir hdir, T.walk_notdir hdir, andThen]

/-- **A walk along a path in two parts.** -/
theorem lookup_append (left : ℕ) (cur : Loc) (xs ys : List Comp) :
    T.lookup left cur (xs ++ ys) = T.andThen (T.lookup left cur xs) ys := by
  induction left generalizing cur xs ys with
  | zero => exact T.walk_append (fun _ _ => rfl) (fun _ _ _ => rfl) cur xs ys
  | succ left ih => exact T.walk_append (fun _ _ => rfl) ih cur xs ys

variable {T}

/-- Nothing is found behind what is no directory. -/
lemma lookup_notdir {cur : Loc} (hdir : T.node cur ≠ some .dir) (left : ℕ) (c : Comp)
    (rest : List Comp) : T.lookup left cur (c :: rest) = .fails .notdir := by
  cases left <;> rw [lookup, T.walk_notdir hdir]

lemma lookup_stay {cur : Loc} (hdir : T.node cur = some .dir) (left : ℕ) (rest : List Comp) :
    T.lookup left cur (none :: rest) = T.lookup left cur rest := by
  cases left <;> rw [lookup, T.walk_dir hdir]

lemma lookup_up {cur : Loc} (hdir : T.node cur = some .dir) (left : ℕ) (rest : List Comp) :
    T.lookup left cur (some .up :: rest) = T.lookup left cur.dropLast rest := by
  cases left <;> rw [lookup, T.walk_dir hdir]

lemma lookup_missing {cur : Loc} (hdir : T.node cur = some .dir) {n : Name}
    (hn : T.node (cur ++ [n]) = none) (left : ℕ) (rest : List Comp) :
    T.lookup left cur (some (.down n) :: rest)
      = if rest = [] then .fresh (cur ++ [n]) else .fails .noent := by
  cases left <;> rw [lookup, T.walk_dir hdir] <;> dsimp only <;> rw [hn]

lemma lookup_entry {cur : Loc} (hdir : T.node cur = some .dir) {n : Name} {nd : Node}
    (hn : T.node (cur ++ [n]) = some nd) (hlink : ∀ target, nd ≠ .link target) (left : ℕ)
    (rest : List Comp) :
    T.lookup left cur (some (.down n) :: rest) = T.lookup left (cur ++ [n]) rest := by
  cases left <;> rw [lookup, T.walk_dir hdir] <;> dsimp only <;> rw [hn] <;> cases nd with
  | dir => rfl
  | file content => rfl
  | link target => exact absurd rfl (hlink target)

lemma lookup_link {cur : Loc} (hdir : T.node cur = some .dir) {n : Name} {target : List Char}
    (hn : T.node (cur ++ [n]) = some (.link target)) (left : ℕ) (rest : List Comp) :
    T.lookup 0 cur (some (.down n) :: rest) = .fails .loop
      ∧ T.lookup (left + 1) cur (some (.down n) :: rest)
        = T.lookup left (if isabs target then [] else cur) (compsOf target ++ rest) := by
  constructor
  · rw [lookup, T.walk_dir hdir]
    dsimp only
    rw [hn]
  · rw [lookup, T.walk_dir hdir]
    dsimp only
    rw [hn]

/-- One more part behind a directory: up, or to a missing entry. -/
lemma lookup_single {cur : Loc} (hdir : T.node cur = some .dir) (left : ℕ) :
    T.lookup left cur [some .up] = .found cur.dropLast left
      ∧ ∀ n, T.node (cur ++ [n]) = none →
        T.lookup left cur [some (.down n)] = .fresh (cur ++ [n]) :=
  ⟨by rw [lookup_up hdir, lookup_nil], fun n hn => by rw [lookup_missing hdir hn, if_pos rfl]⟩

/-! ### `os.path.realpath` -/

variable (T)

/-- The resolution along the parts of a path, `enter` resolving a link. -/
def resolve (enter : Loc → List Comp → Option Loc) : Loc → List Comp → Option Loc
  | cur, [] => some cur
  | cur, none :: rest => resolve enter cur rest
  | cur, some .up :: rest => resolve enter cur.dropLast rest
  | cur, some (.down n) :: rest =>
      match T.node (cur ++ [n]) with
      | some (.link target) =>
          (enter (if isabs target then [] else cur) (compsOf target)).bind fun cur' =>
            resolve enter cur' rest
      | _ => resolve enter (cur ++ [n]) rest

/-- `realpath`, links nested so deep at most: `none` is the `RuntimeError` of `Path.resolve` on a
loop of links, and of a recursion that goes too deep. -/
def realpath : ℕ → Loc → List Comp → Option Loc
  | 0 => T.resolve fun _ _ => none
  | depth + 1 => T.resolve (realpath depth)

/-- What leads to the location is no link, nor is the location. -/
def Straight (loc : Loc) : Prop := ∀ p, p <+: loc → ∀ target, T.node p ≠ some (.link target)

variable {T}

lemma straight_top : T.Straight [] := by
  intro p hp target
  rw [List.prefix_nil.mp hp, T.top]
  simp

lemma Straight.mono {loc p : Loc} (h : T.Straight loc) (hp : p <+: loc) : T.Straight p :=
  fun q hq => h q (hq.trans hp)

lemma Straight.snoc {loc : Loc} (h : T.Straight loc) {n : Name}
    (hn : ∀ target, T.node (loc ++ [n]) ≠ some (.link target)) : T.Straight (loc ++ [n]) := by
  intro p hp
  rcases List.prefix_concat_iff.mp hp with rfl | hp
  · exact hn
  · exact h p hp

lemma resolve_straight {enter : Loc → List Comp → Option Loc}
    (henter : ∀ cur comps loc, T.Straight cur → enter cur comps = some loc → T.Straight loc)
    {cur loc : Loc} {comps : List Comp} (hcur : T.Straight cur)
    (h : T.resolve enter cur comps = some loc) : T.Straight loc := by
  induction comps generalizing cur with
  | nil => rwa [← Option.some.inj h]
  | cons c rest ih =>
      cases c with
      | none => exact ih hcur h
      | some s =>
          cases s with
          | up => exact ih (hcur.mono (List.dropLast_prefix cur)) h
          | down n =>
              rw [resolve] at h
              split at h
              · rename_i target hn
                obtain ⟨cur', hc, hrest⟩ := Option.bind_eq_some_iff.mp h
                refine ih (henter _ _ _ ?_ hc) hrest
                split
                · exact straight_top
                · exact hcur
              · rename_i hn
                exact ih (hcur.snoc fun target ht => hn target ht) h

/-- **What `realpath` returns has no link on the way.** -/
theorem realpath_straight {depth : ℕ} {cur loc : Loc} {comps : List Comp} (hcur : T.Straight cur)
    (h : T.realpath depth cur comps = some loc) : T.Straight loc := by
  induction depth generalizing cur loc comps with
  | zero => exact resolve_straight (fun _ _ _ _ h => absurd h (by simp)) hcur h
  | succ depth ih => exact resolve_straight (fun _ _ _ hc h => ih hc h) hcur h

lemma resolve_of_found {enter : Loc → List Comp → Option Loc}
    (henter : ∀ left cur comps loc left' loc', T.lookup left cur comps = .found loc left' →
      enter cur comps = some loc' → loc' = loc)
    {left left' : ℕ} {cur loc loc' : Loc} {comps : List Comp}
    (hfound : T.lookup left cur comps = .found loc left')
    (h : T.resolve enter cur comps = some loc') : loc' = loc := by
  induction comps generalizing cur left with
  | nil =>
      rw [lookup_nil] at hfound
      cases hfound
      exact (Option.some.inj h).symm
  | cons c rest ih =>
      have hdir : T.node cur = some .dir := by
        by_contra hdir
        rw [lookup_notdir hdir] at hfound
        exact absurd hfound (by simp)
      cases c with
      | none => exact ih (by rwa [lookup_stay hdir] at hfound) h
      | some s =>
          cases s with
          | up => exact ih (by rwa [lookup_up hdir] at hfound) h
          | down n =>
              rw [resolve] at h
              cases hn : T.node (cur ++ [n]) with
              | none =>
                  rw [lookup_missing hdir hn] at hfound
                  split at hfound <;> exact absurd hfound (by simp)
              | some nd =>
                  rw [hn] at h
                  cases nd with
                  | dir => exact ih (by rwa [lookup_entry hdir hn (by simp)] at hfound) h
                  | file content =>
                      exact ih (by rwa [lookup_entry hdir hn (by simp)] at hfound) h
                  | link target =>
                      obtain ⟨mid, hmid, hrest⟩ := Option.bind_eq_some_iff.mp h
                      cases left with
                      | zero =>
                          rw [(lookup_link hdir hn 0 rest).1] at hfound
                          exact absurd hfound (by simp)
                      | succ left =>
                          rw [(lookup_link hdir hn left rest).2, lookup_append] at hfound
                          cases hfirst : T.lookup left (if isabs target then [] else cur)
                              (compsOf target) with
                          | found m j =>
                              rw [hfirst] at hfound
                              obtain rfl := henter _ _ _ _ _ _ hfirst hmid
                              exact ih hfound hrest
                          | fresh m =>
                              rw [hfirst, andThen] at hfound
                              split at hfound <;> exact absurd hfound (by simp)
                          | fails e =>
                              rw [hfirst, andThen] at hfound
                              exact absurd hfound (by simp)

/-- **Where the walk finds something, `realpath` returns its location.** -/
theorem realpath_of_found {depth left left' : ℕ} {cur loc loc' : Loc} {comps : List Comp}
    (hfound : T.lookup left cur comps = .found loc left')
    (h : T.realpath depth cur comps = some loc') : loc' = loc := by
  induction depth generalizing cur loc loc' comps left left' with
  | zero =>
      exact resolve_of_found (fun _ _ _ _ _ _ _ h => absurd h (by simp)) hfound h
  | succ depth ih =>
      exact resolve_of_found (fun _ _ _ _ _ _ h1 h2 => ih h1 h2) hfound h

/-! ### Changes of one entry -/

variable (T)

/-- A file, a link or nothing, in a directory. -/
def Leaf (loc : Loc) : Prop :=
  loc ≠ [] ∧ T.node loc.dropLast = some .dir ∧ T.node loc ≠ some .dir

instance (loc : Loc) : Decidable (T.Leaf loc) := by
  unfold Leaf
  infer_instance

/-- The tree with an entry made or replaced. -/
def put (loc : Loc) (nd : Node) : Tree :=
  if h : T.Leaf loc then
    { node := fun l => if l = loc then some nd else T.node l
      top := by rw [if_neg (Ne.symm h.1), T.top]
      parent := by
        intro l n hn
        by_cases hl : l ++ [n] = loc
        · have hdrop : l = loc.dropLast := by rw [← hl, List.dropLast_concat]
          have hne : l ≠ loc := by
            rintro rfl
            exact absurd hl (by simp)
          rw [if_neg hne, hdrop, h.2.1]
        · rw [if_neg hl] at hn
          have hdir := T.parent l n hn
          have hne : l ≠ loc := by
            rintro rfl
            exact h.2.2 hdir
          rw [if_neg hne, hdir] }
  else T

/-- The tree with an entry taken away. -/
def remove (loc : Loc) : Tree :=
  if h : T.Leaf loc then
    { node := fun l => if l = loc then none else T.node l
      top := by rw [if_neg (Ne.symm h.1), T.top]
      parent := by
        intro l n hn
        by_cases hl : l ++ [n] = loc
        · rw [if_pos hl] at hn
          exact absurd rfl hn
        · rw [if_neg hl] at hn
          have hdir := T.parent l n hn
          have hne : l ≠ loc := by
            rintro rfl
            exact h.2.2 hdir
          rw [if_neg hne, hdir] }
  else T

variable {T}

lemma put_node {loc : Loc} (h : T.Leaf loc) (nd : Node) (l : Loc) :
    (T.put loc nd).node l = if l = loc then some nd else T.node l := by
  rw [put, dif_pos h]

lemma remove_node_of_ne {loc l : Loc} (hne : l ≠ loc) : (T.remove loc).node l = T.node l := by
  rw [remove]
  split
  · exact if_neg hne
  · rfl

lemma remove_node_self {loc : Loc} (h : T.Leaf loc) : (T.remove loc).node loc = none := by
  rw [remove, dif_pos h]
  exact if_pos rfl

/-- A file is in a directory. -/
lemma leaf_of_file {loc : Loc} {content : String} (h : T.node loc = some (.file content)) :
    T.Leaf loc := by
  rcases List.eq_nil_or_concat loc with rfl | ⟨above, n, rfl⟩
  · rw [T.top] at h
    exact absurd h (by simp)
  · rw [List.concat_eq_append] at h ⊢
    refine ⟨by simp, ?_, by rw [h]; simp⟩
    rw [List.dropLast_concat]
    exact T.parent above n (by rw [h]; simp)

/-- A walk that misses its last name alone has come to a directory. -/
lemma walk_fresh {follow : Loc → List Comp → Lookup}
    (hfollow : ∀ cur comps loc, follow cur comps = .fresh loc →
      ∃ d n, loc = d ++ [n] ∧ T.node d = some .dir ∧ T.node loc = none)
    {left : ℕ} {cur loc : Loc} {comps : List Comp}
    (h : T.walk follow left cur comps = .fresh loc) :
    ∃ d n, loc = d ++ [n] ∧ T.node d = some .dir ∧ T.node loc = none := by
  induction comps generalizing cur with
  | nil => exact absurd h (by rw [walk_nil]; simp)
  | cons c rest ih =>
      by_cases hdir : T.node cur = some .dir
      · rw [T.walk_dir hdir] at h
        cases c with
        | none => exact ih h
        | some s =>
            cases s with
            | up => exact ih h
            | down n =>
                dsimp only at h
                cases hn : T.node (cur ++ [n]) with
                | none =>
                    rw [hn] at h
                    dsimp only at h
                    split at h
                    · cases h
                      exact ⟨cur, n, rfl, hdir, hn⟩
                    · exact absurd h (by simp)
                | some nd =>
                    rw [hn] at h
                    cases nd with
                    | dir => exact ih h
                    | file content => exact ih h
                    | link target => exact hfollow _ _ _ h
      · rw [T.walk_notdir hdir] at h
        exact absurd h (by simp)

lemma lookup_fresh {left : ℕ} {cur loc : Loc} {comps : List Comp}
    (h : T.lookup left cur comps = .fresh loc) :
    ∃ d n, loc = d ++ [n] ∧ T.node d = some .dir ∧ T.node loc = none := by
  induction left generalizing cur comps loc with
  | zero => exact walk_fresh (fun _ _ _ h => absurd h (by simp)) h
  | succ left ih => exact walk_fresh (fun _ _ _ h => ih h) h

/-- A walk straight down to a location without links ends there. -/
lemma Straight.lookup {left j : ℕ} {cur loc : Loc} {names : List Name}
    (hstraight : T.Straight (cur ++ names))
    (h : T.lookup left cur ((names.map .down).map some) = .found loc j) : loc = cur ++ names := by
  induction names generalizing cur with
  | nil =>
      rw [List.map_nil, List.map_nil, lookup_nil] at h
      rw [List.append_nil]
      cases h
      rfl
  | cons n names ih =>
      have happend : cur ++ n :: names = cur ++ [n] ++ names := by
        rw [List.append_assoc, List.singleton_append]
      rw [List.map_cons, List.map_cons] at h
      rw [happend] at hstraight ⊢
      refine ih hstraight ?_
      have hdir : T.node cur = some .dir := by
        by_contra hdir
        rw [lookup_notdir hdir] at h
        exact absurd h (by simp)
      cases hn : T.node (cur ++ [n]) with
      | none =>
          rw [lookup_missing hdir hn] at h
          split at h <;> exact absurd h (by simp)
      | some nd =>
          have hlink : ∀ target, nd ≠ .link target := by
            rintro target rfl
            exact hstraight _ (List.prefix_append _ _) target hn
          rwa [lookup_entry hdir hn hlink] at h

/-! ### Calls on absolute paths -/

end Tree

/-- The parts of an absolute `pathlib` path, which keeps the steps up. -/
abbrev Path := List (Step Name)

namespace Tree

variable (T : Tree) (links : ℕ)

/-- Where a path leads. -/
def look (path : Path) : Lookup := T.lookup links [] (path.map some)

variable {T links} in
lemma Straight.look {loc d : Loc} {j : ℕ} (h : T.Straight loc)
    (hlook : T.look links (loc.map .down) = .found d j) : d = loc := by
  have hstraight : T.Straight ([] ++ loc) := by rwa [List.nil_append]
  rw [hstraight.lookup hlook, List.nil_append]

/-- `exists`. -/
def pathExists (path : Path) : Bool :=
  match T.look links path with
  | .found _ _ => true
  | _ => false

/-- What `stat` finds. -/
def stat (path : Path) : Option Node :=
  match T.look links path with
  | .found loc _ => T.node loc
  | _ => none

/-- `is_dir`. -/
def isDir (path : Path) : Bool := T.stat links path == some .dir

/-- `is_file`. -/
def isFile (path : Path) : Bool :=
  match T.stat links path with
  | some (.file _) => true
  | _ => false

/-- `os.mkdir`. -/
def mkdir (path : Path) : Except Errno Tree :=
  match path.getLast? with
  | none => .error .exist
  | some .up =>
      match T.look links path with
      | .found _ _ => .error .exist
      | l => .error l.errno
  | some (.down n) =>
      match T.look links path.dropLast with
      | .found d _ =>
          if T.node d ≠ some .dir then .error .notdir
          else if T.node (d ++ [n]) = none then .ok (T.put (d ++ [n]) .dir)
          else .error .exist
      | l => .error l.errno

/-- `Path.mkdir(exist_ok=True)`. -/
def mkdirExistOk (path : Path) : Except Errno Tree :=
  match T.mkdir links path with
  | .ok T' => .ok T'
  | .error .noent => .error .noent
  | .error e => if T.isDir links path then .ok T else .error e

end Tree

/-- The outcome of a call on one entry, which leaves the tree alone when it fails. -/
def attempt (outcome : Except Errno Tree) (T : Tree) : Except Errno Unit × Tree :=
  match outcome with
  | .ok T' => (.ok (), T')
  | .error e => (.error e, T)

/-- `Path.mkdir(parents=True, exist_ok=True)`, on the parts of the path from the last one on: what
is missing above is made first. -/
def mkdirParents (links : ℕ) : Path → Call Errno Tree Unit
  | [], T => (.ok (), T)
  | s :: above, T =>
      match T.mkdir links (above.reverse ++ [s]) with
      | .ok T' => (.ok (), T')
      | .error .noent =>
          match mkdirParents links above T with
          | (.error e, T') => (.error e, T')
          | (.ok (), T') => attempt (T'.mkdirExistOk links (above.reverse ++ [s])) T'
      | .error e => if T.isDir links (above.reverse ++ [s]) then (.ok (), T) else (.error e, T)

namespace Tree

variable (T : Tree) (links : ℕ)

/-- Where a file opened for writing is: the one found, or the one made. -/
def opens (path : Path) : Option Loc :=
  match T.look links path with
  | .found loc _ =>
      match T.node loc with
      | some (.file _) => some loc
      | _ => none
  | .fresh loc => some loc
  | .fails _ => none

variable {T links} in
/-- A file is opened in a directory. -/
lemma leaf_of_opens {path : Path} {loc : Loc} (h : T.opens links path = some loc) : T.Leaf loc := by
  rw [opens] at h
  split at h
  · split at h
    · rename_i hfile
      cases h
      exact leaf_of_file hfile
    · exact absurd h (by simp)
  · rename_i hlook
    cases h
    obtain ⟨d, n, rfl, hdir, hn⟩ := lookup_fresh hlook
    exact ⟨by simp, by rw [List.dropLast_concat, hdir], by rw [hn]; simp⟩
  · exact absurd h (by simp)

/-- `Path.write_text`. -/
def writeText (path : Path) (content : String) : Except Errno Tree :=
  match T.opens links path with
  | some loc => .ok (T.put loc (.file content))
  | none =>
      match T.look links path with
      | .fails e => .error e
      | _ => .error .isdir

variable {T links} in
lemma writeText_of_opens {path : Path} {loc : Loc} (h : T.opens links path = some loc)
    (content : String) : T.writeText links path content = .ok (T.put loc (.file content)) := by
  rw [writeText, h]

variable {T links} in
lemma writeText_of_not_opens {path : Path} (h : T.opens links path = none) (content : String) :
    ∃ e, T.writeText links path content = .error e := by
  rw [writeText, h]
  dsimp only
  split <;> exact ⟨_, rfl⟩

/-- `os.unlink`. -/
def unlink (path : Path) : Except Errno Tree :=
  match path.getLast? with
  | some (.down n) =>
      match T.look links path.dropLast with
      | .found d _ =>
          if T.node d ≠ some .dir then .error .notdir
          else
            match T.node (d ++ [n]) with
            | none => .error .noent
            | some .dir => .error .isdir
            | some _ => .ok (T.remove (d ++ [n]))
      | l => .error l.errno
  | _ => .error .isdir

end Tree

end Foundation
