import IplanRunner.Foundation.PosixPath
import IplanRunner.Validation.LedgerRules

/-!
The path jail (`effectors/sandbox.py`, `SANDBOX_CONTRACT.md`) and the gate behind it
(`ledger/isolation.py`).

* `classifyPath`: the decision of the jail.
* `location`, `Covers`: where a text leads from the workspace, and when a root has it inside;
  `classifyPath_allowed_iff` says that the jail allows exactly what a root covers.
* `Strays`, `Respelt`: the two kinds of texts on which the gate, a test of prefixes, says otherwise;
  `inScope_iff_allowed` says that there are no others.
* `classifyDoc`: the decision on lists that come from a document; `classifyDoc_forbidden_iff` says
  what the forbidden paths of a scope are for.
* `inScope_iff_allowed_of_plain`: texts written in full, name by name, are of neither kind.
-/

namespace IplanRunner

open Foundation

/-! ### The decision -/

/-- A decision of the jail. -/
structure Decision where
  allowed : Bool
  reason : String
  deriving DecidableEq, Repr

/-- `normalized == base or normalized.startswith(base + "/")`. -/
def isUnder (normalized base : List Char) : Bool :=
  normalized == base || (base ++ ['/']).isPrefixOf normalized

/-- The loop of `classify_path` over the roots. -/
def classifyRoots (normalized : List Char) (forbiddenPaths : List String) : List String → Decision
  | [] => ⟨false, "SANDBOX.OUTSIDE_ROOTS"⟩
  | root :: rest =>
      if isUnder normalized (normpath root.toList) then
        if forbiddenPaths.any fun forbidden => isUnder normalized (normpath forbidden.toList) then
          ⟨false, "SANDBOX.FORBIDDEN"⟩
        else ⟨true, "SANDBOX.OK"⟩
      else classifyRoots normalized forbiddenPaths rest

/-- `classify_path`. -/
def classifyPath (path : String) (allowedRoots : List String)
    (forbiddenPaths : List String := []) : Decision :=
  if isabs path.toList then ⟨false, "SANDBOX.ESCAPE"⟩
  else
    let normalized := normpath path.toList
    if normalized == ['.', '.'] || ['.', '.', '/'].isPrefixOf normalized then
      ⟨false, "SANDBOX.ESCAPE"⟩
    else classifyRoots normalized forbiddenPaths allowedRoots

/-! ### What it means -/

/-- Where a relative text leads from the workspace, read name by name; `none` for an absolute text
and for one that climbs out. -/
def location (text : String) : Option (List Name) :=
  if isabs text.toList then none else locate [] (stepsOf text.toList)

/-- The path leads to where the root leads, or below it.  A root that leads to the workspace itself
has only the workspace inside. -/
def Covers (root path : String) : Prop :=
  ∃ r loc, location root = some r ∧ location path = some loc ∧ (r = loc ∨ r ≠ [] ∧ r <+: loc)

lemma classifyRoots_allowed (normalized : List Char) (roots : List String) :
    (classifyRoots normalized [] roots).allowed = true
      ↔ ∃ root ∈ roots, isUnder normalized (normpath root.toList) = true := by
  induction roots with
  | nil => simp [classifyRoots]
  | cons root rest ih =>
      rw [classifyRoots]
      by_cases hunder : isUnder normalized (normpath root.toList) = true
      · rw [if_pos hunder]
        exact ⟨fun _ => ⟨root, List.mem_cons_self, hunder⟩, fun _ => rfl⟩
      · rw [if_neg hunder, ih]
        constructor
        · rintro ⟨r, hr, h⟩
          exact ⟨r, List.mem_cons_of_mem _ hr, h⟩
        · rintro ⟨r, hr, h⟩
          rcases List.mem_cons.mp hr with rfl | hr
          · exact absurd h hunder
          · exact ⟨r, hr, h⟩

lemma isUnder_normpath_iff {path root : List Char} (hp : isabs path = false)
    (hr : isabs root = false) : isUnder (normpath path) (normpath root) = true
      ↔ collapse (stepsOf root) = collapse (stepsOf path)
        ∨ collapse (stepsOf root) ≠ [] ∧ collapse (stepsOf root) <+: collapse (stepsOf path) := by
  rw [isUnder, Bool.or_eq_true, beq_iff_eq, List.isPrefixOf_iff_prefix, normpath_eq hp,
    normpath_eq hr, join_under_iff (normParts_ne _) (normParts_ne _)
      (fun p h => (normParts_free _ p h).2) (fun p h => (normParts_free _ p h).2)]
  exact normParts_prefix_iff _ _

/-- Nothing relative lies under an absolute root. -/
lemma not_isUnder_of_isabs {path root : List Char} (hp : isabs path = false)
    (hr : isabs root = true) : isUnder (normpath path) (normpath root) = false := by
  have habs := isabs_normpath hr
  have hrel : isabs (normpath path) = false := by
    obtain ⟨part, rest, hparts⟩ :=
      List.exists_cons_of_ne_nil (normParts_ne (collapse (stepsOf path)))
    obtain ⟨hne, hfree⟩ := normParts_free (collapse (stepsOf path)) part
      (by rw [hparts]; exact List.mem_cons_self)
    obtain ⟨c, part, rfl⟩ := List.exists_cons_of_ne_nil hne
    have hc : c ≠ '/' := fun h => hfree (h ▸ List.mem_cons_self)
    rw [normpath_eq hp, hparts, join, List.intercalate_cons_cons_left, isabs_cons,
      beq_eq_false_iff_ne]
    exact Ne.symm hc
  obtain ⟨tail, htail⟩ := List.isPrefixOf_iff_prefix.mp habs
  rw [isUnder, ← htail]
  cases hnorm : normpath path with
  | nil => rfl
  | cons c rest =>
      rw [hnorm, isabs_cons, beq_eq_false_iff_ne] at hrel
      have hne : (c == '/') = false := beq_eq_false_iff_ne.mpr (Ne.symm hrel)
      have hne' : ('/' == c) = false := beq_eq_false_iff_ne.mpr hrel
      simp [List.isPrefixOf, hne, hne']

/-- A relative text escapes by its name exactly when its steps climb out. -/
lemma escapes_iff {path : List Char} (hp : isabs path = false) :
    (normpath path == ['.', '.'] || ['.', '.', '/'].isPrefixOf (normpath path)) = true
      ↔ locate [] (stepsOf path) = none := by
  have hup : normpath ['.', '.'] = ['.', '.'] := by decide
  have hunder : (normpath path == ['.', '.'] || ['.', '.', '/'].isPrefixOf (normpath path))
      = isUnder (normpath path) (normpath ['.', '.']) := by rw [hup]; rfl
  have hsteps : collapse (stepsOf ['.', '.']) = [.up] := by decide
  rw [hunder, isUnder_normpath_iff hp (by decide), hsteps]
  constructor
  · intro h
    by_contra hsome
    obtain ⟨loc, hloc⟩ := Option.ne_none_iff_exists'.mp hsome
    rw [collapse_of_locate hloc] at h
    cases loc with
    | nil => simp at h
    | cons n loc => simp [List.cons_prefix_cons] at h
  · intro hnone
    obtain ⟨rest, hrest⟩ := List.head?_eq_some_iff.mp (collapse_of_climbs hnone)
    rw [hrest]
    exact Or.inr ⟨by simp, rest, rfl⟩

/-- **The jail allows a path exactly when a root covers it.** -/
theorem classifyPath_allowed_iff (path : String) (roots : List String) :
    (classifyPath path roots).allowed = true ↔ ∃ root ∈ roots, Covers root path := by
  by_cases hp : isabs path.toList = true
  · have hnone : location path = none := by rw [location, if_pos hp]
    rw [classifyPath, if_pos hp]
    refine ⟨fun h => absurd h (by simp), ?_⟩
    rintro ⟨root, -, r, loc, -, hloc, -⟩
    rw [hnone] at hloc
    exact absurd hloc (by simp)
  rw [Bool.not_eq_true] at hp
  have hpath : location path = locate [] (stepsOf path.toList) := by
    rw [location, if_neg (by rw [hp]; decide)]
  rw [classifyPath, if_neg (by rw [hp]; decide)]
  dsimp only
  cases hlocate : locate [] (stepsOf path.toList) with
  | none =>
      rw [if_pos ((escapes_iff hp).mpr hlocate)]
      refine ⟨fun h => absurd h (by simp), ?_⟩
      rintro ⟨root, -, r, loc, -, hloc, -⟩
      rw [hpath, hlocate] at hloc
      exact absurd hloc (by simp)
  | some loc =>
      have hnot : ¬ (normpath path.toList == ['.', '.']
          || ['.', '.', '/'].isPrefixOf (normpath path.toList)) = true := by
        rw [escapes_iff hp, hlocate]
        simp
      rw [if_neg hnot, classifyRoots_allowed]
      refine exists_congr fun root => and_congr_right fun _ => ?_
      by_cases hr : isabs root.toList = true
      · rw [not_isUnder_of_isabs hp hr]
        refine ⟨fun h => absurd h (by simp), ?_⟩
        rintro ⟨r, loc', hroot, -⟩
        rw [location, if_pos hr] at hroot
        exact absurd hroot (by simp)
      rw [Bool.not_eq_true] at hr
      have hroot : location root = locate [] (stepsOf root.toList) := by
        rw [location, if_neg (by rw [hr]; decide)]
      rw [isUnder_normpath_iff hp hr, collapse_of_locate hlocate, Covers, hroot, hpath, hlocate]
      cases hbase : locate [] (stepsOf root.toList) with
      | none =>
          -- a root that climbs out is written with a step up in front
          obtain ⟨rest, hrest⟩ := List.head?_eq_some_iff.mp (collapse_of_climbs hbase)
          rw [hrest]
          constructor
          · rintro (h | ⟨-, h⟩)
            · cases loc with
              | nil => exact absurd h (by simp)
              | cons n loc => exact absurd h (by simp)
            · cases loc with
              | nil => exact absurd (List.prefix_nil.mp h) (by simp)
              | cons n loc => exact absurd (List.cons_prefix_cons.mp h).1 (by simp)
          · rintro ⟨r, loc', hr', -⟩
            exact absurd hr' (by simp)
      | some r =>
          have hinj : Function.Injective (Step.down : Name → Step Name) :=
            fun _ _ h => Step.down.inj h
          rw [collapse_of_locate hbase, List.map_injective_iff.mpr hinj |>.eq_iff,
            List.prefix_map_iff_of_injective hinj, Ne, List.map_eq_nil_iff]
          constructor
          · intro h
            exact ⟨r, loc, rfl, rfl, h⟩
          · rintro ⟨r', loc', hr', hloc', h⟩
            cases hr'
            cases hloc'
            exact h

/-! ### Forbidden paths -/

/-- An entry of the forbidden paths has the path inside, as the jail compares them. -/
def Barred (path : String) (forbiddenPaths : List String) : Prop :=
  ∃ forbidden ∈ forbiddenPaths, isUnder (normpath path.toList) (normpath forbidden.toList) = true

instance (path : String) (forbiddenPaths : List String) : Decidable (Barred path forbiddenPaths) :=
  inferInstanceAs (Decidable (∃ forbidden ∈ forbiddenPaths, _))

lemma classifyRoots_barred {path : String} {forbiddenPaths : List String}
    (h : Barred path forbiddenPaths) (roots : List String) :
    classifyRoots (normpath path.toList) forbiddenPaths roots
      = if (classifyRoots (normpath path.toList) [] roots).allowed then ⟨false, "SANDBOX.FORBIDDEN"⟩
        else classifyRoots (normpath path.toList) [] roots := by
  have hany : (forbiddenPaths.any fun f =>
    isUnder (normpath path.toList) (normpath f.toList)) = true :=
    List.any_eq_true.mpr h
  induction roots with
  | nil => rfl
  | cons root rest ih =>
      rw [classifyRoots, classifyRoots, hany]
      by_cases hunder : isUnder (normpath path.toList) (normpath root.toList) = true
      · simp [hunder]
      · simp only [hunder, Bool.false_eq_true, if_false]
        exact ih

lemma classifyRoots_clear {path : String} {forbiddenPaths : List String}
    (h : ¬ Barred path forbiddenPaths) (roots : List String) :
    classifyRoots (normpath path.toList) forbiddenPaths roots
      = classifyRoots (normpath path.toList) [] roots := by
  have hany : (forbiddenPaths.any fun f => isUnder (normpath path.toList) (normpath f.toList))
      = false := by
    rw [← Bool.not_eq_true, List.any_eq_true]
    exact h
  induction roots with
  | nil => rfl
  | cons root rest ih =>
      rw [classifyRoots, classifyRoots, hany, ih]
      rfl

/-- **What the forbidden paths change**: only a path the roots allow, and then the reason says
so. -/
theorem classifyPath_forbidden (path : String) (roots forbiddenPaths : List String) :
    classifyPath path roots forbiddenPaths
      = if (classifyPath path roots).allowed = true ∧ Barred path forbiddenPaths then
          ⟨false, "SANDBOX.FORBIDDEN"⟩
        else classifyPath path roots := by
  by_cases hbarred : Barred path forbiddenPaths
  · simp only [hbarred, and_true]
    rw [classifyPath, classifyPath]
    split
    · rfl
    · dsimp only
      split
      · rfl
      · exact classifyRoots_barred hbarred roots
  · simp only [hbarred, and_false, if_false]
    rw [classifyPath, classifyPath]
    dsimp only
    rw [classifyRoots_clear hbarred]

/-! ### Lists of a document -/

/-- `posixpath.normpath` of a value of a document. -/
def normDoc : Val → Except PyErr (List Char)
  | .str s => .ok (normpath s.toList)
  | _ => .error .typeError

/-- The path is the entry or lies under it. -/
def underDoc (normalized : List Char) (entry : Val) : Except PyErr Bool := do
  return isUnder normalized (← normDoc entry)

/-- The loop of `classify_path` over roots that come from a document. -/
def classifyRootsDoc (normalized : List Char) (forbiddenPaths : List Val) :
    List Val → Except PyErr Decision
  | [] => .ok ⟨false, "SANDBOX.OUTSIDE_ROOTS"⟩
  | root :: rest => do
      if ← underDoc normalized root then
        if ← anyE (underDoc normalized) forbiddenPaths then return ⟨false, "SANDBOX.FORBIDDEN"⟩
        else return ⟨true, "SANDBOX.OK"⟩
      else classifyRootsDoc normalized forbiddenPaths rest

/-- `classify_path`, on lists that come from a document: an entry that is reached and is no text
raises. -/
def classifyDoc (path : String) (allowedRoots forbiddenPaths : List Val) : Except PyErr Decision :=
  if isabs path.toList then .ok ⟨false, "SANDBOX.ESCAPE"⟩
  else
    let normalized := normpath path.toList
    if normalized == ['.', '.'] || ['.', '.', '/'].isPrefixOf normalized then
      .ok ⟨false, "SANDBOX.ESCAPE"⟩
    else classifyRootsDoc normalized forbiddenPaths allowedRoots

@[simp] lemma underDoc_str (normalized : List Char) (entry : String) :
    underDoc normalized (.str entry) = .ok (isUnder normalized (normpath entry.toList)) := rfl

lemma classifyRootsDoc_str (normalized : List Char) (forbiddenPaths roots : List String) :
    classifyRootsDoc normalized (forbiddenPaths.map .str) (roots.map .str)
      = .ok (classifyRoots normalized forbiddenPaths roots) := by
  have hforbidden : anyE (underDoc normalized) (forbiddenPaths.map .str)
      = .ok (forbiddenPaths.any fun f => isUnder normalized (normpath f.toList)) :=
    anyE_map_ok fun _ _ => rfl
  induction roots with
  | nil => rfl
  | cons root rest ih =>
      rw [List.map_cons, classifyRootsDoc, classifyRoots, underDoc_str, ok_bind, hforbidden]
      split
      · rw [ok_bind]
        split <;> rfl
      · exact ih

/-- **On lists of texts** the decision is that of `classifyPath`. -/
theorem classifyDoc_str (path : String) (roots forbiddenPaths : List String) :
    classifyDoc path (roots.map .str) (forbiddenPaths.map .str)
      = .ok (classifyPath path roots forbiddenPaths) := by
  rw [classifyDoc, classifyPath]
  split
  · rfl
  · dsimp only
    split
    · rfl
    · exact classifyRootsDoc_str _ _ _

/-- The path lies under an entry of the list, as far as the entries are texts. -/
def BarredDoc (path : String) (forbiddenPaths : List Val) : Prop :=
  anyE (underDoc (normpath path.toList)) forbiddenPaths = .ok true

instance (path : String) (forbiddenPaths : List Val) : Decidable (BarredDoc path forbiddenPaths) :=
  inferInstanceAs (Decidable (_ = _))

lemma classifyRootsDoc_forbidden_iff (normalized : List Char) (forbiddenPaths roots : List Val) :
    classifyRootsDoc normalized forbiddenPaths roots = .ok ⟨false, "SANDBOX.FORBIDDEN"⟩
      ↔ (∃ reason, classifyRootsDoc normalized [] roots = .ok ⟨true, reason⟩)
        ∧ anyE (underDoc normalized) forbiddenPaths = .ok true := by
  induction roots with
  | nil => simp [classifyRootsDoc]
  | cons root rest ih =>
      rw [classifyRootsDoc, classifyRootsDoc]
      cases underDoc normalized root with
      | error e => simp [bind, Except.bind]
      | ok under =>
          cases under with
          | false => exact ih
          | true =>
              rw [ok_bind, ok_bind, if_pos rfl, if_pos rfl]
              cases anyE (underDoc normalized) forbiddenPaths with
              | error e => simp [bind, Except.bind]
              | ok barred => cases barred <;> simp [anyE, bind, Except.bind, pure, Except.pure]

/-- **A path is forbidden** when the roots allow it and a forbidden entry has it inside. -/
theorem classifyDoc_forbidden_iff (path : String) (roots forbiddenPaths : List Val) :
    classifyDoc path roots forbiddenPaths = .ok ⟨false, "SANDBOX.FORBIDDEN"⟩
      ↔ (∃ reason, classifyDoc path roots [] = .ok ⟨true, reason⟩)
        ∧ BarredDoc path forbiddenPaths := by
  rw [classifyDoc, classifyDoc, BarredDoc]
  split
  · simp
  · dsimp only
    split
    · simp
    · exact classifyRootsDoc_forbidden_iff _ _ _

/-! ### The gate -/

/-- The gate tests for prefixes. -/
lemma inScope_str (path : String) (roots : List String) :
    inScope path (roots.map .str) = .ok (roots.any (startsWith path)) :=
  anyE_map_ok fun _ _ => rfl

/-- The text begins with a root, and no root covers it: it leaves the root, climbs out of the
workspace, is absolute, or only begins with the same letters. -/
def Strays (path : String) (roots : List String) : Prop :=
  (∃ root ∈ roots, startsWith path root = true) ∧ ∀ root ∈ roots, ¬ Covers root path

/-- A root covers the path, and the text begins with none: it is not written the way its root is. -/
def Respelt (path : String) (roots : List String) : Prop :=
  (∃ root ∈ roots, Covers root path) ∧ ∀ root ∈ roots, startsWith path root = false

/-- **The gate and the jail agree exactly on the texts that neither stray nor are respelt.** -/
theorem inScope_iff_allowed (path : String) (roots : List String) :
    inScope path (roots.map .str) = .ok (classifyPath path roots).allowed
      ↔ ¬ Strays path roots ∧ ¬ Respelt path roots := by
  have hjail := classifyPath_allowed_iff path roots
  have hnone : (∀ root ∈ roots, ¬ Covers root path)
    ↔ (classifyPath path roots).allowed = false := by
    rw [← Bool.not_eq_true, hjail]
    exact ⟨fun h ⟨root, hr, hc⟩ => h root hr hc, fun h root hr hc => h ⟨root, hr, hc⟩⟩
  have hgate : (∃ root ∈ roots, startsWith path root = true) ↔ roots.any (startsWith path) = true :=
    List.any_eq_true.symm
  have hveto : (∀ root ∈ roots, startsWith path root = false)
      ↔ roots.any (startsWith path) = false := by
    rw [← Bool.not_eq_true, ← hgate]
    exact ⟨fun h ⟨root, hr, hs⟩ => by rw [h root hr] at hs; exact absurd hs (by simp),
      fun h root hr => by rw [← Bool.not_eq_true]; exact fun hs => h ⟨root, hr, hs⟩⟩
  rw [inScope_str, Except.ok.injEq, Strays, Respelt, hnone, hgate, hveto, ← hjail]
  cases roots.any (startsWith path) <;> cases (classifyPath path roots).allowed <;> simp

/-- **Where they disagree**: a path that leaves its root by a step up, one that only begins with the
letters of its root, one that is absolute under an absolute root, and two that are not written the
way their root is. -/
theorem inScope_ne_allowed :
    (inScope "src/../etc/x" [.str "src/"] = .ok true
      ∧ (classifyPath "src/../etc/x" ["src/"]).allowed = false)
    ∧ (inScope "src2/a" [.str "src"] = .ok true ∧ (classifyPath "src2/a" ["src"]).allowed = false)
    ∧ (inScope "/ws/a" [.str "/ws/"] = .ok true
      ∧ (classifyPath "/ws/a" ["/ws/"]).allowed = false)
    ∧ (inScope "./src/a" [.str "src/"] = .ok false
      ∧ (classifyPath "./src/a" ["src/"]).allowed = true)
    ∧ (inScope "src" [.str "src/"] = .ok false ∧ (classifyPath "src" ["src/"]).allowed = true) := by
  refine ⟨⟨rfl, ?_⟩, ⟨rfl, ?_⟩, ⟨rfl, ?_⟩, ⟨rfl, ?_⟩, rfl, ?_⟩ <;> decide +kernel

/-! ### Plain texts -/

/-- The names written out. -/
def plainText (names : List Name) : String := String.ofList (join (names.map (·.val)))

/-- The names written out, with a slash behind. -/
def plainRoot (names : List Name) : String := String.ofList (join (names.map (·.val)) ++ ['/'])

/-- A text that begins with a name is relative. -/
lemma isabs_join_names (names : List Name) (hne : names ≠ []) (rest : List Char) :
    isabs (join (names.map (·.val)) ++ rest) = false := by
  obtain ⟨n, names, rfl⟩ := List.exists_cons_of_ne_nil hne
  obtain ⟨c, cs, hn⟩ := List.exists_cons_of_ne_nil n.2.1
  have hc : '/' ≠ c := by
    rintro rfl
    exact n.2.2.2.2 (by rw [hn]; exact List.mem_cons_self)
  rw [List.map_cons, hn, join, List.intercalate_cons_cons_left, List.cons_append, isabs_cons,
    beq_eq_false_iff_ne]
  exact hc

lemma stepsOf_join_names (names : List Name) :
    stepsOf (join (names.map (·.val))) = names.map .down := by
  have htext : names.map (·.val) = (names.map Step.down).map Step.text := by
    rw [List.map_map]
    rfl
  rw [htext, stepsOf_join]

lemma location_plainText (names : List Name) : location (plainText names) = some names := by
  have habs : isabs (plainText names).toList = false := by
    by_cases hne : names = []
    · rw [hne]
      rfl
    · rw [plainText, String.toList_ofList, ← List.append_nil (join _)]
      exact isabs_join_names names hne []
  rw [location, habs, if_neg (by simp), plainText, String.toList_ofList, stepsOf_join_names,
    locate_map_down, List.nil_append]

lemma location_plainRoot {names : List Name} (hne : names ≠ []) :
    location (plainRoot names) = some names := by
  rw [location, plainRoot, String.toList_ofList, isabs_join_names names hne, if_neg (by simp),
    stepsOf_append_slash, stepsOf_join_names, locate_map_down, List.nil_append]

/-- A plain path begins with another plain root exactly when it goes on below it. -/
lemma startsWith_plainRoot_iff {path root : List Name} (hroot : root ≠ []) (hne : path ≠ root) :
    startsWith (plainText path) (plainRoot root) = true ↔ root <+: path := by
  have hinj : Function.Injective (fun n : Name => n.val) := Subtype.val_injective
  have hfree : ∀ (names : List Name), ∀ p ∈ names.map (·.val), '/' ∉ p := by
    intro names p hp
    obtain ⟨n, -, rfl⟩ := List.mem_map.mp hp
    exact n.2.2.2.2
  rw [startsWith, plainText, plainRoot, String.toList_ofList, String.toList_ofList,
    List.isPrefixOf_iff_prefix, ← List.prefix_map_iff_of_injective hinj]
  by_cases hpath : path = []
  · rw [hpath]
    refine ⟨fun h => absurd (List.prefix_nil.mp h) (by simp), fun h => ?_⟩
    exact absurd (List.map_eq_nil_iff.mp (List.prefix_nil.mp h)) hroot
  · have hpath' : path.map (·.val) ≠ [] := fun h => hpath (List.map_eq_nil_iff.mp h)
    have hroot' : root.map (·.val) ≠ [] := fun h => hroot (List.map_eq_nil_iff.mp h)
    rw [← join_under_iff hpath' hroot' (hfree path) (hfree root)]
    refine ⟨Or.inr, fun h => h.resolve_left fun heq => hne ?_⟩
    exact List.map_injective_iff.mpr hinj (join_inj hpath' hroot' (hfree path) (hfree root) heq)

/-- **On plain texts the gate and the jail agree**: roots written name by name with a slash behind,
and a path written name by name that is no root itself. -/
theorem inScope_iff_allowed_of_plain (path : List Name) (roots : List (List Name))
    (hroots : ∀ r ∈ roots, r ≠ []) (hpath : path ∉ roots) :
    inScope (plainText path) ((roots.map plainRoot).map .str)
      = .ok (classifyPath (plainText path) (roots.map plainRoot)).allowed := by
  have hone : ∀ root ∈ roots.map plainRoot,
      (startsWith (plainText path) root = true ↔ Covers root (plainText path)) := by
    intro root hmem
    obtain ⟨r, hr, rfl⟩ := List.mem_map.mp hmem
    have hne : path ≠ r := fun h => hpath (h ▸ hr)
    rw [startsWith_plainRoot_iff (hroots r hr) hne, Covers]
    constructor
    · intro hpre
      exact ⟨r, path, location_plainRoot (hroots r hr), location_plainText path,
        Or.inr ⟨hroots r hr, hpre⟩⟩
    · rintro ⟨r', loc, hr', hloc, h⟩
      rw [location_plainRoot (hroots r hr)] at hr'
      rw [location_plainText] at hloc
      cases hr'
      cases hloc
      exact (h.resolve_left (Ne.symm hne)).2
  rw [inScope_iff_allowed]
  constructor
  · rintro ⟨⟨root, hmem, hstarts⟩, hnone⟩
    exact hnone root hmem ((hone root hmem).mp hstarts)
  · rintro ⟨⟨root, hmem, hcovers⟩, hnone⟩
    have hstarts := (hone root hmem).mpr hcovers
    rw [hnone root hmem] at hstarts
    exact absurd hstarts (by simp)

end IplanRunner
