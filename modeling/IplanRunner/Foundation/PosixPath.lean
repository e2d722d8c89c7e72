import Mathlib.Tactic.Common

/-!
Paths as texts, and where they lead when nothing is looked up.

* `Step`, `locate`: the steps of a path and the location they lead to, from one given by its names;
  `none` when they climb over the top.
* `collapse`: a step up cancels the step down before it; `collapse_of_locate` says that this keeps
  the location, `collapse_of_climbs` that what climbs still begins with a step up.
* `isabs`, `normpath`: the functions of `posixpath`, and `normpath_eq`: on a relative text the
  second collapses its steps.
* `join_under_iff`: one joined text lies under another exactly when the one list of parts extends
  the other.
-/

namespace Foundation

/-! ### Steps -/

/-- A step of a path: to the parent, or to a child. -/
inductive Step (ν : Type) where
  | up
  | down (name : ν)
  deriving DecidableEq, Repr

section Steps

variable {ν : Type} [DecidableEq ν]

/-- Where the steps lead from a location, `none` when they climb over the top. -/
def locate : List ν → List (Step ν) → Option (List ν)
  | loc, [] => some loc
  | loc, .down n :: steps => locate (loc ++ [n]) steps
  | loc, .up :: steps => if loc = [] then none else locate loc.dropLast steps

/-- A step up cancels the step down before it. -/
def push (acc : List (Step ν)) : Step ν → List (Step ν)
  | .down n => acc ++ [.down n]
  | .up => if acc = [] ∨ acc.getLast? = some .up then acc ++ [.up] else acc.dropLast

/-- The steps with every step up cancelled that can be. -/
def collapse (steps : List (Step ν)) : List (Step ν) := steps.foldl push []

/-- What has climbed over the top stays there. -/
lemma foldl_push_climbed {acc : List (Step ν)} (h : acc.head? = some .up) (steps : List (Step ν)) :
    (steps.foldl push acc).head? = some .up := by
  induction steps generalizing acc with
  | nil => exact h
  | cons s steps ih =>
      rw [List.foldl_cons]
      refine ih ?_
      obtain ⟨rest, rfl⟩ : ∃ rest, acc = .up :: rest := by
        cases acc with
        | nil => exact absurd h (by simp)
        | cons x rest => exact ⟨rest, by rw [Option.some.inj h]⟩
      cases s with
      | down n => rfl
      | up =>
          rw [push]
          split
          · rfl
          · rename_i hkeep
            -- a single step up is never taken off
            cases rest with
            | nil => exact absurd (Or.inr rfl) hkeep
            | cons y rest => rfl

lemma foldl_push_map (loc : List ν) (steps : List (Step ν)) :
    (∀ loc', locate loc steps = some loc' →
        steps.foldl push (loc.map .down) = loc'.map .down)
      ∧ (locate loc steps = none → (steps.foldl push (loc.map .down)).head? = some .up) := by
  induction steps generalizing loc with
  | nil => simp [locate]
  | cons s steps ih =>
      cases s with
      | down n =>
          have hpush : push (loc.map .down) (.down n) = (loc ++ [n]).map .down := by
            rw [push, List.map_append, List.map_singleton]
          rw [List.foldl_cons, hpush, locate]
          exact ih (loc ++ [n])
      | up =>
          rw [List.foldl_cons, locate]
          by_cases hloc : loc = []
          · subst hloc
            rw [if_pos rfl]
            exact ⟨fun _ h => absurd h (by simp), fun _ => foldl_push_climbed rfl steps⟩
          · have hlast : (loc.map (Step.down : ν → Step ν)).getLast? ≠ some .up := by
              rw [List.getLast?_map]
              cases loc.getLast? <;> simp
            have hpush : push (loc.map .down) .up = loc.dropLast.map .down := by
              rw [push, if_neg (by rw [not_or]; exact ⟨by simpa using hloc, hlast⟩),
                List.map_dropLast]
            rw [if_neg hloc, hpush]
            exact ih loc.dropLast

/-- Steps that lead to a location collapse to the way straight down to it. -/
lemma collapse_of_locate {steps : List (Step ν)} {loc : List ν} (h : locate [] steps = some loc) :
    collapse steps = loc.map .down :=
  (foldl_push_map [] steps).1 loc h

/-- Steps that climb over the top still do when collapsed. -/
lemma collapse_of_climbs {steps : List (Step ν)} (h : locate [] steps = none) :
    (collapse steps).head? = some .up :=
  (foldl_push_map [] steps).2 h

omit [DecidableEq ν] in
/-- Names lead straight down. -/
lemma locate_map_down (loc names : List ν) :
    locate loc (names.map .down) = some (loc ++ names) := by
  induction names generalizing loc with
  | nil => rw [List.append_nil]; rfl
  | cons n names ih => rw [List.map_cons, locate, ih, List.append_assoc, List.singleton_append]

omit [DecidableEq ν] in
/-- Steps none of which leads up are names. -/
lemma exists_names {steps : List (Step ν)} (h : .up ∉ steps) :
    ∃ names : List ν, steps = names.map .down := by
  induction steps with
  | nil => exact ⟨[], rfl⟩
  | cons s steps ih =>
      obtain ⟨names, rfl⟩ := ih fun hmem => h (List.mem_cons_of_mem _ hmem)
      cases s with
      | up => exact absurd List.mem_cons_self h
      | down n => exact ⟨n :: names, rfl⟩

end Steps

/-! ### Joined texts -/

/-- `"/".join`. -/
def join (parts : List (List Char)) : List Char := ['/'].intercalate parts

lemma splitOn_join {parts : List (List Char)} (hne : parts ≠ []) (hfree : ∀ p ∈ parts, '/' ∉ p) :
    (join parts).splitOn '/' = parts :=
  List.splitOn_intercalate '/' hfree hne

lemma join_inj {xs ys : List (List Char)} (hxs : xs ≠ []) (hys : ys ≠ [])
    (hx : ∀ p ∈ xs, '/' ∉ p) (hy : ∀ p ∈ ys, '/' ∉ p) (h : join xs = join ys) : xs = ys := by
  rw [← splitOn_join hxs hx, h, splitOn_join hys hy]

lemma join_append {xs ys : List (List Char)} (hxs : xs ≠ []) (hys : ys ≠ []) :
    join (xs ++ ys) = join xs ++ '/' :: join ys := by
  induction xs with
  | nil => exact absurd rfl hxs
  | cons x xs ih =>
      by_cases hrest : xs = []
      · rw [hrest, List.singleton_append, join, join, join,
          List.intercalate_cons_of_ne_nil hys, List.intercalate_singleton, List.append_assoc]
        rfl
      · have hne : xs ++ ys ≠ [] := List.append_ne_nil_of_left_ne_nil hrest ys
        rw [List.cons_append, join, List.intercalate_cons_of_ne_nil hne, join,
          List.intercalate_cons_of_ne_nil hrest, ← join, ih hrest, ← join]
        simp only [List.append_assoc]

/-- **One joined text is the other, or begins with it and a separator**, exactly when its parts
extend those of the other. -/
lemma join_under_iff {xs ys : List (List Char)} (hxs : xs ≠ []) (hys : ys ≠ [])
    (hx : ∀ p ∈ xs, '/' ∉ p) (hy : ∀ p ∈ ys, '/' ∉ p) :
    (join xs = join ys ∨ join ys ++ ['/'] <+: join xs) ↔ ys <+: xs := by
  constructor
  · rintro (heq | ⟨rest, hrest⟩)
    · obtain rfl := join_inj hxs hys hx hy heq
      exact List.prefix_refl xs
    · have hsplit : xs = ys ++ rest.splitOn '/' := by
        calc xs = (join xs).splitOn '/' := (splitOn_join hxs hx).symm
          _ = (join ys ++ '/' :: rest).splitOn '/' := by rw [← hrest, List.append_assoc]; rfl
          _ = ys ++ rest.splitOn '/' := by
              rw [List.splitOn_append_cons_self, splitOn_join hys hy]
      exact ⟨_, hsplit.symm⟩
  · rintro ⟨zs, rfl⟩
    by_cases hzs : zs = []
    · exact Or.inl (by rw [hzs, List.append_nil])
    · refine Or.inr ⟨join zs, ?_⟩
      rw [join_append hys hzs, List.append_assoc]
      rfl

/-! ### The parts of a text -/

/-- A name of a directory entry. -/
def IsName (part : List Char) : Prop :=
  part ≠ [] ∧ part ≠ ['.'] ∧ part ≠ ['.', '.'] ∧ '/' ∉ part

instance (part : List Char) : Decidable (IsName part) := by
  unfold IsName
  infer_instance

/-- The names of directory entries. -/
abbrev Name := { part : List Char // IsName part }

/-- The step a part of a path stands for: none when it is empty or a dot. -/
def stepOf (part : List Char) : Option (Step Name) :=
  if part = ['.', '.'] then some .up
  else if h : IsName part then some (.down ⟨part, h⟩) else none

/-- The steps of a path. -/
def stepsOf (path : List Char) : List (Step Name) := (path.splitOn '/').filterMap stepOf

/-- The part a step is written as. -/
def Step.text : Step Name → List Char
  | .up => ['.', '.']
  | .down n => n.val

lemma Step.text_ne (s : Step Name) : s.text ≠ [] ∧ s.text ≠ ['.'] ∧ '/' ∉ s.text := by
  cases s with
  | up => exact ⟨by decide, by decide, by decide⟩
  | down n => exact ⟨n.2.1, n.2.2.1, n.2.2.2.2⟩

lemma Step.text_injective : Function.Injective Step.text := by
  intro s t h
  cases s with
  | up =>
      cases t with
      | up => rfl
      | down n => exact absurd h.symm n.2.2.2.1
  | down m =>
      cases t with
      | up => exact absurd h m.2.2.2.1
      | down n => rw [Subtype.ext h]

lemma stepOf_text (s : Step Name) : stepOf s.text = some s := by
  cases s with
  | up => rfl
  | down n =>
      have hup : (Step.down n).text ≠ ['.', '.'] := n.2.2.2.1
      rw [stepOf, if_neg hup, dif_pos (show IsName (Step.down n).text from n.2)]
      rfl

lemma text_of_stepOf {part : List Char} {s : Step Name} (h : stepOf part = some s) :
    s.text = part := by
  rw [stepOf] at h
  split at h
  · rename_i hup
    rw [← Option.some.inj h, hup]
    rfl
  · split at h
    · rw [← Option.some.inj h]
      rfl
    · exact absurd h (by simp)

/-- A part of a split text stands for no step only when it is empty or a dot. -/
lemma stepOf_eq_none {part : List Char} (hfree : '/' ∉ part) :
    stepOf part = none ↔ part = [] ∨ part = ['.'] := by
  rw [stepOf]
  constructor
  · intro h
    split at h
    · exact absurd h (by simp)
    · split at h
      · exact absurd h (by simp)
      · rename_i hup hname
        by_contra hne
        rw [not_or] at hne
        exact hname ⟨hne.1, hne.2, hup, hfree⟩
  · rintro (rfl | rfl) <;> decide

/-- The parts of a split text hold no separator. -/
lemma not_mem_of_mem_splitOn {path part : List Char} (h : part ∈ path.splitOn '/') :
    '/' ∉ part := by
  induction path generalizing part with
  | nil =>
      rw [List.splitOn_nil, List.mem_singleton] at h
      rw [h]
      exact List.not_mem_nil
  | cons c path ih =>
      rw [List.splitOn_cons_eq_if_modifyHead] at h
      split at h
      · rcases List.mem_cons.mp h with rfl | h
        · exact List.not_mem_nil
        · exact ih h
      · rename_i hc
        obtain ⟨head, rest, hsplit⟩ := List.exists_cons_of_ne_nil (List.splitOn_ne_nil '/' path)
        rw [hsplit, List.modifyHead_cons] at h
        rcases List.mem_cons.mp h with rfl | h
        · have hhead : '/' ∉ head := ih (by rw [hsplit]; exact List.mem_cons_self)
          rw [List.mem_cons, not_or]
          exact ⟨fun heq => hc (by rw [heq]; exact beq_self_eq_true c), hhead⟩
        · exact ih (by rw [hsplit]; exact List.mem_cons_of_mem _ h)

/-- The steps of a joined text are those of its parts. -/
lemma stepsOf_join (steps : List (Step Name)) : stepsOf (join (steps.map Step.text)) = steps := by
  by_cases hne : steps = []
  · rw [hne]
    decide
  · have hfree : ∀ p ∈ steps.map Step.text, '/' ∉ p := by
      intro p hp
      obtain ⟨s, -, rfl⟩ := List.mem_map.mp hp
      exact s.text_ne.2.2
    rw [stepsOf, splitOn_join (by simpa using hne) hfree, List.filterMap_map]
    have hid : (stepOf ∘ Step.text) = some := funext stepOf_text
    rw [hid, List.filterMap_some]

/-- A slash at the end is no step. -/
lemma stepsOf_append_slash (path : List Char) : stepsOf (path ++ ['/']) = stepsOf path := by
  have hlast : ([[]] : List (List Char)).filterMap stepOf = [] := by decide
  rw [stepsOf, List.splitOn_append_cons_self, List.filterMap_append, List.splitOn_nil, hlast,
    List.append_nil, stepsOf]

/-- The steps of two texts with a slash between them are those of one and then those of the
other. -/
lemma stepsOf_append_cons (path rest : List Char) :
    stepsOf (path ++ '/' :: rest) = stepsOf path ++ stepsOf rest := by
  rw [stepsOf, List.splitOn_append_cons_self, List.filterMap_append, stepsOf, stepsOf]

/-- A name is one step. -/
lemma stepsOf_name (n : Name) : stepsOf n.val = [.down n] := by
  have h := stepsOf_join [.down n]
  rwa [join, List.map_singleton, List.intercalate_singleton] at h

/-! ### `posixpath` -/

/-- `isabs`. -/
def isabs (path : List Char) : Bool := ['/'].isPrefixOf path

lemma isabs_cons (c : Char) (rest : List Char) : isabs (c :: rest) = ('/' == c) := by
  rw [isabs, List.isPrefixOf, List.isPrefixOf, Bool.and_true]

/-- The slashes `normpath` keeps in front: two when there are exactly two. -/
def initialSlashes (path : List Char) : ℕ :=
  if !isabs path then 0
  else if ['/', '/'].isPrefixOf path && !(['/', '/', '/'].isPrefixOf path) then 2
  else 1

/-- The body of the loop of `normpath`. -/
def normComp (initial : ℕ) (comps : List (List Char)) (comp : List Char) : List (List Char) :=
  if comp = [] ∨ comp = ['.'] then comps
  else if comp ≠ ['.', '.'] ∨ (initial = 0 ∧ comps = [])
      ∨ (comps ≠ [] ∧ comps.getLast? = some ['.', '.']) then comps ++ [comp]
  else comps.dropLast

/-- `normpath`. -/
def normpath (path : List Char) : List Char :=
  if path = [] then ['.']
  else
    let initial := initialSlashes path
    let comps := (path.splitOn '/').foldl (normComp initial) []
    let text := List.replicate initial '/' ++ join comps
    if text = [] then ['.'] else text

/-- The parts `normpath` writes steps as: a dot when there are none. -/
def normParts (steps : List (Step Name)) : List (List Char) :=
  if steps = [] then [['.']] else steps.map Step.text

lemma normComp_text (acc : List (Step Name)) {comp : List Char} (hfree : '/' ∉ comp) :
    normComp 0 (acc.map Step.text) comp
      = ((stepOf comp).elim acc (push acc)).map Step.text := by
  cases hs : stepOf comp with
  | none =>
      rw [normComp, if_pos ((stepOf_eq_none hfree).mp hs)]
      rfl
  | some s =>
      obtain rfl := text_of_stepOf hs
      have hstep : ¬ (s.text = [] ∨ s.text = ['.']) := not_or.mpr ⟨s.text_ne.1, s.text_ne.2.1⟩
      rw [normComp, if_neg hstep, Option.elim_some]
      cases s with
      | down n =>
          have hup : (Step.down n).text ≠ ['.', '.'] := n.2.2.2.1
          rw [if_pos (Or.inl hup), push, List.map_append]
          rfl
      | up =>
          have hlast : (acc.map Step.text).getLast? = some ['.', '.']
              ↔ acc.getLast? = some .up := by
            rw [List.getLast?_map]
            cases acc.getLast? with
            | none => simp
            | some s =>
                rw [Option.map_some, Option.some_inj, Option.some_inj]
                exact ⟨fun h => Step.text_injective h, fun h => by rw [h]; rfl⟩
          have hiff : (Step.text .up ≠ ['.', '.'] ∨ (0 = 0 ∧ acc.map Step.text = [])
              ∨ (acc.map Step.text ≠ [] ∧ (acc.map Step.text).getLast? = some ['.', '.']))
              ↔ acc = [] ∨ acc.getLast? = some .up := by
            rw [hlast, List.map_eq_nil_iff]
            refine ⟨?_, fun h => Or.inr ?_⟩
            · rintro (h | h | h)
              · exact absurd rfl h
              · exact Or.inl h.2
              · exact Or.inr h.2
            · rcases h with h | h
              · exact Or.inl ⟨rfl, h⟩
              · exact Or.inr ⟨fun hnil => by
                rw [List.map_eq_nil_iff.mp hnil] at h
                exact absurd h (by simp), h⟩
          rw [push]
          by_cases hkeep : acc = [] ∨ acc.getLast? = some .up
          · rw [if_pos (hiff.mpr hkeep), if_pos hkeep, List.map_append]
            rfl
          · rw [if_neg (fun h => hkeep (hiff.mp h)), if_neg hkeep, List.map_dropLast]

/-- The loop of `normpath` collapses the steps of a relative text. -/
lemma foldl_normComp (path : List Char) :
    (path.splitOn '/').foldl (normComp 0) [] = (collapse (stepsOf path)).map Step.text := by
  have key : ∀ (comps : List (List Char)) (acc : List (Step Name)), (∀ p ∈ comps, '/' ∉ p) →
      comps.foldl (normComp 0) (acc.map Step.text)
        = ((comps.filterMap stepOf).foldl push acc).map Step.text := by
    intro comps
    induction comps with
    | nil => intro acc _; rfl
    | cons comp comps ih =>
        intro acc hfree
        rw [List.foldl_cons, normComp_text acc (hfree comp List.mem_cons_self),
          ih _ fun p hp => hfree p (List.mem_cons_of_mem _ hp), List.filterMap_cons]
        cases stepOf comp <;> rfl
  exact key _ [] fun p hp => not_mem_of_mem_splitOn hp

/-- **`normpath` on a relative text** writes its collapsed steps. -/
theorem normpath_eq {path : List Char} (hrel : isabs path = false) :
    normpath path = join (normParts (collapse (stepsOf path))) := by
  rw [normpath, normParts]
  by_cases hnil : path = []
  · subst hnil
    decide
  · rw [if_neg hnil]
    have hinitial : initialSlashes path = 0 := by
      rw [initialSlashes, hrel]
      rfl
    simp only [hinitial, foldl_normComp, List.replicate_zero, List.nil_append]
    by_cases hsteps : collapse (stepsOf path) = []
    · rw [hsteps]
      decide
    · have hne : join ((collapse (stepsOf path)).map Step.text) ≠ [] := by
        obtain ⟨s, rest, hs⟩ := List.exists_cons_of_ne_nil hsteps
        rw [hs]
        intro hempty
        have hfree : ∀ p ∈ (s :: rest).map Step.text, '/' ∉ p := by
          intro p hp
          obtain ⟨t, -, rfl⟩ := List.mem_map.mp hp
          exact t.text_ne.2.2
        have hsplit := splitOn_join (List.cons_ne_nil _ _) hfree
        rw [← List.map_cons, hempty, List.splitOn_nil, List.map_cons] at hsplit
        exact s.text_ne.1 (List.cons.inj hsplit).1.symm
      rw [if_neg hne, if_neg hsteps]

/-- `normpath` keeps an absolute text absolute. -/
lemma isabs_normpath {path : List Char} (habs : isabs path = true) :
    isabs (normpath path) = true := by
  have hinitial : ∃ k, initialSlashes path = k + 1 := by
    rw [initialSlashes, habs]
    split
    · rename_i h; exact absurd h (by simp)
    · split
      · exact ⟨1, rfl⟩
      · exact ⟨0, rfl⟩
  obtain ⟨k, hk⟩ := hinitial
  rw [normpath]
  split
  · rename_i hnil; rw [hnil] at habs; exact absurd habs (by decide)
  · simp only [hk, List.replicate_succ, List.cons_append]
    rw [if_neg (by simp)]
    rfl

lemma normParts_ne (steps : List (Step Name)) : normParts steps ≠ [] := by
  rw [normParts]
  split
  · simp
  · simpa

lemma normParts_free (steps : List (Step Name)) : ∀ p ∈ normParts steps, p ≠ [] ∧ '/' ∉ p := by
  intro p hp
  rw [normParts] at hp
  split at hp
  · rw [List.mem_singleton.mp hp]
    exact ⟨by decide, by decide⟩
  · obtain ⟨s, -, rfl⟩ := List.mem_map.mp hp
    exact ⟨s.text_ne.1, s.text_ne.2.2⟩

/-- Steps are under others as they are written exactly when they extend them, those that lead
nowhere being under nothing but themselves. -/
lemma normParts_prefix_iff (steps base : List (Step Name)) :
    normParts base <+: normParts steps ↔ base = steps ∨ base ≠ [] ∧ base <+: steps := by
  rw [normParts, normParts]
  by_cases hb : base = []
  · rw [if_pos hb]
    by_cases hs : steps = []
    · rw [if_pos hs, hb, hs]
      simp
    · obtain ⟨s, rest, rfl⟩ := List.exists_cons_of_ne_nil hs
      rw [if_neg hs, List.map_cons, List.cons_prefix_cons]
      refine ⟨fun h => absurd h.1.symm s.text_ne.2.1, ?_⟩
      rintro (h | h)
      · exact absurd (hb.symm.trans h) (List.cons_ne_nil _ _).symm
      · exact absurd hb h.1
  · rw [if_neg hb]
    by_cases hs : steps = []
    · obtain ⟨b, rest, rfl⟩ := List.exists_cons_of_ne_nil hb
      rw [if_pos hs, List.map_cons, List.cons_prefix_cons, hs]
      refine ⟨fun h => absurd h.1 b.text_ne.2.1, ?_⟩
      rintro (h | h)
      · exact absurd h (List.cons_ne_nil _ _)
      · exact absurd (List.prefix_nil.mp h.2) (List.cons_ne_nil _ _)
    · rw [if_neg hs, List.prefix_map_iff_of_injective Step.text_injective]
      refine ⟨fun h => Or.inr ⟨hb, h⟩, ?_⟩
      rintro (h | h)
      · exact h ▸ List.prefix_refl _
      · exact h.2

end Foundation
