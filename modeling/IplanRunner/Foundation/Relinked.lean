import IplanRunner.Foundation.MadeParents

/-!
What stays the same of a tree while files and directories come and go in it.

* `Tree.SameLinks`: the links are the same; `SameLinks.realpath`: so is what every path resolves to.
* `Lookup.place?`, `Tree.realpath_of_place`: where a walk comes to, an entry or a free name in a
  directory, is what its path resolves to.
* `Tree.fileAt`: the file at a location; what each change of an entry does to it.
-/

namespace Foundation

/-! ### Links -/

namespace Tree

/-- The links are the same. -/
def SameLinks (T T' : Tree) : Prop :=
  ∀ loc target, T.node loc = some (.link target) ↔ T'.node loc = some (.link target)

lemma SameLinks.refl (T : Tree) : T.SameLinks T := fun _ _ => Iff.rfl

lemma SameLinks.trans {T T' T'' : Tree} (h : T.SameLinks T') (h' : T'.SameLinks T'') :
    T.SameLinks T'' := fun loc target => (h loc target).trans (h' loc target)

lemma SameLinks.resolve {T T' : Tree} (h : T.SameLinks T')
    {enter enter' : Loc → List Comp → Option Loc}
    (henter : ∀ cur comps, enter cur comps = enter' cur comps) (cur : Loc) (comps : List Comp) :
    T.resolve enter cur comps = T'.resolve enter' cur comps := by
  induction comps generalizing cur with
  | nil => rfl
  | cons c rest ih =>
      cases c with
      | none => exact ih cur
      | some s =>
          cases s with
          | up => exact ih cur.dropLast
          | down n =>
              by_cases hlink : ∃ target, T.node (cur ++ [n]) = some (.link target)
              · obtain ⟨target, hn⟩ := hlink
                rw [Tree.resolve, Tree.resolve, hn, (h _ _).mp hn]
                dsimp only
                rw [henter]
                exact congrArg _ (funext ih)
              · rw [Tree.resolve, Tree.resolve]
                split
                · rename_i target hn
                  exact absurd ⟨target, hn⟩ hlink
                · split
                  · rename_i target hn
                    exact absurd ⟨target, (h _ _).mpr hn⟩ hlink
                  · exact ih (cur ++ [n])

/-- **A path resolves to the same location while the links are the same.** -/
theorem SameLinks.realpath {T T' : Tree} (h : T.SameLinks T') (depth : ℕ) (cur : Loc)
    (comps : List Comp) : T.realpath depth cur comps = T'.realpath depth cur comps := by
  induction depth generalizing cur comps with
  | zero => exact h.resolve (fun _ _ => rfl) cur comps
  | succ depth ih => exact h.resolve ih cur comps

lemma Grows.sameLinks {T T' : Tree} (h : T.Grows T') : T.SameLinks T' := by
  intro loc target
  rcases h loc with hsame | ⟨hnone, hdir⟩
  · rw [hsame]
  · rw [hnone, hdir]
    simp

/-- A location without a link may get a file. -/
lemma sameLinks_put {T : Tree} {loc : Loc} (hleaf : T.Leaf loc)
    (hlink : ∀ target, T.node loc ≠ some (.link target)) (content : String) :
    T.SameLinks (T.put loc (.file content)) := by
  intro l target
  rw [put_node hleaf]
  by_cases hl : l = loc
  · rw [if_pos hl, hl]
    simp [hlink target]
  · rw [if_neg hl]

/-- A file may be taken away. -/
lemma sameLinks_remove {T : Tree} {loc : Loc} {content : String}
    (hfile : T.node loc = some (.file content)) : T.SameLinks (T.remove loc) := by
  intro l target
  by_cases hl : l = loc
  · rw [hl, hfile, remove_node_self (leaf_of_file hfile)]
    simp
  · rw [remove_node_of_ne hl]

end Tree

/-! ### Where a walk comes to -/

/-- The location a walk comes to: an entry, or a free name in a directory. -/
def Lookup.place? : Lookup → Option Loc
  | .found loc _ => some loc
  | .fresh loc => some loc
  | .fails _ => none

namespace Tree

variable {T : Tree}

lemma walk_left_le {follow : Loc → List Comp → Lookup} {left : ℕ}
    (hfollow : ∀ cur comps loc j, follow cur comps = .found loc j → j ≤ left)
    {cur loc : Loc} {comps : List Comp} {j : ℕ} (h : T.walk follow left cur comps = .found loc j) :
    j ≤ left := by
  induction comps generalizing cur with
  | nil =>
      rw [walk_nil] at h
      cases h
      exact Nat.le_refl _
  | cons c rest ih =>
      by_cases hdir : T.node cur = some .dir
      · rw [T.walk_dir hdir] at h
        cases c with
        | none => exact ih h
        | some s =>
            cases s with
            | up => exact ih h
            | down n =>
                dsimp only at h
                cases hn : T.node (cur ++ [n]) with
                | none =>
                    rw [hn] at h
                    dsimp only at h
                    split at h <;> exact absurd h (by simp)
                | some nd =>
                    rw [hn] at h
                    cases nd with
                    | dir => exact ih h
                    | file content => exact ih h
                    | link target => exact hfollow _ _ _ _ h
      · rw [T.walk_notdir hdir] at h
        exact absurd h (by simp)

/-- A walk gives no links back. -/
lemma lookup_left_le {left j : ℕ} {cur loc : Loc} {comps : List Comp}
    (h : T.lookup left cur comps = .found loc j) : j ≤ left := by
  induction left generalizing cur loc comps j with
  | zero => exact walk_left_le (fun _ _ _ _ h => absurd h (by simp)) h
  | succ left ih => exact walk_left_le (fun _ _ _ _ h => Nat.le_succ_of_le (ih h)) h

lemma resolve_of_place {enter : Loc → List Comp → Option Loc} {bound : ℕ}
    (henter : ∀ left cur comps loc, left + 1 ≤ bound →
      (T.lookup left cur comps).place? = some loc → enter cur comps = some loc)
    {left : ℕ} (hle : left ≤ bound) {cur loc : Loc} {comps : List Comp}
    (h : (T.lookup left cur comps).place? = some loc) : T.resolve enter cur comps = some loc := by
  induction comps generalizing cur left with
  | nil =>
      rw [lookup_nil] at h
      exact h
  | cons c rest ih =>
      have hdir : T.node cur = some .dir := by
        by_contra hdir
        rw [lookup_notdir hdir] at h
        cases h
      cases c with
      | none => exact ih hle (by rwa [lookup_stay hdir] at h)
      | some s =>
          cases s with
          | up => exact ih hle (by rwa [lookup_up hdir] at h)
          | down n =>
              rw [resolve]
              cases hn : T.node (cur ++ [n]) with
              | none =>
                  rw [lookup_missing hdir hn] at h
                  split at h
                  · rename_i hrest
                    rw [hrest]
                    exact h
                  · cases h
              | some nd =>
                  cases nd with
                  | dir => exact ih hle (by rwa [lookup_entry hdir hn (by simp)] at h)
                  | file content => exact ih hle (by rwa [lookup_entry hdir hn (by simp)] at h)
                  | link target =>
                      cases left with
                      | zero =>
                          rw [(lookup_link hdir hn 0 rest).1] at h
                          cases h
                      | succ left =>
                          rw [(lookup_link hdir hn left rest).2, lookup_append] at h
                          dsimp only
                          cases hfirst : T.lookup left (if isabs target then [] else cur)
                              (compsOf target) with
                          | found m j =>
                              rw [hfirst] at h
                              rw [henter _ _ _ m hle (by rw [hfirst]; rfl), Option.bind_some]
                              have hj := lookup_left_le hfirst
                              exact ih (by omega) h
                          | fresh m =>
                              rw [hfirst, andThen] at h
                              rw [henter _ _ _ m hle (by rw [hfirst]; rfl), Option.bind_some]
                              split at h
                              · rename_i hrest
                                rw [hrest]
                                exact h
                              · cases h
                          | fails e =>
                              rw [hfirst] at h
                              cases h

/-- **What the system can walk to, `realpath` resolves**, when it nests links as deep as the system
follows them. -/
theorem realpath_of_place {depth left : ℕ} (hle : left ≤ depth) {cur loc : Loc} {comps : List Comp}
    (h : (T.lookup left cur comps).place? = some loc) : T.realpath depth cur comps = some loc := by
  induction depth generalizing cur loc comps left with
  | zero => exact resolve_of_place (fun _ _ _ _ hlt => absurd hlt (by omega)) hle h
  | succ depth ih =>
      exact resolve_of_place (fun _ _ _ _ hlt hplace => ih (by omega) hplace) hle h

/-- What is above an entry is there. -/
lemma node_ne_of_prefix {above loc : Loc} (h : above <+: loc) (hsome : T.node loc ≠ none) :
    T.node above ≠ none := by
  obtain ⟨names, rfl⟩ := h
  induction names using List.reverseRecOn with
  | nil => rwa [List.append_nil] at hsome
  | append_singleton names n ih =>
      rw [← List.append_assoc] at hsome
      exact ih (by rw [T.parent _ n hsome]; simp)

/-- A walk straight down to something without links finds it. -/
lemma Straight.found {left : ℕ} {cur : Loc} {names : List Name}
    (hstraight : T.Straight (cur ++ names)) (hsome : T.node (cur ++ names) ≠ none) :
    T.lookup left cur ((names.map .down).map some) = .found (cur ++ names) left := by
  induction names generalizing cur with
  | nil => rw [List.map_nil, List.map_nil, lookup_nil, List.append_nil]
  | cons n names ih =>
      have happend : cur ++ n :: names = cur ++ [n] ++ names := by
        rw [List.append_assoc, List.singleton_append]
      rw [happend] at hstraight hsome ⊢
      have hhere : T.node (cur ++ [n]) ≠ none := node_ne_of_prefix (List.prefix_append _ _) hsome
      have hdir : T.node cur = some .dir := T.parent cur n hhere
      obtain ⟨nd, hn⟩ := Option.ne_none_iff_exists'.mp hhere
      have hlink : ∀ target, nd ≠ .link target := by
        rintro target rfl
        exact hstraight _ (List.prefix_append _ _) target hn
      rw [List.map_cons, List.map_cons, lookup_entry hdir hn hlink]
      exact ih hstraight hsome

/-! ### Files -/

/-- The content of the file at a location. -/
def fileAt (T : Tree) (loc : Loc) : Option String :=
  match T.node loc with
  | some (.file content) => some content
  | _ => none

lemma fileAt_congr {T T' : Tree} {loc : Loc} (h : T'.node loc = T.node loc) :
    T'.fileAt loc = T.fileAt loc := by
  rw [fileAt, fileAt, h]

lemma Grows.fileAt {T T' : Tree} (h : T.Grows T') (loc : Loc) : T'.fileAt loc = T.fileAt loc := by
  rcases h loc with hsame | ⟨hnone, hdir⟩
  · exact fileAt_congr hsame
  · rw [Tree.fileAt, Tree.fileAt, hnone, hdir]

lemma fileAt_eq_some_iff {loc : Loc} {content : String} :
    T.fileAt loc = some content ↔ T.node loc = some (.file content) := by
  rw [fileAt]
  split
  · rename_i found hn
    rw [hn, Option.some.injEq, Option.some.injEq, Node.file.injEq]
  · rename_i hnot
    exact iff_of_false (by simp) (hnot content)

lemma fileAt_put {loc : Loc} (hleaf : T.Leaf loc) (content : String) (l : Loc) (hne : l ≠ loc) :
    (T.put loc (.file content)).fileAt l = T.fileAt l :=
  fileAt_congr (by rw [put_node hleaf, if_neg hne])

lemma fileAt_remove {loc : Loc} {content : String} (hfile : T.fileAt loc = some content) (l : Loc) :
    (T.remove loc).fileAt l = if l = loc then none else T.fileAt l := by
  rw [fileAt_eq_some_iff] at hfile
  by_cases hl : l = loc
  · rw [if_pos hl, hl, fileAt, remove_node_self (leaf_of_file hfile)]
  · rw [if_neg hl]
    exact fileAt_congr (remove_node_of_ne hl)

/-- `is_file` on a location without links. -/
lemma Straight.isFile_iff {loc : Loc} (h : T.Straight loc) (links : ℕ) :
    T.isFile links (loc.map .down) = true ↔ ∃ content, T.fileAt loc = some content := by
  have hstraight : T.Straight ([] ++ loc) := by rwa [List.nil_append]
  constructor
  · intro hfile
    rw [isFile] at hfile
    split at hfile
    · rename_i content hstat
      rw [stat] at hstat
      split at hstat
      · rename_i d j hlook
        obtain rfl := h.look hlook
        exact ⟨content, fileAt_eq_some_iff.mpr hstat⟩
      · cases hstat
    · cases hfile
  · rintro ⟨content, hcontent⟩
    rw [fileAt_eq_some_iff] at hcontent
    have hlook : T.look links (loc.map .down) = .found loc links :=
      hstraight.found (by rw [List.nil_append, hcontent]; simp)
    rw [isFile, stat, hlook]
    dsimp only
    rw [hcontent]

/-- `unlink` on a location without links takes its file away. -/
lemma Straight.unlink_file {loc : Loc} {content : String} (h : T.Straight loc)
    (hfile : T.fileAt loc = some content) (links : ℕ) :
    T.unlink links (loc.map .down) = .ok (T.remove loc) := by
  rw [fileAt_eq_some_iff] at hfile
  rcases List.eq_nil_or_concat loc with rfl | ⟨above, n, rfl⟩
  · rw [T.top] at hfile
    cases hfile
  · rw [List.concat_eq_append] at h hfile ⊢
    have hdir : T.node above = some .dir := T.parent above n (by rw [hfile]; simp)
    have hstraight : T.Straight ([] ++ above) := h.mono (List.prefix_append _ _)
    have hlook : T.look links (above.map .down) = .found above links :=
      hstraight.found (by rw [List.nil_append, hdir]; simp)
    rw [List.map_append, List.map_singleton, unlink, List.getLast?_concat, List.dropLast_concat]
    dsimp only
    rw [hlook]
    dsimp only
    rw [if_neg (not_not_intro hdir), hfile]

end Tree

end Foundation
