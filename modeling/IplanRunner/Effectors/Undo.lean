import IplanRunner.Effectors.Apply
import IplanRunner.Foundation.Relinked

/-!
What the undoing of writes leaves of a workspace (`effectors/compensate.py`).

* `placeOf`: the location a path of the workspace resolves to, which no write and no undoing
  changes.
* `Traced`: a tree that differs from an earlier one by the files at the places of written paths.
* `undoFrom_spec`: an undoing takes away the files at the places of its paths, as far as they are in
  the workspace.
* `restored_iff`: the earlier files are back exactly when there were none at these places.
-/

namespace IplanRunner

open Foundation

variable {lim : Limits} {root : Loc}

/-- `(root / path).resolve()`. -/
def placeOf (lim : Limits) (root : Loc) (T : Tree) (path : String) : Option Loc :=
  T.realpath lim.depth [] ((joinPath root path).map some)

lemma placeOf_congr {T T' : Tree} (h : T.SameLinks T') (path : String) :
    placeOf lim root T' path = placeOf lim root T path := (h.realpath _ _ _).symm

lemma resolveWorkspace_congr {T T' : Tree} (h : T.SameLinks T') (cwd : Loc) (workspace : String) :
    resolveWorkspace lim cwd workspace T' = resolveWorkspace lim cwd workspace T := by
  rw [resolveWorkspace, resolveWorkspace, h.realpath]

/-! ### What a write leaves alone -/

/-- A write that returns has changed the file at the place of its path. -/
lemma placeOf_of_opens (hlim : lim.links ≤ lim.depth) {T T₁ : Tree} {path : String} {loc : Loc}
    (hmade : Tree.made lim.links [] (joinPath root path).dropLast T = some T₁)
    (hopens : T₁.opens lim.links (joinPath root path) = some loc) (content : String) :
    T.SameLinks (T₁.put loc (.file content)) ∧ placeOf lim root T path = some loc
      ∧ ∀ l, l ≠ loc → (T₁.put loc (.file content)).fileAt l = T.fileAt l := by
  have hgrows := (Tree.made_grows hmade).1
  have hleaf := Tree.leaf_of_opens hopens
  have hplace : (T₁.look lim.links (joinPath root path)).place? = some loc
      ∧ ∀ target, T₁.node loc ≠ some (.link target) := by
    rw [Tree.opens] at hopens
    split at hopens
    · rename_i d j hlook
      split at hopens
      · rename_i hfile
        cases hopens
        exact ⟨by rw [hlook]; rfl, by rw [hfile]; simp⟩
      · cases hopens
    · rename_i hlook
      cases hopens
      obtain ⟨-, -, -, -, hnone⟩ := Tree.lookup_fresh hlook
      exact ⟨by rw [hlook]; rfl, by rw [hnone]; simp⟩
    · cases hopens
  refine ⟨hgrows.sameLinks.trans (Tree.sameLinks_put hleaf hplace.2 content), ?_, ?_⟩
  · rw [← placeOf_congr hgrows.sameLinks]
    exact Tree.realpath_of_place hlim hplace.1
  · intro l hne
    rw [Tree.fileAt_put hleaf content l hne, hgrows.fileAt]

/-- The tree differs from the first one by directories, and by the files at the places of the
paths. -/
structure Traced (lim : Limits) (root : Loc) (T₀ : Tree) (paths : List String) (T : Tree) :
    Prop where
  links : T₀.SameLinks T
  clear : ∀ p ∈ paths, hasNull (joinPath root p) = false
  places : ∀ p ∈ paths, ∃ loc, placeOf lim root T₀ p = some loc
  others : ∀ l, (∀ p ∈ paths, placeOf lim root T₀ p ≠ some l) → T.fileAt l = T₀.fileAt l

lemma traced_refl (T : Tree) : Traced lim root T [] T :=
  ⟨Tree.SameLinks.refl T, by simp, by simp, fun _ _ => rfl⟩

/-- **A write adds its path to those of the trace.** -/
theorem Traced.write (hlim : lim.links ≤ lim.depth) {T₀ T T₁ : Tree} {paths : List String}
    (h : Traced lim root T₀ paths T) {path : String} {loc : Loc}
    (hnull : hasNull (joinPath root path) = false)
    (hmade : Tree.made lim.links [] (joinPath root path).dropLast T = some T₁)
    (hopens : T₁.opens lim.links (joinPath root path) = some loc) (content : String) :
    Traced lim root T₀ (paths ++ [path]) (T₁.put loc (.file content)) := by
  obtain ⟨hlinks, hplace, hothers⟩ := placeOf_of_opens hlim hmade hopens content
  rw [placeOf_congr h.links] at hplace
  refine ⟨h.links.trans hlinks, ?_, ?_, fun l hl => ?_⟩
  · exact List.forall_mem_append.mpr ⟨h.clear, by simpa using hnull⟩
  · exact List.forall_mem_append.mpr ⟨h.places, by simpa using ⟨loc, hplace⟩⟩
  · obtain ⟨hbefore, hlast⟩ := List.forall_mem_append.mp hl
    have hne : l ≠ loc := by
      rintro rfl
      exact hlast path (List.mem_singleton_self path) hplace
    rw [hothers l hne, h.others l hbefore]

/-! ### What an undoing takes away -/

/-- The location is the place of one of the paths, in the workspace. -/
def Undone (lim : Limits) (root : Loc) (T : Tree) (paths : List String) (l : Loc) : Prop :=
  root <+: l ∧ ∃ p ∈ paths, placeOf lim root T p = some l

/-- **An undoing takes away the files at the places of its paths.** -/
theorem undoFrom_spec {paths : List String} {T : Tree}
    (hclear : ∀ p ∈ paths, hasNull (joinPath root p) = false)
    (hplaces : ∀ p ∈ paths, ∃ loc, placeOf lim root T p = some loc) :
    ∃ removed T', undoFrom lim root paths T = (.ok removed, T')
      ∧ (∀ l, Undone lim root T paths l → T'.fileAt l = none)
      ∧ ∀ l, ¬ Undone lim root T paths l → T'.fileAt l = T.fileAt l := by
  induction paths generalizing T with
  | nil =>
      refine ⟨[], T, rfl, ?_, fun _ _ => rfl⟩
      rintro l ⟨-, p, hp, -⟩
      cases hp
  | cons p rest ih =>
      obtain ⟨hnull, hclear⟩ := List.forall_mem_cons.mp hclear
      obtain ⟨⟨loc, hloc⟩, hplaces⟩ := List.forall_mem_cons.mp hplaces
      have hstraight := Tree.realpath_straight Tree.straight_top hloc
      have hcons : ∀ l, Undone lim root T (p :: rest) l
          ↔ root <+: l ∧ l = loc ∨ Undone lim root T rest l := by
        intro l
        simp only [Undone, List.mem_cons, exists_eq_or_imp, hloc, Option.some.injEq, and_or_left]
        rw [eq_comm]
      rw [placeOf] at hloc
      rw [undoFrom, if_neg (by simpa using hnull), hloc]
      dsimp only
      by_cases hfile : root <+: loc ∧ ∃ content, T.fileAt loc = some content
      · obtain ⟨hin, content, hcontent⟩ := hfile
        have hlinks : T.SameLinks (T.remove loc) :=
          Tree.sameLinks_remove (Tree.fileAt_eq_some_iff.mp hcontent)
        have hsame : ∀ l, Undone lim root (T.remove loc) rest l ↔ Undone lim root T rest l := by
          intro l
          simp only [Undone, placeOf_congr hlinks]
        obtain ⟨removed, T', hrun, hgone, hkept⟩ := ih hclear fun q hq => by
          rw [placeOf_congr hlinks]
          exact hplaces q hq
        have hchecks : (root.isPrefixOf loc && T.isFile lim.links (loc.map .down)) = true := by
          rw [Bool.and_eq_true, List.isPrefixOf_iff_prefix, hstraight.isFile_iff]
          exact ⟨hin, content, hcontent⟩
        refine ⟨p :: removed, T', ?_, fun l hl => ?_, fun l hl => ?_⟩
        · rw [if_pos hchecks, hstraight.unlink_file hcontent]
          dsimp only
          rw [hrun]
        · by_cases hrest : Undone lim root T rest l
          · exact hgone l ((hsame l).mpr hrest)
          · rcases (hcons l).mp hl with ⟨-, rfl⟩ | hl
            · rw [hkept l fun h => hrest ((hsame l).mp h), Tree.fileAt_remove hcontent, if_pos rfl]
            · exact absurd hl hrest
        · have hne : l ≠ loc := by
            rintro rfl
            exact hl ((hcons l).mpr (Or.inl ⟨hin, rfl⟩))
          rw [hkept l fun h => hl ((hcons l).mpr (Or.inr ((hsame l).mp h))),
            Tree.fileAt_remove hcontent, if_neg hne]
      · -- the path leads to no file of the workspace: nothing is done
        have hchecks : ¬ (root.isPrefixOf loc && T.isFile lim.links (loc.map .down)) = true := by
          rw [Bool.and_eq_true, List.isPrefixOf_iff_prefix, hstraight.isFile_iff]
          exact hfile
        obtain ⟨removed, T', hrun, hgone, hkept⟩ := ih hclear hplaces
        refine ⟨removed, T', ?_, fun l hl => ?_, fun l hl => ?_⟩
        · rw [if_neg hchecks, hrun]
        · by_cases hrest : Undone lim root T rest l
          · exact hgone l hrest
          · rcases (hcons l).mp hl with ⟨hin, rfl⟩ | hl
            · rw [hkept l hrest]
              by_contra hsome
              obtain ⟨content, hcontent⟩ := Option.ne_none_iff_exists'.mp hsome
              exact hfile ⟨hin, content, hcontent⟩
            · exact absurd hl hrest
        · exact hkept l fun h => hl ((hcons l).mpr (Or.inr h))

/-- Every file of the workspace is as it was, or absent as it was. -/
def Restored (root : Loc) (T T' : Tree) : Prop := ∀ l, root <+: l → T'.fileAt l = T.fileAt l

/-- **Undoing the writes of a trace restores the workspace** exactly when no path of the trace leads
into it to a file that was there before. -/
theorem restored_iff {T₀ T : Tree} {paths : List String} {cwd : Loc} {workspace : String}
    (h : Traced lim root T₀ paths T) (hroot : resolveWorkspace lim cwd workspace T₀ = .ok root) :
    Restored root T₀ (undoWrites lim cwd paths workspace T).2
      ↔ ∀ p ∈ paths, ∀ loc, placeOf lim root T₀ p = some loc → root <+: loc →
        T₀.fileAt loc = none := by
  have hplaces : ∀ p ∈ paths, ∃ loc, placeOf lim root T p = some loc := by
    intro p hp
    rw [placeOf_congr h.links]
    exact h.places p hp
  obtain ⟨removed, T', hrun, hgone, hkept⟩ := undoFrom_spec h.clear hplaces
  rw [undoWrites, resolveWorkspace_congr h.links, hroot]
  dsimp only
  rw [hrun]
  have hundone : ∀ l, Undone lim root T paths l
      ↔ root <+: l ∧ ∃ p ∈ paths, placeOf lim root T₀ p = some l := by
    intro l
    simp only [Undone, placeOf_congr h.links]
  constructor
  · intro hrestored p hp loc hloc hin
    rw [← hrestored loc hin]
    exact hgone loc ((hundone loc).mpr ⟨hin, p, hp, hloc⟩)
  · intro hnone l hin
    by_cases hl : ∃ p ∈ paths, placeOf lim root T₀ p = some l
    · obtain ⟨p, hp, hloc⟩ := hl
      show T'.fileAt l = T₀.fileAt l
      rw [hgone l ((hundone l).mpr ⟨hin, p, hp, hloc⟩), hnone p hp l hloc hin]
    · show T'.fileAt l = T₀.fileAt l
      rw [hkept l fun hu => hl ((hundone l).mp hu).2]
      exact h.others l fun p hp hloc => hl ⟨p, hp, hloc⟩

end IplanRunner
