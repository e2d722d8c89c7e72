import IplanRunner.Effectors.Sandbox

/-!
What the path jail is for: soundness of `classify_path`, in the components of a path.

* `resolved`: the components a text is left with; `location_iff_resolved` says that a relative text
  stays in the workspace exactly when none of them is a step up.
* `Respells`: two relative texts with the same resolved components; `classifyPath_respells` says
  that the jail does not tell them apart.
* `jail_sound`: what an allowed path is, with the ways a decision may not change.
-/

namespace IplanRunner

open Foundation

/-! ### Resolved components -/

/-- The components of a text, once the empty ones, the dots and the names that are left again are
dropped. -/
def resolved (text : String) : List (Step Name) := collapse (stepsOf text.toList)

/-- Where a text leads, its resolved components say. -/
lemma resolved_of_location {text : String} {loc : List Name} (h : location text = some loc) :
    isabs text.toList = false ∧ resolved text = loc.map .down := by
  rw [location] at h
  by_cases habs : isabs text.toList = true
  · rw [if_pos habs] at h
    cases h
  · rw [if_neg habs] at h
    exact ⟨by simpa using habs, collapse_of_locate h⟩

/-- **A relative text stays in the workspace** exactly when no step up is left of it. -/
theorem location_iff_resolved {text : String} (hrel : isabs text.toList = false) :
    (∃ loc, location text = some loc) ↔ .up ∉ resolved text := by
  constructor
  · rintro ⟨loc, hloc⟩
    rw [(resolved_of_location hloc).2]
    simp
  · intro hup
    rw [location, if_neg (by simp [hrel])]
    cases hlocate : locate [] (stepsOf text.toList) with
    | some loc => exact ⟨loc, rfl⟩
    | none =>
        obtain ⟨rest, hrest⟩ := List.head?_eq_some_iff.mp (collapse_of_climbs hlocate)
        refine absurd ?_ hup
        rw [resolved, hrest]
        exact List.mem_cons_self

/-- Two relative texts with the same resolved components. -/
structure Respells (text text' : String) : Prop where
  relative : isabs text.toList = false
  relative' : isabs text'.toList = false
  same : resolved text = resolved text'

lemma Respells.normpath {text text' : String} (h : Respells text text') :
    normpath text.toList = normpath text'.toList := by
  have hsame : collapse (stepsOf text.toList) = collapse (stepsOf text'.toList) := h.same
  rw [normpath_eq h.relative, normpath_eq h.relative', hsame]

/-- The same text, or another spelling of it. -/
def SamePlace (text text' : String) : Prop := text = text' ∨ Respells text text'

lemma SamePlace.normpath {text text' : String} (h : SamePlace text text') :
    normpath text.toList = normpath text'.toList := by
  rcases h with rfl | h
  · rfl
  · exact h.normpath

/-- The loop over the roots reads roots and forbidden paths by their normal forms. -/
lemma classifyRoots_alike (normalized : List Char)
    {roots roots' forbidden forbidden' : List String} (hroots : List.Forall₂ SamePlace roots roots')
    (hforbidden : List.Forall₂ SamePlace forbidden forbidden') :
    classifyRoots normalized forbidden roots = classifyRoots normalized forbidden' roots' := by
  have hany : (forbidden.any fun f => isUnder normalized (Foundation.normpath f.toList))
      = forbidden'.any fun f => isUnder normalized (Foundation.normpath f.toList) := by
    induction hforbidden with
    | nil => rfl
    | cons hf _ ih => rw [List.any_cons, List.any_cons, ih, hf.normpath]
  induction hroots with
  | nil => rfl
  | cons hroot _ ih => rw [classifyRoots, classifyRoots, ih, hany, hroot.normpath]

/-- **The jail does not tell spellings apart**, of the path, of a root or of a forbidden path. -/
theorem classifyPath_respells {path path' : String}
    {roots roots' forbidden forbidden' : List String} (hpath : Respells path path')
    (hroots : List.Forall₂ SamePlace roots roots')
    (hforbidden : List.Forall₂ SamePlace forbidden forbidden') :
    classifyPath path' roots' forbidden' = classifyPath path roots forbidden := by
  rw [classifyPath, classifyPath, hpath.relative, hpath.relative', ← hpath.normpath]
  dsimp only
  rw [classifyRoots_alike _ hroots hforbidden]

/-! ### Soundness -/

/-- An allowed path is in a root, and in no forbidden path. -/
lemma classifyPath_allowed_forbidden_iff (path : String) (roots forbidden : List String) :
    (classifyPath path roots forbidden).allowed = true
      ↔ (∃ root ∈ roots, Covers root path) ∧ ¬ Barred path forbidden := by
  rw [← classifyPath_allowed_iff, classifyPath_forbidden]
  by_cases h : (classifyPath path roots).allowed = true ∧ Barred path forbidden
  · rw [if_pos h]
    simp [h.2]
  · rw [if_neg h]
    exact ⟨fun hallowed => ⟨hallowed, fun hbarred => h ⟨hallowed, hbarred⟩⟩, fun h => h.1⟩

/-- What a root covers extends its components. -/
lemma Covers.extends {root path : String} (h : Covers root path) :
    isabs root.toList = false ∧ isabs path.toList = false ∧ resolved root <+: resolved path := by
  obtain ⟨r, loc, hroot, hloc, hunder⟩ := h
  obtain ⟨hrootRel, hrootResolved⟩ := resolved_of_location hroot
  obtain ⟨hpathRel, hpathResolved⟩ := resolved_of_location hloc
  refine ⟨hrootRel, hpathRel, ?_⟩
  rw [hrootResolved, hpathResolved]
  rcases hunder with rfl | ⟨-, hextends⟩
  · exact List.prefix_refl _
  · exact hextends.map _

/-- A relative path is barred by a relative path whose components it extends. -/
lemma barred_of_extends {path f : String} {forbidden : List String} (hf : f ∈ forbidden)
    (hpath : isabs path.toList = false) (hrel : isabs f.toList = false) (hne : resolved f ≠ [])
    (hextends : resolved f <+: resolved path) : Barred path forbidden :=
  ⟨f, hf, (isUnder_normpath_iff hpath hrel).mpr (Or.inr ⟨hne, hextends⟩)⟩

/-- **The path jail is sound.**  An allowed path is relative and stays in the workspace, its
components extend those of a relative root, and those of no relative forbidden path that does not
lead to the workspace itself.  The decision does not depend on spellings, and with fewer roots and
more forbidden paths nothing more is allowed. -/
theorem jail_sound (path : String) (roots forbidden : List String) :
    ((classifyPath path roots forbidden).allowed = true →
      isabs path.toList = false ∧ (∃ loc, location path = some loc)
        ∧ (∃ root ∈ roots, isabs root.toList = false ∧ resolved root <+: resolved path)
        ∧ ∀ f ∈ forbidden, isabs f.toList = false → resolved f ≠ [] →
          ¬ resolved f <+: resolved path)
      ∧ (∀ path' roots' forbidden', Respells path path' → List.Forall₂ SamePlace roots roots' →
        List.Forall₂ SamePlace forbidden forbidden' →
        classifyPath path' roots' forbidden' = classifyPath path roots forbidden)
      ∧ ∀ roots' forbidden', roots' ⊆ roots → forbidden ⊆ forbidden' →
        (classifyPath path roots' forbidden').allowed = true →
        (classifyPath path roots forbidden).allowed = true := by
  refine ⟨fun h => ?_, fun _ _ _ => classifyPath_respells,
    fun roots' forbidden' hroots hforbidden h => ?_⟩
  · obtain ⟨⟨root, hroot, hcovers⟩, hclear⟩ :=
      (classifyPath_allowed_forbidden_iff path roots forbidden).mp h
    obtain ⟨hrootRel, hpathRel, hextends⟩ := hcovers.extends
    obtain ⟨r, loc, -, hloc, -⟩ := hcovers
    exact ⟨hpathRel, ⟨loc, hloc⟩, ⟨root, hroot, hrootRel, hextends⟩, fun f hf hrel hne hunder =>
      hclear (barred_of_extends hf hpathRel hrel hne hunder)⟩
  · obtain ⟨⟨root, hroot, hcovers⟩, hclear⟩ :=
      (classifyPath_allowed_forbidden_iff path roots' forbidden').mp h
    refine (classifyPath_allowed_forbidden_iff path roots forbidden).mpr
      ⟨⟨root, hroots hroot, hcovers⟩, ?_⟩
    rintro ⟨f, hf, hunder⟩
    exact hclear ⟨f, hforbidden hf, hunder⟩

/-- A file of a root, spelt in two ways, beside a forbidden directory. -/
theorem jail_sound_src :
    (isabs "src/./a".toList = false ∧ (∃ loc, location "src/./a" = some loc)
      ∧ (∃ root ∈ ["src/"], isabs root.toList = false ∧ resolved root <+: resolved "src/./a")
      ∧ ∀ f ∈ ["src/secret"], isabs f.toList = false → resolved f ≠ [] →
        ¬ resolved f <+: resolved "src/./a")
      ∧ classifyPath "x/../src/a" ["src/"] ["src/secret"]
        = classifyPath "src/./a" ["src/"] ["src/secret"]
      ∧ (classifyPath "src/./a" ["src/", "etc/"] ["src/secret"]).allowed = true := by
  have hallowed : (classifyPath "src/./a" ["src/"] ["src/secret"]).allowed = true := by
    decide +kernel
  have hspelt : Respells "src/./a" "x/../src/a" :=
    ⟨by decide +kernel, by decide +kernel, by decide +kernel⟩
  have hsame : ∀ texts : List String, List.Forall₂ SamePlace texts texts := fun texts =>
    List.forall₂_same.mpr fun _ _ => Or.inl rfl
  obtain ⟨hsound, hspellings, -⟩ := jail_sound "src/./a" ["src/"] ["src/secret"]
  obtain ⟨-, -, hmono⟩ := jail_sound "src/./a" ["src/", "etc/"] ["src/secret"]
  exact ⟨hsound hallowed, hspellings _ _ _ hspelt (hsame _) (hsame _),
    hmono ["src/"] ["src/secret"] (by simp) (by simp) hallowed⟩

end IplanRunner
