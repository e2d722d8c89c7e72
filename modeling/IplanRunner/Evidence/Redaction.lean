import IplanRunner.Evidence.Runner
import IplanRunner.Foundation.StableSort

/-!
What redaction is for: no secret is left in a text.

* `infix_replaceGo`: a replacement makes no occurrence of a text that is free of the mask, in
  particular none across a seam between what was replaced and what was not.
* `maskAll`: the replacements of a list, one after the other; `mem_bySize` and `bySize_concat` say
  which those of `redact` are, and in which place one more secret is served.
* `redact_removes`: no secret is left, and redacting again or for a secret given twice changes
  nothing.
-/

namespace IplanRunner

open Foundation

/-! ### One replacement -/

section Replacement

variable {old mask text u : List Char}

/-- What is free of the mask and occurs behind it occurs in the rest. -/
lemma infix_of_infix_append (hfree : u.Disjoint mask) (h : u <:+: mask ++ text) : u <:+: text := by
  induction mask with
  | nil => exact h
  | cons m mask ih =>
      have htail : u.Disjoint mask := List.disjoint_of_disjoint_cons_right hfree
      rcases List.infix_cons_iff.mp h with hstarts | hinside
      · rcases List.prefix_cons_iff.mp hstarts with rfl | ⟨t, rfl, -⟩
        · exact List.nil_infix
        · exact absurd (List.mem_cons_self : m ∈ m :: mask) (hfree List.mem_cons_self)
      · exact ih htail hinside

/-- What is free of the mask and starts the replaced text starts the text. -/
lemma prefix_replaceGo (hmask : mask ≠ []) (hfree : u.Disjoint mask)
    (h : u <+: replaceGo old mask 0 text) : u <+: text := by
  induction text generalizing u with
  | nil => exact h
  | cons c rest ih =>
      rw [replaceGo] at h
      obtain ⟨m, tail, rfl⟩ := List.exists_cons_of_ne_nil hmask
      split at h
      · rcases List.prefix_cons_iff.mp h with rfl | ⟨t, rfl, -⟩
        · exact List.nil_prefix
        · exact absurd (List.mem_cons_self : m ∈ m :: tail) (hfree List.mem_cons_self)
      · rcases List.prefix_cons_iff.mp h with rfl | ⟨t, rfl, ht⟩
        · exact List.nil_prefix
        · have hrest := ih (List.disjoint_of_disjoint_cons_left hfree) ht
          exact List.cons_prefix_cons.mpr ⟨rfl, hrest⟩

/-- **A replacement makes no new occurrence** of what is free of the mask. -/
lemma infix_replaceGo (hmask : mask ≠ []) (hfree : u.Disjoint mask) {skip : ℕ}
    (h : u <:+: replaceGo old mask skip text) : u <:+: text := by
  induction text generalizing skip with
  | nil => simpa [replaceGo] using h
  | cons c rest ih =>
      cases skip with
      | succ skip =>
          rw [replaceGo] at h
          exact List.infix_cons (ih h)
      | zero =>
          by_cases hocc : old.isPrefixOf (c :: rest) = true
          · rw [replaceGo, if_pos hocc] at h
            exact List.infix_cons (ih (infix_of_infix_append hfree h))
          · have hgo : replaceGo old mask 0 (c :: rest) = c :: replaceGo old mask 0 rest := by
              rw [replaceGo, if_neg hocc]
            -- an occurrence starts at the letter that is kept, or lies behind it
            rcases List.infix_cons_iff.mp (hgo ▸ h) with hstarts | hinside
            · exact (prefix_replaceGo hmask hfree (hgo ▸ hstarts)).isInfix
            · exact List.infix_cons (ih hinside)

/-- **What is replaced is gone.** -/
lemma not_infix_replaceGo (hmask : mask ≠ []) (hold : old ≠ []) (hfree : old.Disjoint mask)
    (skip : ℕ) : ¬ old <:+: replaceGo old mask skip text := by
  induction text generalizing skip with
  | nil => simpa [replaceGo] using hold
  | cons c rest ih =>
      cases skip with
      | succ skip =>
          rw [replaceGo]
          exact ih skip
      | zero =>
          intro h
          by_cases hocc : old.isPrefixOf (c :: rest) = true
          · rw [replaceGo, if_pos hocc] at h
            exact ih _ (infix_of_infix_append hfree h)
          · have hgo : replaceGo old mask 0 (c :: rest) = c :: replaceGo old mask 0 rest := by
              rw [replaceGo, if_neg hocc]
            rcases List.infix_cons_iff.mp (hgo ▸ h) with hstarts | hinside
            · have hstart := prefix_replaceGo hmask hfree (hgo ▸ hstarts)
              exact hocc (List.isPrefixOf_iff_prefix.mpr hstart)
            · exact ih 0 hinside

/-- Where there is nothing to replace, the text stays. -/
lemma replaceGo_of_absent (habsent : ¬ old <:+: text) : replaceGo old mask 0 text = text := by
  induction text with
  | nil => rfl
  | cons c rest ih =>
      have hocc : ¬ old.isPrefixOf (c :: rest) = true := fun h =>
        habsent (List.isPrefixOf_iff_prefix.mp h).isInfix
      rw [replaceGo, if_neg hocc, ih fun h => habsent (List.infix_cons h)]

end Replacement

/-! ### Replacements one after the other -/

/-- One text is a part of another. -/
def Occurs (part text : String) : Prop := part.toList <:+: text.toList

/-- A text that shares no letter with the mask. -/
def Unmasked (text : String) : Prop := '*' ∉ text.toList

lemma Unmasked.disjoint {text : String} (h : Unmasked text) :
    text.toList.Disjoint "***".toList := by
  intro c hc hmask
  obtain rfl : c = '*' := by simpa using hmask
  exact h hc

/-- Every secret of a list is replaced, one after the other. -/
def maskAll (secrets : List String) (text : String) : String :=
  secrets.foldl (fun result secret => replaceText result secret "***") text

lemma redact_eq_maskAll (text : String) (secrets : List String) :
    redact text secrets = maskAll (bySize secrets) text := rfl

lemma maskAll_cons (secret : String) (secrets : List String) (text : String) :
    maskAll (secret :: secrets) text = maskAll secrets (replaceText text secret "***") := rfl

lemma maskAll_append (before after : List String) (text : String) :
    maskAll (before ++ after) text = maskAll after (maskAll before text) := List.foldl_append

lemma occurs_replaceText {part text secret : String} (hpart : Unmasked part)
    (h : Occurs part (replaceText text secret "***")) : Occurs part text := by
  rw [Occurs, replaceText, String.toList_ofList] at h
  exact infix_replaceGo (by simp) hpart.disjoint h

lemma not_occurs_replaceText {text secret : String} (hne : secret ≠ "") (h : Unmasked secret) :
    ¬ Occurs secret (replaceText text secret "***") := by
  rw [Occurs, replaceText, String.toList_ofList]
  exact not_infix_replaceGo (by simp) (by simpa using hne) h.disjoint 0

lemma replaceText_of_absent {text secret : String} (h : ¬ Occurs secret text) :
    replaceText text secret "***" = text := by
  rw [replaceText, replaceGo_of_absent h, String.ofList_toList]

/-- What is left of an unmasked text after the replacements was there before them. -/
lemma occurs_maskAll {part : String} (hpart : Unmasked part) {secrets : List String}
    {text : String} (h : Occurs part (maskAll secrets text)) : Occurs part text := by
  induction secrets generalizing text with
  | nil => exact h
  | cons secret secrets ih => exact occurs_replaceText hpart (ih h)

/-- **Every secret of the list is gone**, whatever the later ones replace. -/
lemma not_occurs_maskAll {secret : String} (hne : secret ≠ "") (hsecret : Unmasked secret)
    {secrets : List String} (hmem : secret ∈ secrets) (text : String) :
    ¬ Occurs secret (maskAll secrets text) := by
  induction secrets generalizing text with
  | nil => simp at hmem
  | cons first secrets ih =>
      rw [maskAll_cons]
      rcases List.mem_cons.mp hmem with rfl | hmem
      · intro h
        exact not_occurs_replaceText hne hsecret (occurs_maskAll hsecret h)
      · exact ih hmem _

lemma maskAll_of_absent {secrets : List String} {text : String}
    (h : ∀ secret ∈ secrets, ¬ Occurs secret text) : maskAll secrets text = text := by
  induction secrets with
  | nil => rfl
  | cons secret secrets ih =>
      rw [maskAll_cons, replaceText_of_absent (h secret List.mem_cons_self)]
      exact ih fun s hs => h s (List.mem_cons_of_mem secret hs)

/-! ### The order of the secrets -/

lemma mem_bySize {secret : String} {secrets : List String} :
    secret ∈ bySize secrets ↔ secret ∈ secrets ∧ secret ≠ "" := by
  simp [bySize]

/-- One more secret that is not empty is served behind all those that are not shorter. -/
lemma bySize_concat {secret : String} (hne : secret ≠ "") (secrets : List String) :
    ∃ before after, bySize (secrets ++ [secret]) = before ++ secret :: after ∧
      bySize secrets = before ++ after ∧ ∀ s ∈ after, s.length < secret.length := by
  have htrans : ∀ a b c : String, decide (b.length ≤ a.length) → decide (c.length ≤ b.length) →
      decide (c.length ≤ a.length) := by
    intro a b c hab hbc
    simp only [decide_eq_true_eq] at hab hbc ⊢
    omega
  have htotal : ∀ a b : String,
      decide (b.length ≤ a.length) || decide (a.length ≤ b.length) := by
    intro a b
    simp only [Bool.or_eq_true, decide_eq_true_eq]
    omega
  obtain ⟨before, after, hwith, hwithout, -, hafter⟩ :=
    mergeSort_concat htrans htotal (secrets.filter (· != "")) secret
  refine ⟨before, after, ?_, hwithout, fun s hs => by simpa using hafter s hs⟩
  rw [← hwith, bySize, List.filter_append]
  simp [hne]

/-- An empty secret is left out. -/
lemma bySize_empty (secrets : List String) : bySize (secrets ++ [""]) = bySize secrets := by
  simp [bySize, List.filter_append]

/-! ### Redaction -/

/-- No secret that is redacted is left. -/
lemma not_occurs_redact {secrets : List String} (hmask : ∀ s ∈ secrets, Unmasked s)
    {secret : String} (hmem : secret ∈ secrets) (hne : secret ≠ "") (text : String) :
    ¬ Occurs secret (redact text secrets) :=
  not_occurs_maskAll hne (hmask secret hmem) (mem_bySize.mpr ⟨hmem, hne⟩) text

/-- A text without any secret stays as it is. -/
lemma redact_of_absent {secrets : List String} {text : String}
    (h : ∀ s ∈ secrets, s ≠ "" → ¬ Occurs s text) : redact text secrets = text :=
  maskAll_of_absent fun s hs => h s (mem_bySize.mp hs).1 (mem_bySize.mp hs).2

/-- A secret that is already in the list changes nothing at its end. -/
lemma redact_concat {secrets : List String} {secret : String} (hmask : Unmasked secret)
    (hmem : secret ∈ secrets) (text : String) :
    redact text (secrets ++ [secret]) = redact text secrets := by
  by_cases hne : secret = ""
  · rw [redact_eq_maskAll, redact_eq_maskAll, hne, bySize_empty]
  · obtain ⟨before, after, hwith, hwithout, hshort⟩ := bySize_concat hne secrets
    -- it is as long as itself, so it is among those served before
    have hbefore : secret ∈ before := by
      have hboth : secret ∈ before ++ after := hwithout ▸ mem_bySize.mpr ⟨hmem, hne⟩
      rcases List.mem_append.mp hboth with h | h
      · exact h
      · exact absurd (hshort secret h) (by omega)
    have hgone := not_occurs_maskAll hne hmask hbefore text
    rw [redact_eq_maskAll, redact_eq_maskAll, hwith, hwithout, maskAll_append, maskAll_append,
      maskAll_cons, replaceText_of_absent hgone]

/-- **Redaction removes every secret** of a list whose secrets share no letter with the mask: none
that is not empty occurs in what it returns, redacting once more changes nothing, and neither does a
secret that is listed again or an empty one. -/
theorem redact_removes (secrets : List String) (hmask : ∀ s ∈ secrets, Unmasked s)
    (text : String) :
    (∀ s ∈ secrets, s ≠ "" → ¬ Occurs s (redact text secrets)) ∧
    redact (redact text secrets) secrets = redact text secrets ∧
    (∀ s ∈ secrets, redact text (secrets ++ [s]) = redact text secrets) ∧
    redact text (secrets ++ [""]) = redact text secrets := by
  have hgone : ∀ s ∈ secrets, s ≠ "" → ¬ Occurs s (redact text secrets) :=
    fun s hs hne => not_occurs_redact hmask hs hne text
  refine ⟨hgone, redact_of_absent hgone, fun s hs => redact_concat (hmask s hs) hs text, ?_⟩
  rw [redact_eq_maskAll, redact_eq_maskAll, bySize_empty]

/-- Two secrets that overlap in the text, one of which is a part of a third. -/
theorem redact_removes_overlap :
    ¬ Occurs "ab" (redact "xabaxababa" ["ab", "ba", "abab"])
      ∧ ¬ Occurs "ba" (redact "xabaxababa" ["ab", "ba", "abab"])
      ∧ ¬ Occurs "abab" (redact "xabaxababa" ["ab", "ba", "abab"]) := by
  have hgone := (redact_removes ["ab", "ba", "abab"] (by simp [Unmasked]) "xabaxababa").1
  exact ⟨hgone "ab" (by simp) (by simp), hgone "ba" (by simp) (by simp),
    hgone "abab" (by simp) (by simp)⟩

/-! ### Acceptance checks -/

section Checks

variable {W : Type} {runCommand : Val → Call PyErr W CommandOutcome} {secrets : List String}

/-- The outputs of a report hold no secret. -/
def CheckReport.Redacted (secrets : List String) (report : CheckReport) : Prop :=
  ∀ result ∈ report.results, ∀ s ∈ secrets, s ≠ "" → ¬ Occurs s result.output

lemma runCheckList_redacted (hmask : ∀ s ∈ secrets, Unmasked s) {checks : List Val}
    {report report' : CheckReport} {w w' : W} (hreport : report.Redacted secrets)
    (h : runCheckList runCommand secrets checks report w = (.ok report', w')) :
    report'.Redacted secrets := by
  induction checks generalizing report w with
  | nil =>
      rw [runCheckList, Call.pure_apply, Prod.mk.injEq, Except.ok.injEq] at h
      exact h.1 ▸ hreport
  | cons check checks ih =>
      rw [runCheckList] at h
      obtain ⟨result, w₁, hcheck, hrest⟩ := Call.bind_eq_ok.mp h
      refine ih ?_ hrest
      obtain ⟨outcome, houtput⟩ : ∃ outcome : CommandOutcome,
          result.output = redact outcome.output secrets := by
        rw [runCheck] at hcheck
        obtain ⟨command, _, -, hcheck⟩ := Call.bind_eq_ok.mp hcheck
        obtain ⟨outcome, _, -, hcheck⟩ := Call.bind_eq_ok.mp hcheck
        obtain ⟨name, _, -, hcheck⟩ := Call.bind_eq_ok.mp hcheck
        rw [Call.pure_apply, Prod.mk.injEq, Except.ok.injEq] at hcheck
        exact ⟨outcome, by rw [← hcheck.1]⟩
      intro entry hentry s hs hne
      rcases List.mem_append.mp hentry with hentry | hentry
      · exact hreport entry hentry s hs hne
      · obtain rfl := List.mem_singleton.mp hentry
        rw [houtput]
        exact not_occurs_redact hmask hs hne outcome.output

/-- **Acceptance checks report no secret**, whatever the commands put out. -/
theorem runChecks_redacted (hmask : ∀ s ∈ secrets, Unmasked s) {checks : List Val}
    {report : CheckReport} {w w' : W}
    (h : runChecks runCommand secrets checks w = (.ok report, w')) : report.Redacted secrets :=
  runCheckList_redacted hmask (by simp [CheckReport.Redacted]) h

end Checks

end IplanRunner
