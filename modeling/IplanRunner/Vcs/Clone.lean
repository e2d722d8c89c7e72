import IplanRunner.Cli.Stop
import IplanRunner.Foundation.Delimited
import IplanRunner.Validation.PayloadRules

/-!
The clone of a repository (`clone` in `vcs/git.py`).

* `clone`: the guard, then three `git` commands, each of which may raise.
* `UnsafeUrl`: a url `git` would read as an option or as a remote helper; `clone_refused`,
  `recorded_clone`: no command is run on one.
-/

namespace IplanRunner

open Foundation

/-- `_REMOTE_HELPER.match(url)`: the transport is all up to the first colon. -/
def remoteHelper (url : String) : Bool :=
  let transport := url.toList.takeWhile schemeChar
  transport.head?.any Char.isAlphanum && [':', ':'].isPrefixOf (url.toList.dropWhile schemeChar)

/-- The condition of the guard of `clone`. -/
def refusedUrl (url : String) : Bool := remoteHelper url || url.toList.head? == some '-'

section Runtime

variable [PyRuntime] {W : Type}

/-- `_git`, where `run` is `subprocess.run` with `check=True`. -/
def gitIn (run : List String → Call PyErr W String) (workspace : String) (args : List String) :
    Call PyErr W String := do
  let stdout ← run (["git", "-C", workspace] ++ args)
  return String.ofList (strip stdout.toList)

/-- `head_sha`. -/
def headSha (run : List String → Call PyErr W String) (workspace : String) : Call PyErr W String :=
  gitIn run workspace ["rev-parse", "HEAD"]

/-- `clone`. -/
def clone (run : List String → Call PyErr W String) (url ref dest : String) : Call PyErr W String :=
  if refusedUrl url then
    let shown := PyRuntime.repr (.str url)
    Call.raise (.valueError s!"unsafe clone url (remote-helper / leading-dash): {shown}")
  else do
    let _ ← run ["git", "clone", "--no-single-branch", "--", url, dest]
    let _ ← gitIn run dest ["checkout", ref, "--"]
    headSha run dest

end Runtime

/-! ### The guard -/

/-- `<transport>::<address>`, the form `git` gives to a remote helper. -/
def HelperForm (url : String) : Prop :=
  ∃ transport address, url.toList = transport ++ ':' :: ':' :: address
    ∧ transport.head?.any Char.isAlphanum = true ∧ ∀ c ∈ transport, schemeChar c = true

/-- A url with a leading dash, or of the form of a remote helper. -/
def UnsafeUrl (url : String) : Prop := url.toList.head? = some '-' ∨ HelperForm url


lemma remoteHelper_iff {url : String} : remoteHelper url = true ↔ HelperForm url := by
  rw [remoteHelper, Bool.and_eq_true, List.isPrefixOf_iff_prefix]
  constructor
  · rintro ⟨hfirst, address, haddress⟩
    refine ⟨_, address, ?_, hfirst, List.all_eq_true.mp List.all_takeWhile⟩
    rw [show ':' :: ':' :: address = [':', ':'] ++ address from rfl, haddress,
      List.takeWhile_append_dropWhile]
  · rintro ⟨transport, address, hurl, hfirst, hall⟩
    rw [hurl, takeWhile_run hall rfl, dropWhile_run hall rfl]
    exact ⟨hfirst, address, rfl⟩

lemma refusedUrl_iff {url : String} : refusedUrl url = true ↔ UnsafeUrl url := by
  rw [refusedUrl, Bool.or_eq_true, remoteHelper_iff, beq_iff_eq, UnsafeUrl, or_comm]

section Runtime

variable [PyRuntime] {W : Type}

/-- **No command is run** on a url of the unsafe forms. -/
lemma clone_refused {run : List String → Call PyErr W String} {url ref dest : String} {w : W}
    (h : UnsafeUrl url) : (clone run url ref dest w).2 = w := by
  rw [clone, if_pos (refusedUrl_iff.mpr h)]
  rfl

/-- `run`, with the commands it has been given. -/
def recording (run : List String → Call PyErr W String) (argv : List String) :
    Call PyErr (W × List (List String)) String := fun s =>
  ((run argv s.1).1, ((run argv s.1).2, s.2 ++ [argv]))

/-- A url in a command `clone` gives to `git` has neither of the unsafe forms. -/
theorem recorded_clone {run : List String → Call PyErr W String} {url ref dest : String} {w : W}
    (h : (clone (recording run) url ref dest (w, [])).2.2 ≠ []) : ¬ UnsafeUrl url := by
  intro hunsafe
  rw [clone_refused hunsafe] at h
  exact h rfl

end Runtime

end IplanRunner
