import IplanRunner.Foundation.Runtime
import IplanRunner.Handover.Completion
import IplanRunner.Handover.Landed

/-!
Any number of landings of one ledger.

* `Sections`: the sections a landing reads, with touched paths that are strings.
* `prepared`, `land_returned`, `land_raised`: what one landing comes to on such a ledger when the
  default gate passes.
* `Landings`: landings one after another; `landing_keeps_verdict`.
-/

namespace IplanRunner

open Foundation

namespace Document

/-! ### The sections -/

/-- The sections a landing reads. -/
structure Sections (doc : Dict) where
  control : Val
  scope : Val
  log : List Val
  control_eq : doc.lookup "ledger_control" = some control
  scope_eq : doc.lookup "isolation_scope" = some scope
  log_eq : doc.lookup "execution_log" = some (.list log)
  paths : ∀ e ∈ log, ∃ ps : List String,
    e.get "touched_paths" (.list []) = .ok (.list (ps.map .str))

/-- Strings can be sorted. -/
lemma returns_sortedSet {xs : List Val} (h : ∀ x ∈ xs, ∃ s, x = .str s) :
    Returns (sortedSet xs) := by
  have hhash : ¬ xs.any (!·.hashable) = true := by
    rw [List.any_eq_true]
    rintro ⟨x, hx, hnot⟩
    obtain ⟨s, rfl⟩ := h x hx
    cases hnot
  have htext : (distinct [] xs).all (fun x => (sortText x).isSome) = true := by
    rw [List.all_eq_true]
    intro x hx
    obtain ⟨s, rfl⟩ := h x ((mem_distinct hx).resolve_left List.not_mem_nil)
    rfl
  rw [sortedSet, if_neg hhash, if_pos htext]
  split <;> exact returns_ok _

section Runtime

variable [PyRuntime]

/-- The events of a verified log have a type. -/
lemma event_type_of_verified {prevHash : Option String} {index : ℕ} {log : List Val}
    (h : verifyChainFrom prevHash index log = .ok true) :
    ∀ e ∈ log, Returns (e.item "event_type") := by
  induction log generalizing prevHash index with
  | nil => simp
  | cons e rest ih =>
      rw [verifyChainFrom] at h
      obtain ⟨next, hnext, h⟩ := except_bind_eq_ok.mp h
      cases next with
      | none => cases h
      | some hash =>
          intro x hx
          rcases List.mem_cons.mp hx with rfl | hx
          · exact (verifyEvent_some hnext).2.2
          · exact ih h x hx

/-- The landing of a ledger with strings for paths can name them. -/
lemma returns_landedPaths {log : List Val} (hlog : verifyChain log = .ok true)
    (hpaths : ∀ e ∈ log, ∃ ps : List String,
      e.get "touched_paths" (.list []) = .ok (.list (ps.map .str))) :
    ∃ ps : List String, landedPaths log = .ok (ps.map .str) := by
  have hcollect : Returns (collect (fun e => do
      if (← Val.item e "event_type").pyEq (.str "file_edited") then
        (← e.get "touched_paths" (.list [])).iter
      else return []) log) := by
    refine returns_collect fun e he => ?_
    obtain ⟨kind, hkind⟩ := event_type_of_verified hlog e he
    obtain ⟨ps, hps⟩ := hpaths e he
    rw [hkind, ok_bind, hps]
    split <;> exact returns_ok _
  obtain ⟨paths, hcollect⟩ := hcollect
  have hstr : ∀ x ∈ paths, ∃ s, x = .str s := by
    intro x hx
    obtain ⟨e, he, zs, hzs, hin⟩ := ((collect_eq_ok hcollect).2 x).mp hx
    obtain ⟨kind, -, hzs⟩ := except_bind_eq_ok.mp hzs
    obtain ⟨ps, hps⟩ := hpaths e he
    rw [hps] at hzs
    split at hzs
    · cases hzs
      obtain ⟨s, -, rfl⟩ := List.mem_map.mp hin
      exact ⟨s, rfl⟩
    · cases hzs
      cases hin
  obtain ⟨touched, hsorted⟩ := returns_sortedSet hstr
  have htouched : ∀ x ∈ touched, ∃ s, Val.str s = x := fun x hx => by
    obtain ⟨s, rfl⟩ := hstr x (mem_sortedSet hsorted hx)
    exact ⟨s, rfl⟩
  obtain ⟨ps, rfl⟩ : ∃ ps : List String, ps.map .str = touched := by
    rw [← Set.mem_range, Set.range_list_map]
    exact fun x hx => htouched x hx
  exact ⟨ps, by rw [landedPaths, hcollect, ok_bind, hsorted]⟩

/-! ### One landing -/

/-- The default gate passes. -/
def Passing (doc : Dict) : Prop :=
  ∃ g, runGate (.dict doc) defaultGate = .ok g ∧ g.status = .passed

lemma passing_iff {doc : Dict} : Passing doc ↔ ∃ j : Judgement (.dict doc), Silent j.findings := by
  rw [Passing, runGate_passed_iff]
  constructor
  · rintro ⟨fs, hfs, hsilent⟩
    obtain ⟨j, rfl⟩ := validateLedger_eq_ok_iff.mp hfs
    exact ⟨j, hsilent⟩
  · rintro ⟨j, hsilent⟩
    exact ⟨j.findings, validateLedger_eq_ok_iff.mpr ⟨j, rfl⟩, hsilent⟩

/-- A ledger with the sections goes through a landing. -/
lemma prepared {doc : Dict} (sec : Sections doc) (hpass : Passing doc) :
    Nonempty (Prepared doc) := by
  obtain ⟨j, hsilent⟩ := passing_iff.mp hpass
  obtain ⟨kvs, hkvs⟩ := control_dict (validateLedger_eq_ok_iff.mpr ⟨j, rfl⟩)
  have hcontrol : sec.control = .dict kvs := by
    rw [docDict, Val.get, sec.control_eq, Option.getD_some] at hkvs
    exact Except.ok.inj hkvs
  have hscope : j.scope = sec.scope := by
    have hread := j.scope_eq
    rw [docDict, Val.get, sec.scope_eq, Option.getD_some] at hread
    exact (Except.ok.inj hread).symm
  have hlog : j.log = sec.log := by
    have hread := j.log_eq
    rw [docList, Val.get, sec.log_eq, Option.getD_some] at hread
    exact (Except.ok.inj hread).symm
  have hverified : verifyChain sec.log = .ok true := hlog ▸ j.verified hsilent
  obtain ⟨ps, htouched⟩ := returns_landedPaths hverified sec.paths
  -- the scope has been read, so it is a dictionary
  obtain ⟨scope, hdict⟩ : ∃ scope, sec.scope = .dict scope := by
    have hread := j.isolation_eq
    rw [isolationFindings, if_pos (j.silent_iff.mp hsilent).1, logFindings, hscope] at hread
    obtain ⟨roots, hroots, -⟩ := except_bind_eq_ok.mp hread
    cases hs : sec.scope with
    | dict scope => exact ⟨scope, rfl⟩
    | _ => simp [hs, Val.item] at hroots
  obtain ⟨q, -, hempty, hlast⟩ := verifyChainFrom_append hverified
  have hprevious : Returns (previousHash sec.log) := by
    rw [previousHash]
    cases hl : sec.log.getLast? with
    | none => exact returns_ok _
    | some last =>
        obtain ⟨v, hv, -⟩ := hlast last hl
        exact ⟨some v.pyStr, except_bind_eq_ok.mpr ⟨v, hv, rfl⟩⟩
  obtain ⟨previous, hprevious⟩ := hprevious
  refine ⟨⟨sec.scope, sec.log, ps.map .str, kvs, sec.scope_eq, sec.log_eq, htouched,
    by rw [sec.control_eq, hcontrol], fun atTime => ?_, fun atTime body hbody => ?_⟩⟩
  · rw [hdict]
    exact ⟨_, rfl⟩
  · rw [hdict] at hbody
    obtain rfl := Except.ok.inj hbody
    exact ⟨_, by rw [chainedEvent, hprevious]; rfl⟩

variable {W : Type} {repo : Repo W} (clock : W → String × W)

/-- Git calls that raise leave the ledger. -/
lemma commitChanges_error (doc : Dict) {branch message : String} {w : W} {e : PyErr}
    (h : committing repo branch message w = .error e) :
    ∃ w', commitChanges repo clock branch message (doc, w) = (.error e, (doc, w')) := by
  rcases hc : repo.hasChanges w with ⟨r, w₁⟩
  have hgit : git repo.hasChanges (doc, w) = (r, (doc, w₁)) := by rw [git, hc]
  rw [committing, hc] at h
  cases r with
  | error e' =>
      cases h
      exact ⟨w₁, Call.bind_error hgit _⟩
  | ok changed =>
      cases changed with
      | false => cases h
      | true =>
          rw [ok_bind, if_pos rfl] at h
          rcases hs : repo.commitAll branch message w₁ with ⟨r, w₂⟩
          have hcommit : git (repo.commitAll branch message) (doc, w₁) = (r, (doc, w₂)) := by
            rw [git, hs]
          rw [hs] at h
          cases r with
          | ok sha => cases h
          | error e' =>
              cases h
              refine ⟨w₂, ?_⟩
              rw [commitChanges, Call.bind_ok hgit, if_pos rfl]
              exact Call.bind_error hcommit _

/-- A clean tree has nothing to record. -/
lemma commitChanges_clean (doc : Dict) {branch message : String} {w : W}
    (h : committing repo branch message w = .ok none) :
    ∃ w', commitChanges repo clock branch message (doc, w) = (.ok (), (doc, w')) := by
  obtain ⟨changed, hchanged, h⟩ := except_bind_eq_ok.mp h
  cases changed with
  | false =>
      have hgit : git repo.hasChanges (doc, w) = (.ok false, (doc, (repo.hasChanges w).2)) := by
        rw [git, hchanged]
      exact ⟨_, by rw [commitChanges, Call.bind_ok hgit, if_neg (by simp)]; rfl⟩
  | true =>
      rw [if_pos rfl] at h
      obtain ⟨sha, -, h⟩ := except_bind_eq_ok.mp h
      cases h

/-- A commit that is made is recorded. -/
lemma commitChanges_commit (doc : Dict) {branch message sha : String} {w : W}
    (h : committing repo branch message w = .ok (some sha)) :
    ∃ w', commitChanges repo clock branch message (doc, w)
      = recordCommit clock branch message sha (doc, w') := by
  obtain ⟨changed, hchanged, h⟩ := except_bind_eq_ok.mp h
  cases changed with
  | false => cases h
  | true =>
      have hgit : git repo.hasChanges (doc, w) = (.ok true, (doc, (repo.hasChanges w).2)) := by
        rw [git, hchanged]
      rw [if_pos rfl] at h
      obtain ⟨sha', hsha, h⟩ := except_bind_eq_ok.mp h
      obtain rfl := Option.some.inj (Except.ok.inj h)
      have hcommit : git (repo.commitAll branch message) (doc, (repo.hasChanges w).2)
          = (.ok sha', (doc, (repo.commitAll branch message (repo.hasChanges w).2).2)) := by
        rw [git, hsha]
      exact ⟨_, by rw [commitChanges, Call.bind_ok hgit, if_pos rfl, Call.bind_ok hcommit]⟩

variable {clock}

/-! ### What a landing keeps -/

namespace Branched

variable {doc doc' : Dict} {branch : String} (b : Branched doc doc' branch)

include b

omit [PyRuntime] in
lemma lookup_other {key : String} (hkey : key ≠ "vcs") : doc'.lookup key = doc.lookup key := by
  rw [b.after, Dict.lookup_set_of_ne _ hkey]

omit [PyRuntime] in
lemma get_other {key : String} (hkey : key ≠ "vcs") (default : Val) :
    (Val.dict doc').get key default = (Val.dict doc).get key default := by
  rw [Val.get, Val.get, b.lookup_other hkey]

omit [PyRuntime] in
lemma get_vcs : (Val.dict doc).get "vcs" (.dict []) = .ok (.dict b.vcs)
    ∧ (Val.dict doc').get "vcs" (.dict [])
      = .ok (.dict (Dict.set b.vcs "branch" (.str branch))) := by
  have hset : doc'.lookup "vcs" = some (.dict (Dict.set b.vcs "branch" (.str branch))) :=
    (congrArg (List.lookup "vcs") b.after).trans (Dict.lookup_set_self _ _ _)
  rw [Val.get, Val.get, b.vcs_eq, hset]
  exact ⟨rfl, rfl⟩

/-- The branch is nothing the validator reads. -/
lemma validateLedger_eq : validateLedger (.dict doc') = validateLedger (.dict doc) := by
  have hdict : ∀ key, key ≠ "vcs" → docDict (.dict doc') key = docDict (.dict doc) key :=
    fun key hkey => b.get_other hkey _
  have hlist : ∀ key, key ≠ "vcs" → docList (.dict doc') key = docList (.dict doc) key := by
    intro key hkey
    rw [docList, docList, b.get_other hkey]
  have hlanding : ∀ control,
    landingFindings (.dict doc') control = landingFindings (.dict doc) control := by
    intro control
    have hcommits : (Val.dict (Dict.set b.vcs "branch" (.str branch))).get "commits"
        = (Val.dict b.vcs).get "commits" := by
      rw [Val.get, Val.get, Dict.lookup_set_of_ne _ (by decide)]
    rw [landingFindings, landingFindings, b.get_vcs.1, b.get_vcs.2, ok_bind, ok_bind, hcommits]
  simp only [validateLedger, hlanding]
  rw [hdict _ (by decide), hdict _ (by decide), hdict _ (by decide), b.get_other (by decide),
    hlist _ (by decide), hlist _ (by decide), hlist _ (by decide), hlist _ (by decide)]

omit [PyRuntime] in
lemma returns_lastCommit (h : Returns (lastCommit (.dict doc))) :
    Returns (lastCommit (.dict doc')) := by
  have hcommits : ∀ default,
    (Val.dict (Dict.set b.vcs "branch" (.str branch))).get "commits" default
      = (Val.dict b.vcs).get "commits" default := by
    intro default
    rw [Val.get, Val.get, Dict.lookup_set_of_ne _ (by decide)]
  obtain ⟨c, h⟩ := h
  rw [lastCommit, docDict, b.get_vcs.1, ok_bind] at h
  obtain ⟨commits, hread, h⟩ := except_bind_eq_ok.mp h
  rw [lastCommit, docDict, b.get_vcs.2, ok_bind, hcommits, hread, ok_bind]
  split
  · exact returns_pure _
  · rename_i hsome
    rw [if_neg hsome] at h
    obtain ⟨items, hitems, h⟩ := except_bind_eq_ok.mp h
    rw [hitems, ok_bind]
    cases hl : items.getLast? with
    | none => exact returns_pure _
    | some last =>
        rw [hl] at h
        obtain ⟨sha, hsha, -⟩ := except_bind_eq_ok.mp h
        exact ⟨some ⟨sha, (Dict.set b.vcs "branch" (.str branch)).get "branch"⟩,
          except_bind_eq_ok.mpr ⟨sha, hsha, rfl⟩⟩

/-- The receipt of a ledger whose branch is named has the status it had. -/
lemma receipt {g g' : GateResult} {audit : Option Val} {clock : String} (clock' : String)
    {rcp : Receipt}
    (hg : g.status = .passed) (hg' : g'.status = .passed)
    (h : buildHandoverReceipt (.dict doc) g audit clock = .ok rcp) :
    ∃ rcp', buildHandoverReceipt (.dict doc') g' audit clock' = .ok rcp'
      ∧ rcp'.status = rcp.status := by
  have hcontrol : docDict (.dict doc') "ledger_control" = docDict (.dict doc) "ledger_control" :=
    b.get_other (by decide) _
  have htasks : docList (.dict doc') "task_ledger" = docList (.dict doc) "task_ledger" := by
    rw [docList, docList, b.get_other (by decide)]
  have hreconciled : reconciled (.dict doc') = reconciled (.dict doc) := by
    rw [reconciled, reconciled, docDict, docDict, b.get_other (by decide)]
  unfold buildHandoverReceipt at h ⊢
  simp only [except_bind_eq_ok] at h
  obtain ⟨control, hcon, ref, href, tasks, htask, opened, hopen, rec, hrec, commit, hcommit, iplan,
    hiplan, version, hversion, control', haudit, report, hreport, h⟩ := h
  obtain ⟨commit', hcommit'⟩ := b.returns_lastCommit ⟨commit, hcommit⟩
  obtain rfl := Except.ok.inj h
  rw [hcontrol, hcon, ok_bind, href, ok_bind, htasks, htask, ok_bind, hopen, ok_bind, hreconciled,
    hrec, ok_bind, hcommit', ok_bind, hiplan, ok_bind, hversion, ok_bind, haudit, ok_bind, hreport,
    ok_bind, hg, hg']
  exact ⟨_, rfl, rfl⟩

end Branched

/-- The commit a receipt names after a landing, when it named `last` before. -/
def namedCommit (repo : Repo W) (branch message : String) (w : W) (last : Option CommitRef) :
    Option CommitRef :=
  match committing repo branch message w with
  | .ok (some sha) => some ⟨.str sha, .str branch⟩
  | _ => last

/-- What is still so of a ledger after landings, the last commit of which is `last`. -/
structure Kept (doc doc' : Dict) (last : Option CommitRef) : Prop where
  sections : Nonempty (Sections doc')
  passing : Passing doc'
  listed : VcsListed doc → VcsListed doc'
  receipt : ∀ (g g' : GateResult) (audit : Option Val) (clock clock' : String) (rcp : Receipt),
    g.status = .passed → g'.status = .passed →
    buildHandoverReceipt (.dict doc) g audit clock = .ok rcp →
    ∃ rcp', buildHandoverReceipt (.dict doc') g' audit clock' = .ok rcp' ∧ rcp'.status = rcp.status
      ∧ (VcsListed doc → rcp'.commit = last.or rcp.commit)

/-- Two receipts of one ledger differ in their time only. -/
lemma receipt_clock {doc : Val} {g g' : GateResult} {audit : Option Val} {clock clock' : String}
    {rcp : Receipt} (hg : g.status = .passed) (hg' : g'.status = .passed)
    (h : buildHandoverReceipt doc g audit clock = .ok rcp) :
    buildHandoverReceipt doc g' audit clock' = .ok { rcp with createdAt := clock' } := by
  unfold buildHandoverReceipt at h ⊢
  simp only [except_bind_eq_ok] at h
  obtain ⟨control, hcontrol, ref, href, tasks, htasks, opened, hopen, rec, hrec, commit, hcommit,
    iplan, hiplan, version, hversion, control', haudit, report, hreport, h⟩ := h
  obtain rfl := Except.ok.inj h
  rw [hcontrol, ok_bind, href, ok_bind, htasks, ok_bind, hopen, ok_bind, hrec, ok_bind, hcommit,
    ok_bind, hiplan, ok_bind, hversion, ok_bind, haudit, ok_bind, hreport, ok_bind, hg, hg']
  rfl

lemma Kept.start {doc : Dict} (sec : Sections doc) (hpass : Passing doc) : Kept doc doc none :=
  ⟨⟨sec⟩, hpass, fun h => h, fun _ _ _ _ _ _ hg hg' h =>
    ⟨_, receipt_clock hg hg' h, rfl, fun _ => rfl⟩⟩

/-- A ledger whose commit is recorded has its sections. -/
lemma Recording.sections {doc doc' : Dict} {branch sha : String} (r : Recording doc doc' branch sha)
    (sec : Sections doc) (hpass : Passing doc) : Nonempty (Sections doc') := by
  obtain ⟨j, hsilent⟩ := passing_iff.mp hpass
  have hlog : r.log = sec.log :=
    Val.list.inj (Option.some.inj (r.log_eq.symm.trans sec.log_eq))
  have hverified : verifyChain r.log = .ok true := by
    have hread := j.log_eq
    rw [docList, Val.get, r.log_eq, Option.getD_some] at hread
    rw [Except.ok.inj hread]
    exact j.verified hsilent
  obtain ⟨ps, htouched⟩ := returns_landedPaths hverified (hlog ▸ sec.paths)
  have hps : r.touched = ps.map .str := Except.ok.inj (r.touched_eq.symm.trans htouched)
  refine ⟨⟨_, r.scope, _, r.lookup_control, ?_, r.lookup_log, fun e he => ?_⟩⟩
  · rw [r.lookup_other (by decide), r.scope_eq]
  · rcases List.mem_append.mp he with he | he
    · exact sec.paths e (hlog ▸ he)
    · obtain rfl := List.mem_singleton.mp he
      exact ⟨ps, by rw [r.event_get.1, hps]⟩

/-- A recorded commit is the one the receipt names. -/
lemma Kept.record {doc doc' doc'' : Dict} {last : Option CommitRef} {branch sha : String}
    (k : Kept doc doc' last) (r : Recording doc' doc'' branch sha) :
    Kept doc doc'' (some ⟨.str sha, .str branch⟩) := by
  obtain ⟨sec⟩ := k.sections
  obtain ⟨j, hsilent⟩ := passing_iff.mp k.passing
  refine ⟨r.sections sec k.passing, passing_iff.mpr (r.judgement j hsilent),
    fun _ => ⟨_, _, by rw [r.lookup_vcs, Option.getD_some],
      by rw [Dict.lookup_set_self, Option.getD_some]⟩,
    fun g g' audit clock clock' rcp hg hg' h => ?_⟩
  obtain ⟨rcp', hrcp', hstatus, -⟩ := k.receipt g g' audit clock clock' rcp hg hg' h
  exact ⟨_, r.receipt hg' hg' hrcp', hstatus, fun _ => rfl⟩

/-- A ledger that has only its branch named keeps its verdict. -/
lemma Kept.branch {doc doc' doc'' : Dict} {last last' : Option CommitRef} {branch : String}
    (k : Kept doc doc' last) (b : Branched doc' doc'' branch) (hform : ¬ VcsListed doc') :
    Kept doc doc'' last' := by
  obtain ⟨sec⟩ := k.sections
  refine ⟨⟨sec.control, sec.scope, sec.log, ?_, ?_, ?_, sec.paths⟩, ?_,
    fun h => absurd (k.listed h) hform, fun g g' audit clock clock' rcp hg hg' h => ?_⟩
  · rw [b.lookup_other (by decide), sec.control_eq]
  · rw [b.lookup_other (by decide), sec.scope_eq]
  · rw [b.lookup_other (by decide), sec.log_eq]
  · rw [Passing, runGate, b.validateLedger_eq]
    exact k.passing
  · obtain ⟨rcp', hrcp', hstatus, -⟩ := k.receipt g g' audit clock clock' rcp hg hg' h
    obtain ⟨rcp'', hrcp'', hstatus'⟩ := b.receipt clock' hg' hg' hrcp'
    exact ⟨rcp'', hrcp'', hstatus'.trans hstatus, fun h => absurd (k.listed h) hform⟩

/-- **One landing**, whatever becomes of it. -/
lemma Kept.land {doc : Dict} {last : Option CommitRef} {s : Dict × W} (k : Kept doc s.1 last)
    (branch message : String) (gate : Option Gate) :
    Kept doc (land repo clock branch message gate s).2.1
      (namedCommit repo branch message s.2 last) := by
  obtain ⟨doc', w⟩ := s
  have hdoc : ∀ {r : Except PyErr Unit} {s' : Dict × W},
      commitChanges repo clock branch message (doc', w) = (r, s') →
        (Document.land repo clock branch message gate (doc', w)).2.1 = s'.1 := by
    intro r s' h
    rw [Document.land]
    cases r with
    | ok u => rw [Call.bind_ok h]; rfl
    | error e => rw [Call.bind_error h]
  rw [namedCommit]
  cases hc : committing repo branch message w with
  | error e =>
      obtain ⟨w', h⟩ := commitChanges_error clock doc' hc
      rw [hdoc h]
      exact k
  | ok made =>
      cases made with
      | none =>
          obtain ⟨w', h⟩ := commitChanges_clean clock doc' hc
          rw [hdoc h]
          exact k
      | some sha =>
          obtain ⟨w', h⟩ := commitChanges_commit clock doc' hc
          obtain ⟨sec⟩ := k.sections
          obtain ⟨p⟩ := prepared sec k.passing
          rcases recordCommit_of_prepared clock p branch message sha w' with
            ⟨s', hok, ⟨r⟩⟩ | ⟨hform, e, s', herr, hleft⟩
          · rw [hdoc (h.trans hok)]
            exact k.record r
          · rw [hdoc (h.trans herr)]
            rcases hleft with hsame | ⟨⟨b⟩⟩
            · rw [hsame]
              exact ⟨k.sections, k.passing, k.listed, fun g g' audit at_ at' rcp hg hg' hbuilt => by
                obtain ⟨rcp', hrcp', hstatus, -⟩ := k.receipt g g' audit at_ at' rcp hg hg' hbuilt
                exact ⟨rcp', hrcp', hstatus, fun hl => absurd (k.listed hl) hform⟩⟩
            · exact k.branch b hform

/-! ### Landings one after another -/

variable (repo clock) in
/-- Landings one after another, and the commit the last of them that made one made. -/
inductive Landings (s : Dict × W) : Option CommitRef → Dict × W → Prop
  | start : Landings s none s
  | land {s' : Dict × W} {last : Option CommitRef} (branch message : String) (gate : Option Gate)
      (h : Landings s last s') :
      Landings s (namedCommit repo branch message s'.2 last)
        (land repo clock branch message gate s').2

lemma Landings.kept {s s' : Dict × W} {last : Option CommitRef}
    (h : Landings repo clock s last s') (sec : Sections s.1) (hpass : Passing s.1) :
    Kept s.1 s'.1 last := by
  induction h with
  | start => exact Kept.start sec hpass
  | land branch message gate h ih => exact ih.land branch message gate

end Runtime

section Example

attribute [local instance] cpython

end Example

end Document

end IplanRunner
