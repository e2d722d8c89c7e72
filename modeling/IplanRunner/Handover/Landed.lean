import IplanRunner.Gates.Verdict
import IplanRunner.Handover.Receipt
import IplanRunner.Orchestrator.LandDocument

/-!
A landing keeps the verdict on a ledger.

* `verifyChain_chainedEvent`: an appended event continues the chain of any document.
* `Recording.judgement`: no rule of the default gate fires after a landing, if none did before.
* `Recording.receipt`: the receipt changes in the commit it names only.
* `landing_keeps_verdict`: so it is after any number of landings.
-/

namespace IplanRunner

open Foundation

section Runtime

variable [PyRuntime]

/-! ### The chain -/

/-- The hash of a verified event, which has a type. -/
lemma verifyEvent_some {prevHash : Option String} {index : ℕ} {event : Val} {hash : String}
    (h : verifyEvent prevHash index event = .ok (some hash)) :
    (∃ v, event.item "event_hash" = .ok v ∧ v.pyStr = hash) ∧ hash ≠ ""
      ∧ Returns (event.item "event_type") := by
  rw [verifyEvent] at h
  obtain ⟨seq, -, h⟩ := except_bind_eq_ok.mp h
  split at h
  · cases h
  · obtain ⟨prev, -, h⟩ := except_bind_eq_ok.mp h
    split at h
    · cases h
    · simp only [except_bind_eq_ok] at h
      obtain ⟨_, -, n, -, a, ha, b, -, c, -, v, hv, h⟩ := h
      split at h
      · cases h
      · rename_i hsame
        obtain ⟨v', hv', h⟩ := except_bind_eq_ok.mp h
        obtain rfl : v = v' := Except.ok.inj (hv.symm.trans hv')
        obtain rfl : v.pyStr = hash := Option.some.inj (Except.ok.inj h)
        rw [Bool.not_eq_true', Bool.not_eq_false, Val.pyEq_str_iff] at hsame
        subst hsame
        refine ⟨⟨_, ?_, rfl⟩, computeEventHash_ne _ _ _ _ _, a, ha⟩
        cases event with
        | dict kvs =>
            rw [Val.get] at hv
            rw [Val.item]
            cases hl : kvs.lookup "event_hash" with
            | none =>
                rw [hl] at hv
                cases hv
            | some u =>
                rw [hl] at hv
                exact hv
        | _ => cases hv

/-- What the event behind a verified log has to continue. -/
lemma verifyChainFrom_append {prevHash : Option String} {index : ℕ} {log : List Val}
    (h : verifyChainFrom prevHash index log = .ok true) :
    ∃ q : Option String,
      (∀ event, verifyChainFrom prevHash index (log ++ [event])
        = verifyChainFrom q (index + log.length) [event])
      ∧ (log = [] → q = prevHash)
      ∧ ∀ last, log.getLast? = some last →
        ∃ v, last.item "event_hash" = .ok v ∧ q = some v.pyStr ∧ v.pyStr ≠ "" := by
  induction log generalizing prevHash index with
  | nil => exact ⟨prevHash, fun _ => rfl, fun _ => rfl, by simp⟩
  | cons e rest ih =>
      rw [verifyChainFrom] at h
      obtain ⟨next, hnext, h⟩ := except_bind_eq_ok.mp h
      cases next with
      | none => cases h
      | some hash =>
          obtain ⟨q, happend, hempty, hlast⟩ := ih h
          refine ⟨q, fun event => ?_, (by simp), fun last hl => ?_⟩
          · rw [List.cons_append, verifyChainFrom, hnext, ok_bind, List.length_cons,
              show index + (rest.length + 1) = index + 1 + rest.length by omega]
            exact happend event
          · cases rest with
            | nil =>
                obtain rfl : e = last := by simpa using hl
                obtain ⟨⟨v, hv, hstr⟩, hne, -⟩ := verifyEvent_some hnext
                exact ⟨v, hv, by rw [hempty rfl, hstr], by rw [hstr]; exact hne⟩
            | cons e' rest' => exact hlast last (by simpa using hl)

/-- **An appended event continues the chain.** -/
theorem verifyChain_chainedEvent {log : List Val} {body event : Dict}
    (hlog : verifyChain log = .ok true)
    (hevent : Document.chainedEvent log body = .ok event) :
    verifyChain (log ++ [.dict event]) = .ok true := by
  obtain ⟨q, happend, hempty, hlast⟩ := verifyChainFrom_append hlog
  rw [verifyChain, happend, Nat.zero_add, verifyChainFrom]
  rw [Document.chainedEvent] at hevent
  obtain ⟨previous, hprevious, hevent⟩ := except_bind_eq_ok.mp hevent
  have hq : previous = q := by
    rw [Document.previousHash] at hprevious
    cases hl : log.getLast? with
    | none =>
        rw [hl] at hprevious
        rw [hempty (List.getLast?_eq_none_iff.mp hl)]
        exact (Except.ok.inj hprevious).symm
    | some last =>
        obtain ⟨v, hv, hq, -⟩ := hlast last hl
        rw [hl] at hprevious
        dsimp only at hprevious
        rw [hv, ok_bind] at hprevious
        rw [hq]
        exact (Except.ok.inj hprevious).symm
  have hprev : (optStr previous).orElse .none = optStr previous := by
    rw [hq]
    cases hl : log.getLast? with
    | none =>
        rw [hempty (List.getLast?_eq_none_iff.mp hl)]
        rfl
    | some last =>
        obtain ⟨v, -, hq, hne⟩ := hlast last hl
        rw [hq]
        simp [optStr, Val.orElse, Val.truthy, hne]
  subst hq
  obtain ⟨eventType, htype, hevent⟩ := except_bind_eq_ok.mp hevent
  obtain ⟨subjectId, hsubject, hevent⟩ := except_bind_eq_ok.mp hevent
  obtain ⟨atTime, hat, hevent⟩ := except_bind_eq_ok.mp hevent
  obtain rfl := Except.ok.inj hevent
  generalize hhash : computeEventHash (log.length + 1) previous eventType.pyStr subjectId.pyStr
    atTime.pyStr = hash
  have hitem : ∀ key ∈ ["event_type", "subject_id", "at"],
      (Val.dict (Dict.set (Document.numberedEvent (log.length + 1) previous body) "event_hash"
        (.str hash))).item key
      = (Val.dict (Document.numberedEvent (log.length + 1) previous body)).item key := by
    intro key hkey
    refine Dict.item_set_of_ne _ (fun heq => ?_) _
    rw [heq] at hkey
    exact absurd hkey (by decide)
  have hsequence : (Val.dict (Dict.set (Document.numberedEvent (log.length + 1) previous body)
      "event_hash" (.str hash))).item "sequence" = .ok (.int (log.length + 1)) := by
    rw [Dict.item_set_of_ne _ (by decide), Document.numberedEvent,
      Dict.item_set_of_ne _ (by decide), Dict.item_set_self]
  rw [verifyEvent, Val.get_dict, Val.get_dict, Val.get_dict, Dict.get_set_of_ne _ (by decide),
    Dict.get_set_of_ne _ (by decide), Dict.get_set_self, hsequence, hitem _ (by simp),
    hitem _ (by simp), hitem _ (by simp), htype,
    hsubject, hat, Document.numberedEvent, Dict.get_set_self, Dict.get_set_of_ne _ (by decide),
    Dict.get_set_self]
  simp only [ok_bind, hprev, Val.pyEq_refl, Val.pyInt, hhash]
  rfl

/-! ### The isolation of the log -/

omit [PyRuntime] in
/-- A landing names paths of the events before it only. -/
lemma mem_landedPaths {log touched : List Val} (h : Document.landedPaths log = .ok touched)
    {p : Val}
    (hp : p ∈ touched) :
    ∃ e ∈ log, ∃ ps, (e.get "touched_paths" (.list []) >>= Val.iter) = .ok ps ∧ p ∈ ps := by
  rw [Document.landedPaths] at h
  obtain ⟨paths, hpaths, hsorted⟩ := except_bind_eq_ok.mp h
  obtain ⟨e, he, zs, hzs, hin⟩ := ((collect_eq_ok hpaths).2 p).mp (mem_sortedSet hsorted hp)
  obtain ⟨kind, -, hzs⟩ := except_bind_eq_ok.mp hzs
  split at hzs
  · exact ⟨e, he, zs, hzs, hin⟩
  · cases hzs
    cases hin

/-- The paths of an event are inside the roots. -/
lemma touchesOutside_eq_false_iff {roots event : Val} :
    touchesOutside roots event = .ok false
      ↔ ∃ ps, (event.get "touched_paths" (.list []) >>= Val.iter) = .ok ps
        ∧ ∀ p ∈ ps, (do if ← inScope p.pyStr (← roots.iter) then return [] else return [()]
          : Except PyErr (List Unit)) = .ok [] := by
  rw [touchesOutside]
  simp only [← collect_eq_nil_iff]
  constructor
  · intro h
    obtain ⟨v, hv, h⟩ := except_bind_eq_ok.mp h
    obtain ⟨ps, hps, h⟩ := except_bind_eq_ok.mp h
    obtain ⟨outside, houtside, h⟩ := except_bind_eq_ok.mp h
    refine ⟨ps, except_bind_eq_ok.mpr ⟨v, hv, hps⟩, ?_⟩
    cases outside with
    | nil => exact houtside
    | cons u us => cases h
  · rintro ⟨ps, hps, hnone⟩
    obtain ⟨v, hv, hps⟩ := except_bind_eq_ok.mp hps
    rw [hv, ok_bind, hps, ok_bind, hnone]
    rfl

/-- An event that touches what the log has touched, in the scope of the log, adds no finding. -/
lemma logFindings_append {scope event : Val} {log touched : List Val} {fs : List Finding}
    (h : logFindings scope log = .ok fs) (hsilent : Silent fs)
    (htouched : Document.landedPaths log = .ok touched)
    (hpaths : event.get "touched_paths" (.list []) = .ok (.list touched))
    (hclient : event.get "client_id" = scope.get "client_id")
    (hproject : event.get "project_id" = scope.get "project_id") :
    logFindings scope (log ++ [event]) = .ok fs := by
  rw [logFindings] at h
  obtain ⟨roots, hroots, h⟩ := except_bind_eq_ok.mp h
  obtain ⟨client, hclient', h⟩ := except_bind_eq_ok.mp h
  obtain ⟨project, hproject', h⟩ := except_bind_eq_ok.mp h
  obtain ⟨seen, hseen, h⟩ := except_bind_eq_ok.mp h
  cases h
  rw [silent_flags] at hsilent
  have hread : ∀ {key v}, scope.item key = .ok v → scope.get key = .ok v := by
    intro key v hv
    cases scope with
    | dict kvs =>
        rw [Val.item] at hv
        rw [Val.get]
        split at hv
        · rename_i u hu
          rw [hu, Option.getD_some, Except.ok.inj hv]
        · cases hv
    | _ => cases hv
  have hinside : ∀ e ∈ log, touchesOutside roots e = .ok false := by
    intro e he
    obtain ⟨hall, hmem⟩ := collect_eq_ok hseen
    obtain ⟨zs, hzs⟩ := hall e he
    obtain ⟨violation, hviolation, hrest⟩ := except_bind_eq_ok.mp hzs
    obtain ⟨inside, -, hrest⟩ := except_bind_eq_ok.mp hrest
    have hflag := hsilent (violation, !inside)
      ((hmem _).mpr ⟨e, he, zs, hzs,
        by rw [← Except.ok.inj hrest]; exact List.mem_singleton.mpr rfl⟩)
    obtain rfl : violation = false := (Prod.ext_iff.mp hflag).1
    exact hviolation
  have htouch : touchesOutside roots event = .ok false := by
    refine touchesOutside_eq_false_iff.mpr ⟨touched, by rw [hpaths]; rfl, fun p hp => ?_⟩
    obtain ⟨e, he, ps, hps, hin⟩ := mem_landedPaths htouched hp
    obtain ⟨ps', hps', hall⟩ := touchesOutside_eq_false_iff.mp (hinside e he)
    obtain rfl : ps = ps' := Except.ok.inj (hps.symm.trans hps')
    exact hall p hin
  have hscope : eventInScope event client project = .ok true := by
    rw [eventInScope, hclient, hread hclient', ok_bind, Val.pyEq_refl, hproject, hread hproject',
      ok_bind, Val.pyEq_refl]
    rfl
  have hlast : ∀ f : Val → Except PyErr (List (Bool × Bool)), f event = .ok [(false, false)] →
      collect f [event] = .ok [(false, false)] := by
    intro f hf
    rw [collect, hf]
    rfl
  rw [logFindings, hroots, ok_bind, hclient', ok_bind, hproject', ok_bind,
    collect_append hseen (hlast _ (by rw [htouch, ok_bind, hscope]; rfl)), ok_bind]
  simp [pure, Except.pure]

/-- A log the default gate is silent about is verified. -/
lemma Judgement.verified {document : Val} (j : Judgement document) (hsilent : Silent j.findings) :
    verifyChain j.log = .ok true := by
  obtain ⟨-, -, -, -, hchain, -⟩ := j.silent_iff.mp hsilent
  have hread := j.chain_eq
  rw [chainFindings] at hread
  obtain ⟨b, hb, hread⟩ := except_bind_eq_ok.mp hread
  cases b with
  | true => exact hb
  | false =>
      have hbroken := hchain (finding .hashchainBroken "execution_log hash chain is inconsistent")
        (by rw [← Except.ok.inj hread]; exact List.mem_singleton.mpr rfl)
      exact absurd ((defaultGate_references _).mpr (by simp)) hbroken

/-! ### The judgement after a landing -/

namespace Document

lemma chainedEvent_lookup {log : List Val} {body event : Dict}
    (h : chainedEvent log body = .ok event)
    {key : String} (hkey : key ∉ ["sequence", "previous_event_hash", "event_hash"]) :
    event.lookup key = body.lookup key := by
  rw [chainedEvent] at h
  simp only [except_bind_eq_ok] at h
  obtain ⟨previous, -, _, -, _, -, _, -, h⟩ := h
  obtain rfl := Except.ok.inj h
  simp only [List.mem_cons, List.not_mem_nil, or_false, not_or] at hkey
  rw [Dict.lookup_set_of_ne _ hkey.2.2, numberedEvent, Dict.lookup_set_of_ne _ hkey.2.1,
    Dict.lookup_set_of_ne _ hkey.1]

namespace Recording

variable {doc doc' : Dict} {branch sha : String} (r : Recording doc doc' branch sha)

include r

lemma lookup_other {key : String} (hkey : key ∉ ["vcs", "execution_log", "ledger_control"]) :
    doc'.lookup key = doc.lookup key := by
  simp only [List.mem_cons, List.not_mem_nil, or_false, not_or] at hkey
  rw [r.after, Dict.lookup_set_of_ne _ hkey.2.2, Dict.lookup_set_of_ne _ hkey.2.1,
    Dict.lookup_set_of_ne _ hkey.1]

lemma lookup_control : doc'.lookup "ledger_control"
    = some (.dict (Dict.set r.control "requires_landing" (.bool true))) := by
  refine (congrArg (List.lookup "ledger_control") r.after).trans ?_
  rw [Dict.lookup_set_self]

lemma lookup_log : doc'.lookup "execution_log" = some (.list (r.log ++ [.dict r.event])) := by
  refine (congrArg (List.lookup "execution_log") r.after).trans ?_
  rw [Dict.lookup_set_of_ne _ (by decide), Dict.lookup_set_self]

lemma lookup_vcs : doc'.lookup "vcs"
    = some (.dict (Dict.set (Dict.set r.vcs "branch" (.str branch)) "commits"
      (.list (r.commits ++ [.dict (commitDict sha r.message r.atTime r.touched)])))) := by
  refine (congrArg (List.lookup "vcs") r.after).trans ?_
  rw [Dict.lookup_set_of_ne _ (by decide), Dict.lookup_set_of_ne _ (by decide),
    Dict.lookup_set_self]

lemma get_other {key : String} (hkey : key ∉ ["vcs", "execution_log", "ledger_control"])
    (default : Val) : (Val.dict doc').get key default = (Val.dict doc).get key default := by
  rw [Val.get, Val.get, r.lookup_other hkey]

/-- The event of a landing touches what has been touched, in the scope of the ledger. -/
lemma event_get : (Val.dict r.event).get "touched_paths" (.list []) = .ok (.list r.touched)
    ∧ (Val.dict r.event).get "client_id" = r.scope.get "client_id"
    ∧ (Val.dict r.event).get "project_id" = r.scope.get "project_id" := by
  obtain ⟨client, hclient, hbody⟩ := except_bind_eq_ok.mp r.body_eq
  obtain ⟨project, hproject, hbody⟩ := except_bind_eq_ok.mp hbody
  have hlookup : ∀ key, key ∉ ["sequence", "previous_event_hash", "event_hash"] →
      r.event.lookup key = r.body.lookup key := fun key hkey => chainedEvent_lookup r.event_eq hkey
  rw [hclient, hproject, Val.get, Val.get, Val.get, hlookup _ (by decide), hlookup _ (by decide),
    hlookup _ (by decide), ← Except.ok.inj hbody]
  exact ⟨rfl, rfl, rfl⟩

/-- **After a landing no rule of the default gate fires**, if none did before. -/
theorem judgement (j : Judgement (.dict doc)) (hsilent : Silent j.findings) :
    ∃ j' : Judgement (.dict doc'), Silent j'.findings := by
  obtain ⟨hok, htasks, hblockers, hisolation, -, -⟩ := j.silent_iff.mp hsilent
  have hcontrol : j.control = .dict r.control := by
    have hread := j.control_eq
    rw [docDict, Val.get, r.control_eq, Option.getD_some] at hread
    exact (Except.ok.inj hread).symm
  have hscope : j.scope = r.scope := by
    have hread := j.scope_eq
    rw [docDict, Val.get, r.scope_eq, Option.getD_some] at hread
    exact (Except.ok.inj hread).symm
  have hlog : j.log = r.log := by
    have hread := j.log_eq
    rw [docList, Val.get, r.log_eq, Option.getD_some] at hread
    exact (Except.ok.inj hread).symm
  have hverified : verifyChain r.log = .ok true := by
    rw [← hlog]
    exact j.verified hsilent
  have hlist : ∀ key, key ∉ ["vcs", "execution_log", "ledger_control"] →
      docList (.dict doc') key = docList (.dict doc) key := by
    intro key hkey
    rw [docList, docList, r.get_other hkey]
  have hdict : ∀ key, key ∉ ["vcs", "execution_log", "ledger_control"] →
      docDict (.dict doc') key = docDict (.dict doc) key := fun key hkey => r.get_other hkey _
  have hsource : sourceFindings (.dict (Dict.set r.control "requires_landing" (.bool true)))
      = sourceFindings (.dict r.control) := by
    have hget : ∀ key, key ≠ "requires_landing" →
        (Val.dict (Dict.set r.control "requires_landing" (.bool true))).get key
          = (Val.dict r.control).get key := by
      intro key hkey
      rw [Val.get, Dict.lookup_set_of_ne _ hkey, Val.get]
    rw [sourceFindings, allPresent, hget _ (by decide), hget _ (by decide), hget _ (by decide),
      sourceFindings, allPresent]
  have hlanding : landingFindings (.dict doc')
      (.dict (Dict.set r.control "requires_landing" (.bool true))) = .ok [] := by
    have hvcs : (Val.dict doc').get "vcs" (.dict []) = .ok (.dict (Dict.set
        (Dict.set r.vcs "branch" (.str branch)) "commits"
        (.list (r.commits ++ [.dict (commitDict sha r.message r.atTime r.touched)])))) := by
      rw [Val.get, r.lookup_vcs, Option.getD_some]
    rw [landingFindings, Val.get_dict, ok_bind, Dict.get_set_self, hvcs, ok_bind, Val.get_dict,
      ok_bind, Dict.get_set_self]
    simp [Val.truthy, pure, Except.pure]
  have hinside : isolationFindings j.ok j.scope (r.log ++ [.dict r.event]) = .ok j.isolation := by
    have hread := j.isolation_eq
    rw [isolationFindings, if_pos hok, hlog] at hread
    obtain ⟨hpaths, hclient, hproject⟩ := r.event_get
    rw [isolationFindings, if_pos hok]
    refine logFindings_append hread hisolation r.touched_eq hpaths ?_ ?_
    · rw [hclient, hscope]
    · rw [hproject, hscope]
  refine ⟨⟨.dict (Dict.set r.control "requires_landing" (.bool true)), j.scope, j.ok, j.evidence,
    j.taskList, j.blockerList, j.leaseList, j.reconciliationDict, r.log ++ [.dict r.event],
    j.source, j.tasks, j.blockers, j.leases, j.reconciliation, j.isolation, [], [], ?_, ?_,
    (hdict _ (by decide)).trans j.scope_eq, j.ok_eq,
    (r.get_other (by decide) _).trans j.evidence_eq,
    (hlist _ (by decide)).trans j.taskList_eq, j.tasks_eq,
    (hlist _ (by decide)).trans j.blockerList_eq, j.blockers_eq,
    (hlist _ (by decide)).trans j.leaseList_eq, j.leases_eq,
    (hdict _ (by decide)).trans j.reconciliationDict_eq, j.reconciliation_eq, ?_, hinside, ?_,
    hlanding⟩, ?_⟩
  · rw [docDict, Val.get, r.lookup_control, Option.getD_some]
  · rw [hsource, ← hcontrol, j.source_eq]
  · rw [docList, Val.get, r.lookup_log, Option.getD_some]
    rfl
  · rw [chainFindings, verifyChain_chainedEvent hverified r.event_eq]
    rfl
  · exact (Judgement.silent_iff _).mpr ⟨hok, htasks, hblockers, hisolation, silent_nil, silent_nil⟩

/-- **The receipt after a landing** is the one before, but for the commit it names and its time. -/
theorem receipt {g g' : GateResult} {audit : Option Val} {clock clock' : String} {rcp : Receipt}
    (hg : g.status = .passed) (hg' : g'.status = .passed)
    (h : buildHandoverReceipt (.dict doc) g audit clock = .ok rcp) :
    buildHandoverReceipt (.dict doc') g' audit clock'
      = .ok { rcp with commit := some ⟨.str sha, .str branch⟩, createdAt := clock' } := by
  have hcontrol : docDict (.dict doc) "ledger_control" = .ok (.dict r.control) := by
    rw [docDict, Val.get, r.control_eq, Option.getD_some]
  have hcontrol' : docDict (.dict doc') "ledger_control"
      = .ok (.dict (Dict.set r.control "requires_landing" (.bool true))) := by
    rw [docDict, Val.get, r.lookup_control, Option.getD_some]
  have htasks : docList (.dict doc') "task_ledger" = docList (.dict doc) "task_ledger" := by
    rw [docList, docList, r.get_other (by decide)]
  have hreconciled : reconciled (.dict doc') = reconciled (.dict doc) := by
    rw [reconciled, reconciled, docDict, docDict, r.get_other (by decide)]
  have hcommit : lastCommit (.dict doc') = .ok (some ⟨.str sha, .str branch⟩) := by
    have hvcs : docDict (.dict doc') "vcs" = .ok (.dict (Dict.set
        (Dict.set r.vcs "branch" (.str branch)) "commits"
        (.list (r.commits ++ [.dict (commitDict sha r.message r.atTime r.touched)])))) := by
      rw [docDict, Val.get, r.lookup_vcs, Option.getD_some]
    have hcommits : ∀ default,
        (Val.dict (Dict.set (Dict.set r.vcs "branch" (.str branch)) "commits"
          (.list (r.commits ++ [.dict (commitDict sha r.message r.atTime r.touched)])))).get
            "commits" default
          = .ok (.list (r.commits ++ [.dict (commitDict sha r.message r.atTime r.touched)])) := by
      intro default
      rw [Val.get, Dict.lookup_set_self, Option.getD_some]
    have hsha : (Val.dict (commitDict sha r.message r.atTime r.touched)).item "sha"
        = .ok (.str sha) :=
      rfl
    rw [lastCommit, hvcs, ok_bind, hcommits, ok_bind, Val.iter, ok_bind, List.getLast?_concat,
      Val.get_dict, Dict.get_set_of_ne _ (by decide), Dict.get_set_self]
    dsimp only
    rw [hsha]
    simp [Val.truthy, pure, Except.pure]
  unfold buildHandoverReceipt at h ⊢
  rw [hcontrol, ok_bind, Val.get_dict, ok_bind] at h
  rw [hcontrol', ok_bind, Val.get_dict, ok_bind, htasks, hreconciled, hcommit]
  simp only [except_bind_eq_ok] at h
  obtain ⟨tasks, htasks, opened, hopen, rec, hrec, commit, -, iplan, hiplan, version, hversion,
    control, haudit, ref, href, h⟩ := h
  obtain rfl := Except.ok.inj h
  rw [Val.get_dict] at hiplan hversion
  cases hiplan
  cases hversion
  rw [htasks, ok_bind, hopen, ok_bind, hrec, ok_bind, ok_bind, Val.get_dict, ok_bind, Val.get_dict,
    ok_bind, haudit, ok_bind, href, ok_bind, Dict.get_set_of_ne _ (by decide),
    Dict.get_set_of_ne _ (by decide), Dict.get_set_of_ne _ (by decide), hg, hg']
  rfl

end Recording

end Document

end Runtime

end IplanRunner
