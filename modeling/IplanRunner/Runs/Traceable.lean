import IplanRunner.Foundation.Serials
import IplanRunner.Runs.Script

/-!
Ids and evidence over histories, each process drawing its ids from an `IdSource` of its own.

* `IdTrace`, `Ledger.ids`: the ids a ledger holds; `Traceable`: every reference resolves to one
  entry, of the referring task, and no two ids of a section are equal.
* `Draws`: a ledger gains ids drawn while the counters went up, and references to what it gained;
  `Draws.traceable`: where none of them is in use, that keeps it traceable.
* `Sourced`, `Tracks`: a host with its `IdSource`, and what every call of the loop does to both.
* `ProcessHistory`, `evidence_traceable`: the histories whose resumes draw unused ids.
-/

namespace IplanRunner

open Foundation

/-! ### The ids of a ledger -/

/-- The ids in the sections of a ledger; the evidence with the ids of its tasks, and the references
of every task. -/
structure IdTrace where
  leases : List String
  txns : List String
  blockers : List String
  evidence : List (Val × Val)
  refs : List (Val × List String)

/-- The ids a ledger holds. -/
def Ledger.ids (L : Ledger) : IdTrace where
  leases := L.agentLeases.map (·.leaseId)
  txns := L.sagaJournal.map (·.txnId)
  blockers := L.blockers.map (·.blockerId)
  evidence := L.executionEvidence.map fun d => (d.get "evidence_id", d.get "task_id")
  refs := L.taskLedger.map fun e => (e.taskId, e.evidenceRefs)

/-- **Evidence is traceable**: a reference resolves to one entry, which is of the referring task,
and the ids of evidence, leases, transactions and open blockers are distinct. -/
structure IdTrace.Traceable (t : IdTrace) : Prop where
  refs : ∀ p ∈ t.refs, ∀ ref ∈ p.2,
    t.evidence.filter (fun e => e.1 = .str ref) = [(.str ref, p.1)]
  evidence : (t.evidence.map Prod.fst).Nodup
  leases : t.leases.Nodup
  txns : t.txns.Nodup
  blockers : t.blockers.Nodup

/-- Where ids are distinct, an entry is the only one with its id. -/
lemma filter_eq_singleton {entries : List (Val × Val)} (h : (entries.map Prod.fst).Nodup)
    {x y : Val} (hmem : (x, y) ∈ entries) : entries.filter (fun e => e.1 = x) = [(x, y)] := by
  induction entries with
  | nil => cases hmem
  | cons e rest ih =>
      obtain ⟨hfirst, hrest⟩ := List.nodup_cons.mp h
      have hnone : ∀ z, e.1 = z → rest.filter (fun e => e.1 = z) = [] := by
        rintro z rfl
        refine List.filter_eq_nil_iff.mpr fun d hd heq => hfirst ?_
        exact List.mem_map.mpr ⟨d, hd, of_decide_eq_true heq⟩
      rcases List.mem_cons.mp hmem with rfl | hmem
      · rw [List.filter_cons_of_pos (by simp), hnone x rfl]
      · have hne : e.1 ≠ x := fun heq => hfirst (List.mem_map.mpr ⟨(x, y), hmem, heq.symm⟩)
        rw [List.filter_cons_of_neg (by simpa using hne), ih hrest hmem]

/-! ### Drawing ids -/

/-- What is recorded of an id drawn for evidence. -/
def evidenceIds (p : ℕ × String) : Val × Val := (.str (serial "EV" p.1), .str p.2)

/-- A task gains references to new evidence of its own. -/
def GainsRefs (new : List (ℕ × String)) (p p' : Val × List String) : Prop :=
  p'.1 = p.1 ∧ ∃ ns : List ℕ, p'.2 = p.2 ++ ns.map (serial "EV")
    ∧ ∀ n ∈ ns, ∃ taskId, p.1 = .str taskId ∧ (n, taskId) ∈ new

/-- A ledger gains ids drawn while the counters go from `a` to `b`. -/
structure Draws (a b : String → ℕ) (t t' : IdTrace) : Prop where
  mono : ∀ kind, a kind ≤ b kind
  leases : ∃ ns, Drawn (a "L") (b "L") ns ∧ t'.leases = t.leases ++ ns.map (serial "L")
  txns : ∃ ns, Drawn (a "TX") (b "TX") ns ∧ t'.txns = t.txns ++ ns.map (serial "TX")
  blockers : ∃ ns, Drawn (a "B") (b "B") ns ∧ t'.blockers = t.blockers ++ ns.map (serial "B")
  evidence : ∃ new : List (ℕ × String), Drawn (a "EV") (b "EV") (new.map Prod.fst)
    ∧ t'.evidence = t.evidence ++ new.map evidenceIds ∧ List.Forall₂ (GainsRefs new) t.refs t'.refs

lemma gainsRefs_self (new : List (ℕ × String)) (p : Val × List String) : GainsRefs new p p :=
  ⟨rfl, [], by simp, by simp⟩

namespace Draws

variable {a b c : String → ℕ} {t t' t'' : IdTrace}

/-- A section no id is drawn for. -/
lemma skip (h : ∀ kind, a kind ≤ b kind) (kind : String) (xs : List String) :
    ∃ ns, Drawn (a kind) (b kind) ns ∧ xs = xs ++ ns.map (serial kind) :=
  ⟨[], Drawn.skip (h kind), by simp⟩

/-- No evidence is recorded. -/
lemma skipEvidence (h : ∀ kind, a kind ≤ b kind) (t : IdTrace) :
    ∃ new : List (ℕ × String), Drawn (a "EV") (b "EV") (new.map Prod.fst)
      ∧ t.evidence = t.evidence ++ new.map evidenceIds
      ∧ List.Forall₂ (GainsRefs new) t.refs t.refs :=
  ⟨[], Drawn.skip (h _), by simp, List.forall₂_same.mpr fun p _ => gainsRefs_self _ p⟩

/-- The counters may go up with nothing recorded. -/
lemma same (h : ∀ kind, a kind ≤ b kind) (t : IdTrace) : Draws a b t t :=
  ⟨h, skip h _ _, skip h _ _, skip h _ _, skipEvidence h t⟩

lemma trans (h : Draws a b t t') (h' : Draws b c t' t'') : Draws a c t t'' := by
  have hids : ∀ {kind : String} {xs ys zs : List String},
      (∃ ns, Drawn (a kind) (b kind) ns ∧ ys = xs ++ ns.map (serial kind)) →
      (∃ ns, Drawn (b kind) (c kind) ns ∧ zs = ys ++ ns.map (serial kind)) →
      ∃ ns, Drawn (a kind) (c kind) ns ∧ zs = xs ++ ns.map (serial kind) := by
    rintro kind xs ys zs ⟨ns, hns, rfl⟩ ⟨ms, hms, rfl⟩
    exact ⟨ns ++ ms, hns.trans hms, by rw [List.map_append, List.append_assoc]⟩
  obtain ⟨new, hnew, hevidence, hrefs⟩ := h.evidence
  obtain ⟨new', hnew', hevidence', hrefs'⟩ := h'.evidence
  refine ⟨fun kind => (h.mono kind).trans (h'.mono kind), hids h.leases h'.leases,
    hids h.txns h'.txns, hids h.blockers h'.blockers, new ++ new', ?_, ?_, ?_⟩
  · rw [List.map_append]
    exact hnew.trans hnew'
  · rw [hevidence', hevidence, List.map_append, List.append_assoc]
  · have hgains : ∀ p p' p'', GainsRefs new p p' → GainsRefs new' p' p'' →
        GainsRefs (new ++ new') p p'' := by
      rintro p p' p'' ⟨hid, ns, hns, hmem⟩ ⟨hid', ms, hms, hmem'⟩
      refine ⟨hid'.trans hid, ns ++ ms, by rw [hms, hns, List.map_append, List.append_assoc],
        fun n hn => ?_⟩
      rcases List.mem_append.mp hn with hn | hn
      · obtain ⟨taskId, htask, hnew⟩ := hmem n hn
        exact ⟨taskId, htask, List.mem_append_left _ hnew⟩
      · obtain ⟨taskId, htask, hnew⟩ := hmem' n hn
        exact ⟨taskId, hid ▸ htask, List.mem_append_right _ hnew⟩
    generalize t.refs = xs at hrefs
    generalize t'.refs = ys at hrefs hrefs'
    generalize t''.refs = zs at hrefs'
    induction hrefs generalizing zs with
    | nil =>
        cases hrefs'
        exact .nil
    | cons hp _ ih =>
        cases hrefs' with
        | cons hp' hrest' => exact .cons (hgains _ _ _ hp hp') (ih _ hrest')


end Draws

/-- None of the ids up to the counters is in use in its section. -/
structure Unused (b : String → ℕ) (t : IdTrace) : Prop where
  leases : ∀ n, 0 < n → n ≤ b "L" → serial "L" n ∉ t.leases
  txns : ∀ n, 0 < n → n ≤ b "TX" → serial "TX" n ∉ t.txns
  blockers : ∀ n, 0 < n → n ≤ b "B" → serial "B" n ∉ t.blockers
  evidence : ∀ n, 0 < n → n ≤ b "EV" → Val.str (serial "EV" n) ∉ t.evidence.map Prod.fst

lemma evidenceIds_fst (new : List (ℕ × String)) : (new.map evidenceIds).map Prod.fst
    = ((new.map Prod.fst).map (serial "EV")).map Val.str := by
  rw [List.map_map, List.map_map, List.map_map]
  rfl

/-- **A source that draws no id in use keeps a ledger traceable.** -/
theorem Draws.traceable {b : String → ℕ} {t t' : IdTrace} (h : Draws (fun _ => 0) b t t')
    (hunused : Unused b t) (ht : t.Traceable) : t'.Traceable := by
  obtain ⟨new, hnew, hevidence, hrefs⟩ := h.evidence
  have hids : (t'.evidence.map Prod.fst).Nodup := by
    rw [hevidence, List.map_append, evidenceIds_fst]
    refine List.Nodup.append ht.evidence ((hnew.nodup_serials _).map fun _ _ heq => Val.str.inj heq)
      fun x hx hdrawn => ?_
    obtain ⟨id, hid, rfl⟩ := List.mem_map.mp hdrawn
    obtain ⟨n, hn, rfl⟩ := List.mem_map.mp hid
    exact hunused.evidence n (hnew.above n hn) (hnew.below n hn) hx
  refine ⟨fun p' hp' ref href => ?_, hids, ?_, ?_, ?_⟩
  · refine filter_eq_singleton hids ?_
    rw [hevidence]
    obtain ⟨p, hp, hid, ns, hns, hgained⟩ := exists_of_forall₂ hrefs hp'
    rw [hid]
    rw [hns] at href
    rcases List.mem_append.mp href with hold | hdrawn
    · -- an old reference resolves as before
      have hmem : (Val.str ref, p.1) ∈ t.evidence.filter (fun e => e.1 = .str ref) := by
        rw [ht.refs p hp ref hold]
        exact List.mem_cons_self
      exact List.mem_append_left _ (List.mem_filter.mp hmem).1
    · obtain ⟨n, hn, rfl⟩ := List.mem_map.mp hdrawn
      obtain ⟨taskId, htask, hmem⟩ := hgained n hn
      rw [htask]
      exact List.mem_append_right _ (List.mem_map.mpr ⟨(n, taskId), hmem, rfl⟩)
  · obtain ⟨ns, hns, heq⟩ := h.leases
    rw [heq]
    exact Drawn.nodup_append_serials ht.leases hns hunused.leases
  · obtain ⟨ns, hns, heq⟩ := h.txns
    rw [heq]
    exact Drawn.nodup_append_serials ht.txns hns hunused.txns
  · obtain ⟨ns, hns, heq⟩ := h.blockers
    rw [heq]
    exact Drawn.nodup_append_serials ht.blockers hns hunused.blockers

/-! ### Statements that draw no id -/

/-- An assignment to fields other than the id and the references of the entry of a task. -/
lemma ids_setTask (L : Ledger) (taskId : String) {f : TaskEntry → TaskEntry}
    (hf : ∀ e, ((f e).taskId, (f e).evidenceRefs) = (e.taskId, e.evidenceRefs)) :
    (L.setTask taskId f).ids = L.ids :=
  (IdTrace.mk.injEq ..).mpr ⟨rfl, rfl, rfl, rfl, map_updateFirst _ _ _ hf _⟩

lemma ids_setStatus (L : Ledger) (taskId : String) (status : TaskStatus) :
    (L.setStatus taskId status).ids = L.ids := ids_setTask L taskId fun _ => rfl

/-- An assignment to a field of the record appended last leaves the ids. -/
lemma map_updateLast {α β : Type} {f : α → α} {g : α → β} (h : ∀ x, g (f x) = g x) (l : List α) :
    (updateLast f l).map g = l.map g := by
  induction l using updateLast.induct with
  | case1 => rfl
  | case2 x => rw [updateLast, List.map_singleton, List.map_singleton, h]
  | case3 x y xs ih => rw [updateLast, List.map_cons, List.map_cons, ih]

lemma ids_setLease (L : Ledger) {f : Lease → Lease} (hf : ∀ l, (f l).leaseId = l.leaseId) :
    (L.setLease f).ids = L.ids :=
  (IdTrace.mk.injEq ..).mpr ⟨map_updateLast hf _, rfl, rfl, rfl, rfl⟩

lemma ids_setTxn (L : Ledger) {f : Txn → Txn} (hf : ∀ x, (f x).txnId = x.txnId) :
    (L.setTxn f).ids = L.ids :=
  (IdTrace.mk.injEq ..).mpr ⟨rfl, map_updateLast hf _, rfl, rfl, rfl⟩

lemma ids_reconcile (L : Ledger) : (reconcile L).ids = L.ids := rfl

/-- The entry of recorded evidence reads as its ids, where the evidence does not say otherwise. -/
lemma evidenceEntry_ids {evidenceId taskId : String} {evidence : Dict}
    (hid : ∀ p ∈ evidence, p.1 ≠ "evidence_id")
    (htask : ∀ p ∈ evidence, p.1 = "task_id" → p.2 = .str taskId) :
    ((evidenceEntry evidenceId taskId evidence).get "evidence_id",
      (evidenceEntry evidenceId taskId evidence).get "task_id") = (.str evidenceId,
      .str taskId) := by
  have hkeep : ∀ (e d : Dict) (key : String) (v : Val), d.lookup key = some v →
      (∀ p ∈ e, p.1 = key → p.2 = v) → (Dict.update d e).lookup key = some v := by
    intro e
    induction e with
    | nil => exact fun d key v hd _ => hd
    | cons p rest ih =>
        intro d key v hd hall
        refine ih _ key v ?_ fun q hq => hall q (List.mem_cons_of_mem _ hq)
        by_cases hp : p.1 = key
        · rw [← hall p List.mem_cons_self hp, ← hp]
          exact Dict.lookup_set_self _ _ _
        · rw [Dict.lookup_set_of_ne _ (Ne.symm hp), hd]
  have h1 := hkeep evidence [("evidence_id", .str evidenceId), ("task_id", .str taskId)]
    "evidence_id" (.str evidenceId) rfl fun p hp heq => absurd heq (hid p hp)
  have h2 := hkeep evidence [("evidence_id", .str evidenceId), ("task_id", .str taskId)]
    "task_id" (.str taskId) rfl htask
  rw [evidenceEntry, Dict.get, h1, Dict.get, h2]
  rfl

section Runtime

variable [PyRuntime]

lemma ids_logEvent (L : Ledger) (kind : EventKind) (taskId atTime : String) (paths : List String) :
    (L.logEvent kind taskId atTime paths).ids = L.ids := rfl

/-- Blocking a task adds the id of its blocker. -/
lemma ids_block (L : Ledger) (taskId reason blockerId atTime : String) (status : TaskStatus) :
    (L.block taskId reason blockerId atTime status).ids
      = { L.ids with blockers := L.ids.blockers ++ [blockerId] } := by
  let added := L.addBlocker ⟨blockerId, taskId, reason, "operator"⟩
  have hentry : (added.setTask taskId fun e => { e with
      blockedReason := some reason, decisionOwner := some "operator" }).ids = added.ids :=
    ids_setTask _ _ fun _ => rfl
  have hids : (L.block taskId reason blockerId atTime status).ids = added.ids :=
    (ids_setStatus _ taskId .blocked).trans hentry
  rw [hids]
  exact (IdTrace.mk.injEq ..).mpr ⟨rfl, rfl, List.map_append, rfl, rfl⟩

end Runtime

/-! ### A process and its ids -/

variable {W : Type}

/-- A host whose ids come from an `IdSource`: how many of a prefix it has given out.  The executor
has the source in its context and may draw from it too. -/
structure Sourced (h : Host W) where
  drawn : W → String → ℕ
  ids_eq : ∀ kind w, (h.ids kind w).1 = serial kind (drawn w kind + 1)
  ids_drawn : ∀ kind w k,
    drawn (h.ids kind w).2 k = if k = kind then drawn w k + 1 else drawn w k
  clock_le : ∀ w k, drawn w k ≤ drawn (h.clock w).2 k
  sleep_le : ∀ t w k, drawn w k ≤ drawn (h.sleep t w) k
  execute_le : ∀ node scope w k, drawn w k ≤ drawn (h.execute node scope w).2 k
  compensate_le : ∀ paths w k, drawn w k ≤ drawn (h.compensate paths w).2 k
  control_le : ∀ w k, drawn w k ≤ drawn (h.control w).2 k

variable {h : Host W} (S : Sourced h)

/-- What a call does to the ledger and the source: the ledger gains ids that are drawn. -/
def Sourced.Tracks (s s' : Session W) : Prop :=
  Draws (S.drawn s.world) (S.drawn s'.world) s.ledger.ids s'.ledger.ids

lemma Sourced.tracks_bind {α β : Type} {m : Loop W α} {f : α → Loop W β}
    (hm : Call.Moves S.Tracks m) (hf : ∀ a, Call.Moves S.Tracks (f a)) :
    Call.Moves S.Tracks (m >>= f) := Call.Moves.bind (fun h1 h2 => h1.trans h2) hm hf

/-- An id is drawn and recorded. -/
lemma Sourced.tracks_draw {α : Type} (kind : String) {f : String → Ledger → Ledger}
    (hf : ∀ w L, Draws (S.drawn w) (S.drawn (h.ids kind w).2) L.ids (f (h.ids kind w).1 L).ids)
    {k : String → Unit → Loop W α} (hk : ∀ id u, Call.Moves S.Tracks (k id u)) :
    Call.Moves S.Tracks (Loop.ids h kind >>= fun id => Loop.update (f id) >>= k id) := by
  intro s
  rw [Loop.bind_ids, Loop.bind_update]
  exact (hf s.world s.ledger).trans (hk _ ()
    ⟨f (h.ids kind s.world).1 s.ledger, (h.ids kind s.world).2, s.effects⟩)

/-- A call that leaves the ids of the ledger. -/
lemma Sourced.tracks_quiet {α : Type} {m : Loop W α} (hids : ∀ s, (m s).2.ledger.ids = s.ledger.ids)
    (hdrawn : ∀ s k, S.drawn s.world k ≤ S.drawn (m s).2.world k) : Call.Moves S.Tracks m := by
  intro s
  have hsame := Draws.same (hdrawn s) s.ledger.ids
  rwa [Sourced.Tracks, hids s]

lemma Sourced.tracks_update {f : Ledger → Ledger} (hf : ∀ L, (f L).ids = L.ids) :
    Call.Moves S.Tracks (Loop.update f : Loop W Unit) :=
  S.tracks_quiet (fun s => hf s.ledger) fun _ _ => le_refl _

lemma Sourced.tracks_clock : Call.Moves S.Tracks (Loop.clock h) :=
  S.tracks_quiet (fun _ => rfl) fun s k => S.clock_le s.world k

lemma Sourced.tracks_return {α : Type} (a : α) : Call.Moves S.Tracks (pure a : Loop W α) :=
  S.tracks_quiet (fun _ => rfl) fun _ _ => le_refl _

lemma Sourced.tracks_ledger : Call.Moves S.Tracks (Loop.ledger : Loop W Ledger) :=
  S.tracks_quiet (fun _ => rfl) fun _ _ => le_refl _

lemma Sourced.drawn_mono (kind : String) (w : W) (k : String) :
    S.drawn w k ≤ S.drawn (h.ids kind w).2 k := by
  rw [S.ids_drawn]
  split_ifs <;> omega

/-- The id a call draws is the next one. -/
lemma Sourced.draws_next (kind : String) (w : W) (xs : List String) :
    ∃ ns, Drawn (S.drawn w kind) (S.drawn (h.ids kind w).2 kind) ns
      ∧ xs ++ [(h.ids kind w).1] = xs ++ ns.map (serial kind) := by
  refine ⟨[S.drawn w kind + 1], ?_, by rw [S.ids_eq]; rfl⟩
  rw [S.ids_drawn, if_pos rfl]
  exact Drawn.next _

section Runtime

variable [PyRuntime]

/-! ### One task -/

/-- The evidence of a success carries no `evidence_id`, and no `task_id` but that of its task. -/
def Host.Bare (h : Host W) : Prop :=
  ∀ node scope w result evidence, (h.execute node scope w).1 = .ok result →
    result.outcome = .success → result.evidence = some evidence →
      (∀ p ∈ evidence, p.1 ≠ "evidence_id")
        ∧ ∀ p ∈ evidence, p.1 = "task_id" → p.2 = .str node.taskId.pyStr

lemma Sourced.tracks_escalate (taskId reason blockedAt : String) :
    Call.Moves S.Tracks (escalate h taskId reason blockedAt) := by
  intro s
  have hmono := S.drawn_mono "B" s.world
  rw [Sourced.Tracks, escalate, Loop.bind_ids, Loop.update_apply, ids_block]
  exact ⟨hmono, Draws.skip hmono _ _, Draws.skip hmono _ _, S.draws_next "B" s.world _,
    Draws.skipEvidence hmono s.ledger.ids⟩

lemma Sourced.tracks_logEdits (taskId : String) (paths : List String) :
    Call.Moves S.Tracks (logEdits h taskId paths) := by
  induction paths with
  | nil => exact S.tracks_return ()
  | cons path rest ih =>
      refine S.tracks_bind S.tracks_clock fun atTime => ?_
      exact S.tracks_bind (S.tracks_update fun L => ids_logEvent L _ _ _ _) fun _ => ih

omit [PyRuntime] in
/-- Recorded evidence and its reference are drawn together. -/
lemma Sourced.tracks_recordEvidence {taskId : String} {evidence : Option Dict}
    (hbare : ∀ ev, evidence = some ev → (∀ p ∈ ev, p.1 ≠ "evidence_id")
      ∧ ∀ p ∈ ev, p.1 = "task_id" → p.2 = .str taskId) :
    Call.Moves S.Tracks (recordEvidence h taskId evidence) := by
  cases evidence with
  | none => exact S.tracks_return ()
  | some ev =>
      intro s
      obtain ⟨hid, htask⟩ := hbare ev rfl
      have hmono := S.drawn_mono "EV" s.world
      have hnext := S.draws_next "EV" s.world
      rw [Sourced.Tracks, recordEvidence, Loop.bind_ids, Loop.bind_update, Loop.update_apply]
      refine ⟨hmono, Draws.skip hmono _ _, Draws.skip hmono _ _, Draws.skip hmono _ _,
        [(S.drawn s.world "EV" + 1, taskId)], ?_, ?_, ?_⟩
      · rw [List.map_singleton, S.ids_drawn, if_pos rfl]
        exact Drawn.next _
      · have hentry := @evidenceEntry_ids (h.ids "EV" s.world).1 taskId ev hid htask
        have hadded : ∀ d : Dict, (s.ledger.executionEvidence ++ [d]).map
            (fun d => (d.get "evidence_id", d.get "task_id"))
            = s.ledger.ids.evidence ++ [(d.get "evidence_id", d.get "task_id")] :=
          fun d => List.map_append
        refine (hadded _).trans ?_
        rw [hentry, S.ids_eq]
        rfl
      · have hgain : ∀ l : List TaskEntry, List.Forall₂
            (GainsRefs [(S.drawn s.world "EV" + 1, taskId)])
            (l.map fun e => (e.taskId, e.evidenceRefs))
            ((updateFirst (·.named taskId) (fun e => { e with
              evidenceRefs := e.evidenceRefs ++ [(h.ids "EV" s.world).1]
              acceptance := { e.acceptance with result := .pass } }) l).map
                fun e => (e.taskId, e.evidenceRefs)) := by
          intro l
          induction l with
          | nil => exact .nil
          | cons e rest ih =>
              rw [updateFirst]
              split_ifs with hnamed
              · refine .cons ⟨rfl, [S.drawn s.world "EV" + 1], by rw [S.ids_eq]; rfl, ?_⟩
                  (List.forall₂_same.mpr fun p _ => gainsRefs_self _ p)
                intro n hn
                rw [List.mem_singleton.mp hn]
                exact ⟨taskId, by simpa [TaskEntry.named] using hnamed, List.mem_cons_self⟩
              · exact .cons (gainsRefs_self _ _) ih
        exact hgain s.ledger.taskLedger

lemma Sourced.tracks_settleSuccess {taskId : String} {result : ExecutorResult}
    (hbare : ∀ ev, result.evidence = some ev → (∀ p ∈ ev, p.1 ≠ "evidence_id")
      ∧ ∀ p ∈ ev, p.1 = "task_id" → p.2 = .str taskId) :
    Call.Moves S.Tracks (settleSuccess h taskId result) := by
  refine S.tracks_bind (S.tracks_logEdits _ _) fun _ =>
    S.tracks_bind (S.tracks_recordEvidence hbare) fun _ => S.tracks_bind S.tracks_clock fun _ => ?_
  refine S.tracks_bind (S.tracks_update fun L => ids_setStatus L _ _) fun _ =>
    S.tracks_bind (S.tracks_update fun L => rfl) fun _ =>
    S.tracks_bind (S.tracks_update fun L => rfl) fun _ => ?_
  exact S.tracks_update fun L => ids_setTxn L fun _ => rfl

lemma Sourced.tracks_settleFailure (taskId : String) (result : ExecutorResult) :
    Call.Moves S.Tracks (settleFailure h taskId result) := by
  have hblock : Call.Moves S.Tracks (do
      let blockedAt ← Loop.clock h
      escalate h taskId (failureReason result) blockedAt) :=
    S.tracks_bind S.tracks_clock fun _ => S.tracks_escalate _ _ _
  rw [settleFailure]
  split_ifs
  · have hcompensate : Call.Moves S.Tracks (Loop.compensate h result.touchedPaths) :=
      S.tracks_quiet (fun _ => rfl) fun s k => S.compensate_le _ s.world k
    refine S.tracks_bind hcompensate fun _ => S.tracks_bind S.tracks_clock fun _ =>
      S.tracks_bind (S.tracks_update fun L => rfl) fun _ => ?_
    exact S.tracks_bind (S.tracks_update fun L => ids_setTxn L fun _ => rfl) fun _ => hblock
  · exact hblock

lemma Sourced.tracks_beginTask (taskId acquiredAt : String) :
    Call.Moves S.Tracks (beginTask h taskId acquiredAt) := by
  refine S.tracks_draw "L" (fun w L => ?_) fun _ _ => S.tracks_draw "TX" (fun w L => ?_) fun _ _ =>
    ?_
  · have hmono := S.drawn_mono "L" w
    have hlease : (L.addLease ⟨(h.ids "L" w).1, taskId, agentId, .str acquiredAt, .none, .none⟩).ids
        = { L.ids with leases := L.ids.leases ++ [(h.ids "L" w).1] } :=
      (IdTrace.mk.injEq ..).mpr ⟨List.map_append, rfl, rfl, rfl, rfl⟩
    rw [hlease]
    exact ⟨hmono, S.draws_next "L" w _, Draws.skip hmono _ _, Draws.skip hmono _ _,
      Draws.skipEvidence hmono L.ids⟩
  · have hmono := S.drawn_mono "TX" w
    have htxn : (L.addTxn ⟨(h.ids "TX" w).1, taskId, "execute", "revert", executeKey taskId,
        .pending, 600, none⟩).ids = { L.ids with txns := L.ids.txns ++ [(h.ids "TX" w).1] } :=
      (IdTrace.mk.injEq ..).mpr ⟨rfl, List.map_append, rfl, rfl, rfl⟩
    rw [htxn]
    exact ⟨hmono, Draws.skip hmono _ _, S.draws_next "TX" w _, Draws.skip hmono _ _,
      Draws.skipEvidence hmono L.ids⟩
  · exact S.tracks_bind S.tracks_clock fun _ =>
      S.tracks_bind (S.tracks_update fun L => ids_setStatus L _ _) fun _ =>
      S.tracks_bind (S.tracks_update fun L => rfl) fun _ => S.tracks_update fun L => rfl

variable (cfg : RunConfig)

lemma Sourced.tracks_retry (node : TaskNode) (scope : Dict) (left attempt : ℕ) :
    Call.Moves S.Tracks (executeWithRetry h cfg node scope left attempt) := by
  have hexecute : Call.Moves S.Tracks (Loop.execute h node scope) :=
    S.tracks_quiet (fun _ => rfl) fun s k => S.execute_le _ _ s.world k
  have hsleep : ∀ t, Call.Moves S.Tracks (Loop.sleep h t) := fun t =>
    S.tracks_quiet (fun _ => rfl) fun s k => S.sleep_le _ s.world k
  induction left generalizing attempt with
  | zero =>
      rw [executeWithRetry]
      refine S.tracks_bind hexecute fun result => ?_
      by_cases hsuccess : result.outcome = .success
      · rw [if_pos hsuccess]
        exact S.tracks_return _
      · rw [if_neg hsuccess]
        exact S.tracks_return _
  | succ left ih =>
      rw [executeWithRetry]
      refine S.tracks_bind hexecute fun result => ?_
      split_ifs
      · exact S.tracks_return _
      · exact S.tracks_bind (hsleep _) fun _ => ih _
      · exact S.tracks_return _

lemma Sourced.tracks_executeTask (hbare : h.Bare) (node : TaskNode) :
    Call.Moves S.Tracks (executeTask h cfg node node.taskId.pyStr) := by
  intro s
  rw [executeTask, Loop.bind_ledger, Call.bind_apply]
  have hretry := S.tracks_retry cfg node s.ledger.isolationScope cfg.maxRetries 1 s
  rcases hrun : executeWithRetry h cfg node s.ledger.isolationScope cfg.maxRetries 1 s
    with ⟨e | ⟨result, attempts⟩, s₁⟩
  · rwa [hrun] at hretry
  · rw [hrun] at hretry
    obtain ⟨w, hresult⟩ := executeWithRetry_result h cfg hrun
    have hrelease : Call.Moves S.Tracks (do
        let releasedAt ← Loop.clock h
        Loop.update (·.setLease ({ · with releasedAt := .str releasedAt })) : Loop W Unit) :=
      S.tracks_bind S.tracks_clock fun _ => S.tracks_update fun L => ids_setLease L fun _ => rfl
    have hrest : Call.Moves S.Tracks (do
        Loop.update (·.setTxn ({ · with attempts := some attempts }))
        if result.outcome = .success then settleSuccess h node.taskId.pyStr result
        else settleFailure h node.taskId.pyStr result
        let releasedAt ← Loop.clock h
        Loop.update (·.setLease ({ · with releasedAt := .str releasedAt })) : Loop W Unit) := by
      refine S.tracks_bind (S.tracks_update fun L => ids_setTxn L fun _ => rfl) fun _ => ?_
      split_ifs with hsuccess
      · have hbare' : ∀ ev, result.evidence = some ev → (∀ p ∈ ev, p.1 ≠ "evidence_id")
            ∧ ∀ p ∈ ev, p.1 = "task_id" → p.2 = .str node.taskId.pyStr :=
          fun ev hev => hbare node _ w result ev hresult hsuccess hev
        exact S.tracks_bind (S.tracks_settleSuccess hbare') fun _ => hrelease
      · exact S.tracks_bind (S.tracks_settleFailure _ _) fun _ => hrelease
    exact Draws.trans hretry (hrest s₁)

lemma Sourced.tracks_runTask (hbare : h.Bare) (node : TaskNode) :
    Call.Moves S.Tracks (runTask h cfg node) := by
  rw [runTask]
  refine S.tracks_bind S.tracks_ledger fun L => ?_
  split_ifs
  · exact S.tracks_return _
  · refine S.tracks_bind S.tracks_clock fun acquiredAt => S.tracks_bind S.tracks_ledger fun L => ?_
    split_ifs
    · exact S.tracks_bind (S.tracks_escalate _ _ _) fun _ => S.tracks_return _
    · exact S.tracks_bind (S.tracks_beginTask _ _) fun _ => S.tracks_executeTask cfg hbare node

lemma Sourced.tracks_blockUnmetDeps (node : TaskNode) :
    Call.Moves S.Tracks (blockUnmetDeps h node) := by
  intro s
  have hmono := S.drawn_mono "B" s.world
  have hclock := S.clock_le (h.ids "B" s.world).2
  have hdraw : Draws (S.drawn s.world) (S.drawn (h.ids "B" s.world).2) s.ledger.ids
      { s.ledger.ids with blockers := s.ledger.ids.blockers ++ [(h.ids "B" s.world).1] } :=
    ⟨hmono, Draws.skip hmono _ _, Draws.skip hmono _ _, S.draws_next "B" s.world _,
      Draws.skipEvidence hmono s.ledger.ids⟩
  rw [Sourced.Tracks, blockUnmetDeps, Loop.bind_ids, Loop.bind_clock, Loop.update_apply, ids_block]
  exact hdraw.trans (Draws.same hclock _)

omit [PyRuntime] in
lemma Sourced.tracks_taskStatus (taskId : String) :
    Call.Moves S.Tracks (taskStatus taskId : Loop W TaskStatus) := by
  rw [taskStatus]
  refine S.tracks_bind S.tracks_ledger fun L => ?_
  split
  · exact S.tracks_return _
  · exact S.tracks_quiet (fun _ => rfl) fun _ _ => le_refl _

lemma Sourced.tracks_turn (hbare : h.Bare) (node : TaskNode) (taskId : String)
    (completed : List String) : Call.Moves S.Tracks (turn h cfg node taskId completed) := by
  rw [turn]
  split_ifs
  · refine S.tracks_bind (S.tracks_runTask cfg hbare node) fun _ =>
      S.tracks_bind (S.tracks_taskStatus taskId) fun status => ?_
    split_ifs
    · exact S.tracks_return _
    · exact S.tracks_return _
  · exact S.tracks_bind (S.tracks_blockUnmetDeps node) fun _ => S.tracks_return _

lemma Sourced.tracks_driveLoop (hbare : h.Bare) (graph : List TaskNode)
    (order completed : List String) :
    Call.Moves S.Tracks (driveLoop h cfg graph order completed) := by
  induction order generalizing completed with
  | nil => exact S.tracks_return _
  | cons taskId rest ih =>
      have hcontrol : Call.Moves S.Tracks (Loop.control h) :=
        S.tracks_quiet (fun _ => rfl) fun s k => S.control_le s.world k
      rw [driveLoop]
      refine S.tracks_bind (S.tracks_taskStatus taskId) fun status => ?_
      split_ifs
      · exact ih _
      · refine S.tracks_bind hcontrol fun answer => ?_
        cases answer with
        | aborted => exact S.tracks_return _
        | paused => exact S.tracks_return _
        | running =>
            dsimp only
            split
            · exact S.tracks_quiet (fun _ => rfl) fun _ _ => le_refl _
            · exact S.tracks_bind (S.tracks_turn cfg hbare _ _ _) fun _ => ih _

/-- **What a drive does**: it draws the ids the ledger gains. -/
theorem Sourced.tracks_drive (hbare : h.Bare) (manifest : Manifest) (completed : List String) :
    Call.Moves S.Tracks (drive h cfg manifest completed) := by
  have hexcept : ∀ {α : Type} (x : Except PyErr α),
      Call.Moves S.Tracks (Call.ofExcept x : Loop W α) := fun x =>
    S.tracks_quiet (fun _ => rfl) fun _ _ => le_refl _
  rw [drive]
  refine S.tracks_bind (hexcept _) fun order =>
    S.tracks_bind (S.tracks_driveLoop cfg hbare _ _ _) fun state =>
    S.tracks_bind (S.tracks_update fun L => rfl) fun _ =>
    S.tracks_bind (S.tracks_update ids_reconcile) fun _ =>
    S.tracks_bind S.tracks_ledger fun ledger =>
    S.tracks_bind (hexcept _) fun gate => S.tracks_return _

/-! ### Histories of processes -/

/-- What is asked of the hosts of a history, and of a resume: of the ledger it is given and of the
numbers it takes from its source. -/
structure ProcessRule where
  hosts : ∀ {W : Type}, Host W → Prop
  resumes : Ledger → (String → ℕ) → Prop

/-- Nothing is asked. -/
def anyProcess : ProcessRule := ⟨fun _ => True, fun _ _ => True⟩

/-- Evidence is bare, and a resume takes no id its ledger holds. -/
def unusedIds : ProcessRule := ⟨Host.Bare, fun L taken => Unused taken L.ids⟩

/-- The ledgers reached by a `run`, then `resume`s and `resolve_blocker`s, each run and resume with
an `IdSource` of its own that has given out nothing. -/
inductive ProcessHistory (rule : ProcessRule) : Ledger → Prop
  | run {W : Type} {h : Host W} (S : Sourced h) {cfg : RunConfig} {manifest : Manifest} {w w' : W}
      {res : RunResult} {fx : List Effect} : rule.hosts h → (∀ kind, S.drawn w kind = 0) →
      run h cfg manifest w = (.ok res, w', fx) → ProcessHistory rule res.ledger
  | resume {W : Type} {h : Host W} (S : Sourced h) {cfg : RunConfig} {manifest : Manifest}
      {s : Session W} : rule.hosts h → (∀ kind, S.drawn s.world kind = 0) →
      rule.resumes s.ledger (S.drawn (resume h cfg manifest s).2.world) →
      ProcessHistory rule s.ledger → ProcessHistory rule (resume h cfg manifest s).2.ledger
  | resolve {L L' : Ledger} {blockerId decision atTime : String} {actor : Actor} :
      ProcessHistory rule L → resolveBlocker L blockerId decision actor atTime = .ok L' →
      ProcessHistory rule L'

/-- A new ledger holds no ids. -/
lemma startLedger_traceable {manifest : Manifest} {L : Ledger} (h : startLedger manifest = .ok L)
    (taken : String → ℕ) : L.ids.Traceable ∧ Unused taken L.ids := by
  have hnew := startLedger_new h
  have hleases : L.ids.leases = [] := by rw [Ledger.ids, hnew.leases]; rfl
  have htxns : L.ids.txns = [] := by rw [Ledger.ids, hnew.journal]; rfl
  have hblockers : L.ids.blockers = [] := by rw [Ledger.ids, hnew.blockers]; rfl
  have hevidence : L.ids.evidence = [] := by rw [Ledger.ids, hnew.evidence]; rfl
  have hrefs : ∀ p ∈ L.ids.refs, p.2 = [] := by
    intro p hp
    obtain ⟨e, he, rfl⟩ := List.mem_map.mp hp
    obtain ⟨t, -, criteria, rfl⟩ := exists_of_forall₂ (startLedger_initial h) he
    rfl
  refine ⟨⟨fun p hp ref href => ?_, ?_, ?_, ?_, ?_⟩, ⟨?_, ?_, ?_, ?_⟩⟩
  · rw [hrefs p hp] at href
    cases href
  all_goals simp [hleases, htxns, hblockers, hevidence]

/-- A decision adds no id, and an override removes blockers only. -/
lemma traceable_resolve {L L' : Ledger} {blockerId decision atTime : String} {actor : Actor}
    (hres : resolveBlocker L blockerId decision actor atTime = .ok L') (hL : L.ids.Traceable) :
    L'.ids.Traceable := by
  obtain ⟨resolution, subject, ⟨rfl, -⟩ | ⟨-, b, -, rfl⟩⟩ := resolveBlocker_cases hres
  · exact hL
  · have hrefs : (L.override b).ids.refs = L.ids.refs := by
      rw [Ledger.ids, Ledger.override, List.map_map]
      refine List.map_congr_left fun e _ => ?_
      rw [Function.comp_apply]
      split_ifs
      · rfl
      · rfl
    have hblockers : (L.override b).ids.blockers.Sublist L.ids.blockers :=
      List.filter_sublist.map _
    exact ⟨fun p hp => hL.refs p (hrefs ▸ hp), hL.evidence, hL.leases, hL.txns,
      hL.blockers.sublist hblockers⟩

/-- **Evidence is traceable over the histories whose evidence is bare and whose resumes take no id
their ledger holds.** -/
theorem evidence_traceable {L : Ledger} (hL : ProcessHistory unusedIds L) : L.ids.Traceable := by
  induction hL with
  | @run W h S cfg manifest w w' res fx hbare hfresh hrun =>
      have hzero : S.drawn w = fun _ => 0 := funext hfresh
      rw [run] at hrun
      cases hstart : startLedger manifest with
      | error e =>
          rw [hstart] at hrun
          cases hrun
      | ok L₀ =>
          rw [hstart] at hrun
          have htracks := S.tracks_drive cfg hbare manifest [] ⟨L₀, w, []⟩
          obtain ⟨r, state, L', gx, w₂, -, hexec, hres⟩ := drive_spec h cfg manifest [] ⟨L₀, w, []⟩
          rw [hexec] at htracks
          simp only [hexec, Prod.mk.injEq] at hrun
          obtain ⟨rfl, -, -⟩ := hrun
          rw [(hres res rfl).1]
          rw [Sourced.Tracks, hzero] at htracks
          obtain ⟨hnew, hunused⟩ := startLedger_traceable hstart (S.drawn w₂)
          exact htracks.traceable hunused hnew
  | @resume W h S cfg manifest s hbare hfresh hunused _ ih =>
      have hzero : S.drawn s.world = fun _ => 0 := funext hfresh
      have htracks := S.tracks_drive cfg hbare manifest (completedIds s.ledger)
        { s with ledger := s.ledger.setRunState .running }
      rw [Sourced.Tracks, hzero] at htracks
      exact htracks.traceable hunused ih
  | resolve _ hres ih => exact traceable_resolve hres ih

end Runtime

section Example

attribute [local instance] cpython

/-- A scripted host draws from its counters. -/
def mockSourced (outcomes : List (String × MockSpec)) (now : String) :
    Sourced (mockHost outcomes now) where
  drawn w kind := (w.counters.lookup kind).getD 0
  ids_eq _ _ := rfl
  ids_drawn kind w k := by
    have hothers : ∀ counters : IdCounters, k ≠ kind →
        (counters.filter (·.1 != kind)).lookup k = counters.lookup k := by
      intro counters hk
      induction counters with
      | nil => rfl
      | cons p rest ih =>
          by_cases hp : p.1 = kind
          · rw [List.filter_cons_of_neg (by simpa using hp), ih, List.lookup_cons,
              show (k == p.1) = false by simpa [hp] using hk]
          · rw [List.filter_cons_of_pos (by simpa using hp), List.lookup_cons, List.lookup_cons, ih]
    change (List.lookup k ((kind, _) :: w.counters.filter (·.1 != kind))).getD 0 = _
    rw [List.lookup_cons]
    by_cases hk : k = kind
    · rw [if_pos hk, hk, beq_self_eq_true]
      rfl
    · rw [if_neg hk, beq_false_of_ne hk, hothers _ hk]
  clock_le _ _ := le_refl _
  sleep_le _ _ _ := le_refl _
  execute_le node scope w k := by
    have hcounters : ((mockHost outcomes now).execute node scope w).2.counters = w.counters := by
      change (mockExecute outcomes node w).2.counters = w.counters
      rw [mockExecute]
      dsimp only
      split
      · rfl
      · rfl
      · split
        · rfl
        · rfl
    rw [hcounters]
  compensate_le _ _ _ := le_refl _
  control_le _ _ := le_refl _

/-- A success with evidence. -/
def proven : ExecutorResult := ⟨.success, [], some [("kind", .str "test")], none, false⟩

/-- Both tasks succeed with evidence. -/
def bothProven : List (String × MockSpec) := [("T1", .always proven), ("T2", .always proven)]

/-- Two tasks. -/
def provenTasks : Manifest := scriptManifest [("T1", []), ("T2", [])]

lemma bothProven_bare : (mockHost bothProven scriptNow).Bare := by
  intro node scope w result evidence hexecute _ hevidence
  have hlookup : ∀ t, bothProven.lookup t = none ∨ bothProven.lookup t = some (.always proven) := by
    intro t
    rw [bothProven, List.lookup_cons, List.lookup_cons]
    split
    · exact Or.inr rfl
    · split
      · exact Or.inr rfl
      · exact Or.inl rfl
  change (mockExecute bothProven node w).1 = .ok result at hexecute
  rw [mockExecute] at hexecute
  rcases hlookup node.taskId.pyStr with hnone | hsome
  · simp only [hnone] at hexecute
    cases hexecute
    cases hevidence
  · simp only [hsome] at hexecute
    cases hexecute
    cases hevidence
    simp

/-- A scripted run, as a process. -/
lemma playRun_process {rule : ProcessRule} {answers : List ControlAnswer} {L : Ledger}
    (hhost : rule.hosts (mockHost bothProven scriptNow))
    (hplay : playRun (fun _ _ => true) provenTasks bothProven answers [] = some L) :
    ProcessHistory rule L := by
  obtain ⟨res, w', fx, hrun, hend⟩ := playRun_run (scriptManifest_roots _) hplay
  obtain rfl : res.ledger = L := Option.some.inj hend
  exact .run (mockSourced bothProven scriptNow) hhost (fun _ => rfl) hrun

/-- A run that pauses before its first task, and the resume that completes both. -/
theorem evidence_traceable_of_pause :
    ∃ L, ProcessHistory unusedIds L
      ∧ L.ids.refs = [(.str "T1", ["EV1"]), (.str "T2", ["EV2"])] ∧ L.ids.Traceable := by
  obtain ⟨L₁, hL₁, hview⟩ : ∃ L₁,
    playRun (fun _ _ => true) provenTasks bothProven [.paused] [] = some L₁
      ∧ decide ((L₁.ids.leases = [] ∧ L₁.ids.txns = [] ∧ L₁.ids.blockers = []
        ∧ L₁.ids.evidence = [])
        ∧ (driveSession (mockHost bothProven scriptNow) scriptConfig provenTasks (completedIds L₁)
            ⟨L₁.setRunState .running, .fresh [], []⟩).2.ledger.ids.refs
          = [(.str "T1", ["EV1"]), (.str "T2", ["EV2"])]) = true := by
    refine (Option.any_eq_true _ _).mp ?_
    decide +kernel
  obtain ⟨⟨hleases, htxns, hblockers, hevidence⟩, hrefs⟩ := of_decide_eq_true hview
  have hunused : ∀ taken, Unused taken L₁.ids := fun taken => by
    refine ⟨?_, ?_, ?_, ?_⟩
    all_goals simp [hleases, htxns, hblockers, hevidence]
  have hL : ProcessHistory unusedIds
    (resume (mockHost bothProven scriptNow) scriptConfig provenTasks
      ⟨L₁, .fresh [], []⟩).2.ledger :=
    .resume (mockSourced bothProven scriptNow) bothProven_bare (fun _ => rfl) (hunused _)
      (playRun_process bothProven_bare hL₁)
  refine ⟨_, hL, ?_, evidence_traceable hL⟩
  rw [resume_snd]
  exact hrefs

/-- **The ids of a resume are those of the run**: both tasks refer to `EV1`, and hold a lease
`L1`. -/
theorem evidence_not_traceable : ¬ ∀ L, ProcessHistory anyProcess L → L.ids.Traceable := by
  intro h
  obtain ⟨L₁, hL₁, hview⟩ : ∃ L₁,
      playRun (fun _ _ => true) provenTasks bothProven [.running, .paused] [] = some L₁
      ∧ decide ((driveSession (mockHost bothProven scriptNow) scriptConfig provenTasks
        (completedIds L₁)
            ⟨L₁.setRunState .running, .fresh [], []⟩).2.ledger.ids.leases = ["L1",
              "L1"]) = true := by
    refine (Option.any_eq_true _ _).mp ?_
    decide +kernel
  have hL : ProcessHistory anyProcess
    (resume (mockHost bothProven scriptNow) scriptConfig provenTasks
      ⟨L₁, .fresh [], []⟩).2.ledger :=
    .resume (mockSourced bothProven scriptNow) trivial (fun _ => rfl) trivial
      (playRun_process trivial hL₁)
  have hleases := (h _ hL).leases
  rw [resume_snd, of_decide_eq_true hview] at hleases
  exact absurd hleases (by decide)

end Example

end IplanRunner
