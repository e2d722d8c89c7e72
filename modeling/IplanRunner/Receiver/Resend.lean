import IplanRunner.Receiver.Settled
import IplanRunner.Runs.AppendOnly

/-!
What can be sent again of the events of all workers over a store.

* `Resendable`: the ledger and the identity stored under an id project to the event.
* `savesOnce`: the contract of a worker: it saves the ledger of its engine, then its own identity
  under the id of that ledger, each once.
* `Overwrites`, `Forgets`: the steps that lose events.
* `no_event_lost`: without them, every projected event is settled or can be sent again.
-/

namespace IplanRunner

open Foundation

section Runtime

variable [PyRuntime]

/-! ### An operator's sync -/

/-- `load`, of what is stored: a log that is no chain raises. -/
def loadDoc (data : Val) : Option Val :=
  let ledger := match data with | .dict kvs => .dict kvs | _ => .dict []
  match ledger.get "execution_log" (.list []) >>= Val.iter >>= verifyChain with
  | .ok true => some ledger
  | _ => none

/-- `to_execution_events(ledger, identity, key=key, key_id=resolved_key_id)`, as a sync projects. -/
def resyncEvents (deps : ReceiverDeps) (ledger : Val) (identity : Dict) :
    Except PyErr (List Dict) :=
  toExecutionEvents ledger identity deps.key
    ((optStr deps.keyId).orElse ((identity.get "executor_id").orElse (.str "default")))

/-- What is stored under the id loads, and projects to the event. -/
def Resendable (deps : ReceiverDeps) (s : RelayState) (ledgerId : String) (event : Dict) : Prop :=
  ∃ ledger identity events, (s.ledgers ledgerId).bind loadDoc = some ledger
    ∧ loadIdentity s.db ledgerId = some identity
    ∧ resyncEvents deps ledger identity = .ok events ∧ event ∈ events

/-- The ledger of a run loads as it was saved. -/
lemma loadDoc_toDoc {L : Ledger} (h : Chained L.executionLog) : loadDoc L.toDoc = some L.toDoc := by
  have hlog : L.toDoc.get "execution_log" (.list []) = .ok (.list L.logDoc) := rfl
  have hiter : (Val.list L.logDoc).iter = .ok L.logDoc := rfl
  have hverified : verifyChain L.logDoc = .ok true := (verifyChain_toVal _).mpr h
  have hdict : ∃ kvs, L.toDoc = .dict kvs := ⟨_, rfl⟩
  obtain ⟨kvs, hkvs⟩ := hdict
  rw [hkvs] at hlog ⊢
  rw [loadDoc, hlog, ok_bind, hiter, ok_bind, hverified]

/-! ### What a worker stores -/

omit [PyRuntime] in
/-- The ledger id a call stores something under. -/
def RelayOp.storesUnder : RelayOp → Option String
  | .save ledger => some ledger.control.ledgerId
  | .saveIdentity ledgerId _ => some ledgerId
  | _ => none

/-- A routine that stores neither a ledger nor an identity. -/
abbrev Storeless {α : Type} (p : Relay α) : Prop := p.Only fun op => op.storesUnder = none

/-- A worker saves a ledger, and then its identity under the id of the ledger. -/
def savesOnce (job : RelayJob) : Contract Raised RelayOp RelayOp.Res where
  allowed past
    | .save ledger => Chained ledger.executionLog ∧ (∃ payload, job = .execute payload)
        ∧ ∀ x ∈ past, x.op.storesUnder = none
    | .saveIdentity ledgerId payload => job = .execute payload
        ∧ ∃ ledger : Ledger, ledger.control.ledgerId = ledgerId
          ∧ ⟨.save ledger, .ok ()⟩ ∈ past
          ∧ ∀ x ∈ past, x.op.storesUnder ≠ none → x = ⟨.save ledger, .ok ()⟩
    | _ => True
  expected x := ∀ manifest workspace ledger, x = ⟨.runEngine manifest workspace, .ok ledger⟩ →
    Chained ledger.executionLog

variable {deps : ReceiverDeps} {payload : Dict} {job : RelayJob} {past : List RelayExchange}

lemma savesOnce_of_storeless (past : List RelayExchange) (op : RelayOp)
    (h : op.storesUnder = none) :
    (savesOnce job).allowed past op := by
  cases op <;> first | exact trivial | cases h

/-- What stores nothing may be called at any time. -/
lemma Storeless.meets {α : Type} {p : Relay α} (h : Storeless p) :
    p.Meets (savesOnce job) past fun past' _ =>
      ∃ more, past' = past ++ more ∧ ∀ x ∈ more, x.op.storesUnder = none :=
  Routine.Only.meets h savesOnce_of_storeless

lemma storeless_drain (D : DrainJob) : Storeless (drain D) := by
  refine (only_drain D).mono fun op hop => ?_
  cases op <;> first | exact rfl | exact hop.elim

lemma storeless_provisionWorkspace (payload : Dict) (root : String) (runId taskId : Val) :
    Storeless (provisionWorkspace payload root runId taskId) := by
  refine (only_provisionWorkspace payload root runId taskId).mono fun op hop => ?_
  cases op <;> first | exact rfl | exact hop.elim

/-- **What a worker tries** saves the ledger of its engine and then its identity. -/
lemma meets_runAndDrain (runId taskId : Val) (hpast : ∀ x ∈ past, x.op.storesUnder = none) :
    (runAndDrain deps payload runId taskId).Meets (savesOnce (.execute payload)) past
      fun _ _ => True := by
  refine meets_pyLift_bind (fun _ => ?_) fun e => trivial
  refine (storeless_provisionWorkspace ..).meets.bind ?_ fun _ _ _ => trivial
  rintro past' workspace ⟨more, rfl, hmore⟩
  have hnone : ∀ x ∈ past ++ more, x.op.storesUnder = none :=
    List.forall_mem_append.mpr ⟨hpast, hmore⟩
  refine meets_pyLift_bind (fun adapted => ?_) fun e => trivial
  refine meets_pyLift_bind (fun manifest => ?_) fun e => trivial
  refine ⟨trivial, fun ran hran => ?_⟩
  cases ran with
  | error e => trivial
  | ok ledger =>
      have hnone' : ∀ x ∈ past ++ more ++ [⟨.runEngine manifest.toManifest workspace, .ok ledger⟩],
          x.op.storesUnder = none :=
        List.forall_mem_append.mpr ⟨hnone, by simp [RelayOp.storesUnder]⟩
      refine ⟨⟨hran _ _ _ rfl, ⟨payload, rfl⟩, hnone'⟩, fun saved _ => ?_⟩
      cases saved with
      | error e => trivial
      | ok _ =>
          refine ⟨⟨rfl, ledger, rfl, by simp, ?_⟩, fun identity _ => ?_⟩
          · rintro x hx hstores
            rcases List.mem_append.mp hx with hx | hx
            · exact absurd (hnone' x hx) hstores
            · exact List.mem_singleton.mp hx
          · cases identity with
            | error e => trivial
            | ok identity =>
                refine (storeless_drain _).meets.bind (fun _ _ _ => ?_) fun _ _ _ => ?_
                · trivial
                · trivial

variable [SqlText]

lemma meets_execute_stores (payload : Dict) :
    (execute deps payload).Meets (savesOnce (.execute payload)) [] fun _ _ => True := by
  refine meets_pyLift_bind (fun runId => ?_) fun e => trivial
  refine meets_pyLift_bind (fun taskId => ?_) fun e => trivial
  refine meets_pyLift_bind (fun key => ?_) fun e => trivial
  refine ⟨trivial, fun claimed _ => ?_⟩
  cases claimed with
  | error e => trivial
  | ok won =>
      cases won with
      | false => exact ⟨trivial, fun _ _ => trivial⟩
      | true =>
          refine ⟨trivial, fun started _ => ?_⟩
          cases started with
          | error e => trivial
          | ok _ =>
              have hclean : Storeless
                (cleanUp key (clonedWorkspace deps payload runId taskId)) := by
                refine (only_cleanUp key _).mono fun op hop => ?_
                cases op <;> first | exact rfl | exact hop.elim
              have hfailed : ∀ e, Storeless (settleFailed key e) := by
                intro e
                rw [settleFailed]
                split_ifs
                · exact Routine.Only.bind (Routine.only_perform rfl) fun _ =>
                    Routine.only_perform rfl
                · exact Routine.only_done _
              have hclaimed : ((runClaimed deps payload runId taskId key).handle
                  (settleFailed key)).Meets (savesOnce (.execute payload))
                    ([⟨.claimTask key, .ok true⟩] ++ [⟨.log (.runStart key), .ok ()⟩])
                    fun _ _ => True := by
                have htry : (runClaimed deps payload runId taskId key).Meets
                    (savesOnce (.execute payload))
                    ([⟨.claimTask key, .ok true⟩] ++ [⟨.log (.runStart key), .ok ()⟩])
                    fun _ _ => True := by
                  refine (meets_runAndDrain runId taskId (by simp [RelayOp.storesUnder])).bind
                    (fun past' r _ => ⟨trivial, fun settled _ => ?_⟩) fun _ _ _ => trivial
                  cases settled with
                  | error e => trivial
                  | ok _ => exact ⟨trivial, fun _ _ => trivial⟩
                refine htry.handle (fun _ _ _ => trivial) fun past' e _ => ?_
                exact (hfailed e).meets.mono fun _ _ _ _ => trivial
              refine hclaimed.finallyDo fun past' out _ => ?_
              exact hclean.meets.mono fun _ _ _ _ => ⟨trivial, fun _ _ => trivial⟩

/-- **Every thread keeps to it.** -/
theorem meets_savesOnce (deps : ReceiverDeps) (job : RelayJob) :
    (jobBody deps job).Meets (savesOnce job) [] fun _ _ => True := by
  have hother : ∀ {p : Relay Unit}, Storeless p → p.Meets (savesOnce job) [] fun _ _ => True :=
    fun hp => hp.meets.mono fun _ _ _ _ => trivial
  cases job with
  | postTask payload =>
      refine hother ((only_postTask payload).mono fun op hop => ?_)
      cases op <;> first | exact rfl | exact hop.elim
  | drain D => exact hother (Routine.Only.bind (storeless_drain D) fun _ => Routine.only_done _)
  | sweep maxAgeS => exact hother (Routine.only_perform rfl)
  | execute payload =>
      refine (meets_execute_stores payload).finallyDo fun past' out _ => ?_
      exact ⟨trivial, fun end' _ => ⟨trivial, fun _ _ => trivial⟩⟩

/-! ### What a call does to the store -/

section Effect

variable {x : RelayExchange} {s s' : RelayState} {jobs : List RelayJob}

omit [SqlText]

/-- A save replaces a ledger. -/
lemma effect_ledgers (h : x.op.effect s x.out s' jobs) (ledgerId : String) :
    (∃ ledger : Ledger, x = ⟨.save ledger, .ok ()⟩ ∧ ledger.control.ledgerId = ledgerId
        ∧ s'.ledgers ledgerId = some ledger.toDoc)
      ∨ (∀ ledger : Ledger, x = ⟨.save ledger, .ok ()⟩ → ledger.control.ledgerId ≠ ledgerId)
        ∧ s'.ledgers ledgerId = s.ledgers ledgerId := by
  obtain ⟨op, out⟩ := x
  cases out with
  | error e => exact Or.inr ⟨fun ledger heq => (by cases heq), by rw [h.2.1]⟩
  | ok answer =>
      cases op with
      | save ledger =>
          obtain ⟨hs, -⟩ := h
          by_cases hid : ledger.control.ledgerId = ledgerId
          · exact Or.inl ⟨ledger, rfl, hid, by rw [hs, ← hid]; exact Function.update_self ..⟩
          · refine Or.inr ⟨fun ledger' heq => ?_, by
              rw [hs]; exact Function.update_of_ne (Ne.symm hid) ..⟩
            cases heq
            exact hid
      | acceptTask key => obtain ⟨now, -, hs, -⟩ := h; exact Or.inr ⟨by simp, by rw [hs]⟩
      | claimTask key => obtain ⟨now, -, hs, -⟩ := h; exact Or.inr ⟨by simp, by rw [hs]⟩
      | settleTask key ok => obtain ⟨now, hs, -⟩ := h; exact Or.inr ⟨by simp, by rw [hs]⟩
      | pruneSettled maxAgeS => obtain ⟨cutoff, hs, -⟩ := h; exact Or.inr ⟨by simp, by rw [hs]⟩
      | markSettled id key => obtain ⟨now, hs, -⟩ := h; exact Or.inr ⟨by simp, by rw [hs]⟩
      | deadLetter id event reason => obtain ⟨now, hs, -⟩ := h; exact Or.inr ⟨by simp, by rw [hs]⟩
      | acquireSlot => exact Or.inr ⟨by simp, by rw [h.2.1]⟩
      | runEngine manifest workspace => exact Or.inr ⟨by simp, by rw [h.2.1]⟩
      | saveIdentity id payload => exact Or.inr ⟨by simp, by rw [h.2.1]⟩
      | loadSettled id => exact Or.inr ⟨by simp, by rw [h.2.1]⟩
      | _ => exact Or.inr ⟨by simp, by rw [h.1]⟩

/-- A `save_identity` replaces an identity. -/
lemma effect_identity (h : x.op.effect s x.out s' jobs) (ledgerId : String) :
    (∃ payload identity, x = ⟨.saveIdentity ledgerId payload, .ok identity⟩
        ∧ s'.db.identity ledgerId = some (identityOf payload))
      ∨ (∀ payload identity, x ≠ ⟨.saveIdentity ledgerId payload, .ok identity⟩)
        ∧ s'.db.identity ledgerId = s.db.identity ledgerId := by
  obtain ⟨op, out⟩ := x
  cases out with
  | error e => exact Or.inr ⟨fun payload identity heq => (by cases heq), by rw [h.2.1]⟩
  | ok answer =>
      cases op with
      | saveIdentity id payload =>
          obtain ⟨-, hs, -⟩ := h
          by_cases hid : id = ledgerId
          · subst hid
            exact Or.inl ⟨payload, answer, rfl, by rw [hs]; exact Function.update_self ..⟩
          · refine Or.inr ⟨fun payload' identity heq => ?_, by
              rw [hs]; exact Function.update_of_ne (Ne.symm hid) ..⟩
            cases heq
            exact hid rfl
      | acceptTask key =>
          obtain ⟨now, -, hs, -⟩ := h
          refine Or.inr ⟨by simp, ?_⟩
          rw [hs, acceptTask]
          split <;> rfl
      | claimTask key =>
          obtain ⟨now, -, hs, -⟩ := h
          refine Or.inr ⟨by simp, ?_⟩
          rw [hs, claimTask]
          split <;> rfl
      | settleTask key ok => obtain ⟨now, hs, -⟩ := h; exact Or.inr ⟨by simp, by rw [hs]; rfl⟩
      | pruneSettled maxAgeS => obtain ⟨cutoff, hs, -⟩ := h; exact Or.inr ⟨by simp, by rw [hs]; rfl⟩
      | markSettled id key => obtain ⟨now, hs, -⟩ := h; exact Or.inr ⟨by simp, by rw [hs]; rfl⟩
      | deadLetter id event reason =>
          obtain ⟨now, hs, -⟩ := h
          exact Or.inr ⟨by simp, by rw [hs]; rfl⟩
      | acquireSlot => exact Or.inr ⟨by simp, by rw [h.2.1]⟩
      | runEngine manifest workspace => exact Or.inr ⟨by simp, by rw [h.2.1]⟩
      | loadSettled id => exact Or.inr ⟨by simp, by rw [h.2.1]⟩
      | _ => exact Or.inr ⟨by simp, by rw [h.1]⟩

/-- Only a sweep takes a settled key away. -/
lemma effect_settled (h : x.op.effect s x.out s' jobs) {ledgerId key : String}
    (hsettled : loadSettled s.db ledgerId key = true) :
    loadSettled s'.db ledgerId key = true ∨ ∃ maxAgeS, x = ⟨.pruneSettled maxAgeS, .ok ()⟩ := by
  have hdelivery : ∀ {db : RelayDb}, db.delivery = s.db.delivery →
      loadSettled db ledgerId key = true := by
    intro db hsame
    rw [loadSettled, hsame]
    exact hsettled
  obtain ⟨op, out⟩ := x
  cases out with
  | error e => exact Or.inl (hdelivery (by rw [h.2.1]))
  | ok answer =>
      cases op with
      | pruneSettled maxAgeS => exact Or.inr ⟨maxAgeS, rfl⟩
      | markSettled id k =>
          obtain ⟨now, hs, -⟩ := h
          refine Or.inl ?_
          rw [hs, loadSettled]
          by_cases hk : (ledgerId, key) = (id, k)
          · simp [markSettled, RelayDb.insertDelivery, hk]
          · rw [loadSettled] at hsettled
            simpa [markSettled, RelayDb.insertDelivery, Function.update_of_ne hk] using hsettled
      | deadLetter id event reason =>
          obtain ⟨now, hs, -⟩ := h
          refine Or.inl ?_
          rw [hs, loadSettled]
          by_cases hk : (ledgerId, key) = (id, eventKey event)
          · simp [deadLetter, hk]
          · rw [loadSettled] at hsettled
            simpa [deadLetter, Function.update_of_ne hk] using hsettled
      | acceptTask k =>
          obtain ⟨now, -, hs, -⟩ := h
          refine Or.inl (hdelivery ?_)
          rw [hs, acceptTask]
          split <;> rfl
      | claimTask k =>
          obtain ⟨now, -, hs, -⟩ := h
          refine Or.inl (hdelivery ?_)
          rw [hs, claimTask]
          split <;> rfl
      | settleTask k ok => obtain ⟨now, hs, -⟩ := h; exact Or.inl (hdelivery (by rw [hs]; rfl))
      | save ledger => exact Or.inl (hdelivery (by rw [h.1]))
      | saveIdentity id payload => exact Or.inl (hdelivery (by rw [h.2.1]; rfl))
      | acquireSlot => exact Or.inl (hdelivery (by rw [h.2.1]))
      | runEngine manifest workspace => exact Or.inl (hdelivery (by rw [h.2.1]))
      | loadSettled id => exact Or.inl (hdelivery (by rw [h.2.1]))
      | _ => exact Or.inl (hdelivery (by rw [h.1]))

end Effect

/-! ### The events of the workers -/

/-- The thread is a worker that has saved the ledger, and the event is one of those it projects. -/
def RunEvent (deps : ReceiverDeps) (t : RelayThread) (payload : Dict) (ledger : Ledger)
    (event : Dict) : Prop :=
  t.job = .execute payload ∧ ⟨.save ledger, .ok ()⟩ ∈ t.past
    ∧ ∃ events, (workerDrain deps ledger (identityOf payload)).events = .ok events ∧ event ∈ events

/-- The worker has persisted its identity under the id of the ledger; its drain comes next. -/
def Drains (t : RelayThread) (payload : Dict) (ledger : Ledger) : Prop :=
  ∃ identity, ⟨.saveIdentity ledger.control.ledgerId payload, .ok identity⟩ ∈ t.past

/-- What is stored under the id of the ledger is what the worker has stored there. -/
def Current (s : RelayState) (t : RelayThread) (payload : Dict) (ledger : Ledger) : Prop :=
  s.ledgers ledger.control.ledgerId = some ledger.toDoc
    ∧ (Drains t payload ledger →
      s.db.identity ledger.control.ledgerId = some (identityOf payload))

/-- A worker stores a ledger or an identity under an id under which another worker has saved a
ledger with an event that is not settled. -/
def Overwrites (deps : ReceiverDeps) (c : RelayChange) : Prop :=
  ∃ i x j t payload ledger event, c.move = .call i x ∧ j ≠ i ∧ c.before.threads[j]? = some t
    ∧ RunEvent deps t payload ledger event ∧ x.op.storesUnder = some ledger.control.ledgerId
    ∧ loadSettled c.before.shared.db ledger.control.ledgerId (eventKey event) = false

/-- A sweep deletes the row of an event of a worker whose ledger or identity has been replaced. -/
def Forgets (deps : ReceiverDeps) (c : RelayChange) : Prop :=
  ∃ i maxAgeS, ∃ t ∈ c.before.threads, ∃ payload ledger event,
    c.move = .call i ⟨.pruneSettled maxAgeS, .ok ()⟩ ∧ RunEvent deps t payload ledger event
    ∧ ¬ Current c.before.shared t payload ledger
    ∧ loadSettled c.before.shared.db ledger.control.ledgerId (eventKey event) = true
    ∧ loadSettled c.after.shared.db ledger.control.ledgerId (eventKey event) = false

/-- Every event of a worker is settled, or its ledger and identity are still the stored ones. -/
def Secured (deps : ReceiverDeps) (P : RelayPool) : Prop :=
  ∀ t ∈ P.threads, ∀ payload ledger event, RunEvent deps t payload ledger event →
    Chained ledger.executionLog
      ∧ (loadSettled P.shared.db ledger.control.ledgerId (eventKey event) = true
        ∨ Current P.shared t payload ledger)

variable {P P' P₀ : RelayPool} {m : ThreadMove Raised RelayOp RelayOp.Res RelayJob}
  {trail : List RelayChange}

/-- The engine's answers are ledgers of runs. -/
lemma asExpected_savesOnce (h : (relayPlatform deps).Step P m P') :
    Platform.AsExpected savesOnce (⟨P, m, P'⟩ : RelayChange) := by
  rintro i x t hm - manifest workspace ledger rfl
  obtain rfl : m = .call i ⟨.runEngine manifest workspace, .ok ledger⟩ := hm
  obtain ⟨jobs, ⟨W, host, cfg, w, result, hrun, rfl⟩, -⟩ := h.call_effect
  rcases hr : run host cfg manifest w with ⟨r, w', fx⟩
  obtain rfl : r = .ok result := by rw [← hrun, hr]
  exact chained_run hr

omit [SqlText] in
/-- A call that stores nothing under the id leaves what is stored there. -/
lemma Current.step {x : RelayExchange} {s s' : RelayState} {jobs : List RelayJob} {t : RelayThread}
    {ledger : Ledger} (h : Current s t payload ledger) (heffect : x.op.effect s x.out s' jobs)
    (hnot : x.op.storesUnder ≠ some ledger.control.ledgerId) : Current s' t payload ledger := by
  obtain ⟨hledger, hidentity⟩ := h
  refine ⟨?_, fun hdrains => ?_⟩
  · rcases effect_ledgers heffect ledger.control.ledgerId with ⟨L, rfl, hid, -⟩ | ⟨-, hsame⟩
    · exact absurd (congrArg some hid) hnot
    · rw [hsame, hledger]
  · rcases effect_identity heffect ledger.control.ledgerId with ⟨p, identity, rfl, -⟩ | ⟨-, hsame⟩
    · exact absurd rfl hnot
    · rw [hsame, hidentity hdrains]

/-- A settled event stays settled, or can be sent again once its row is swept. -/
lemma secured_settled {i : ℕ} {x : RelayExchange} {t : RelayThread} {ledger : Ledger} {event : Dict}
    (h : (relayPlatform deps).Step P (.call i x) P') (ht : t ∈ P.threads)
    (hforget : ¬ Forgets deps ⟨P, .call i x, P'⟩) (hevent : RunEvent deps t payload ledger event)
    (hsettled : loadSettled P.shared.db ledger.control.ledgerId (eventKey event) = true) :
    loadSettled P'.shared.db ledger.control.ledgerId (eventKey event) = true
      ∨ x.op.storesUnder = none ∧ Current P'.shared t payload ledger := by
  obtain ⟨jobs, heffect⟩ := h.call_effect
  rcases effect_settled heffect hsettled with hstill | ⟨maxAgeS, rfl⟩
  · exact Or.inl hstill
  · by_cases hstill : loadSettled P'.shared.db ledger.control.ledgerId (eventKey event) = true
    · exact Or.inl hstill
    · have hcurrent : Current P.shared t payload ledger := by
        by_contra hnot
        exact hforget ⟨i, maxAgeS, t, ht, payload, ledger, event, rfl, hevent, hnot, hsettled,
          Bool.eq_false_iff.mpr hstill⟩
      exact Or.inr ⟨rfl,
        @Current.step _ payload ⟨.pruneSettled maxAgeS, .ok ()⟩ P.shared P'.shared jobs
        t ledger hcurrent heffect (by simp [RelayOp.storesUnder])⟩

/-- The call of another thread. -/
lemma secured_other {i j : ℕ} {x : RelayExchange} {t : RelayThread} {ledger : Ledger} {event : Dict}
    (h : (relayPlatform deps).Step P (.call i x) P') (hij : j ≠ i) (ht : P.threads[j]? = some t)
    (hover : ¬ Overwrites deps ⟨P, .call i x, P'⟩) (hforget : ¬ Forgets deps ⟨P, .call i x, P'⟩)
    (hevent : RunEvent deps t payload ledger event)
    (hbefore : loadSettled P.shared.db ledger.control.ledgerId (eventKey event) = true
      ∨ Current P.shared t payload ledger) :
    loadSettled P'.shared.db ledger.control.ledgerId (eventKey event) = true
      ∨ Current P'.shared t payload ledger := by
  have hmem := List.mem_of_getElem? ht
  obtain ⟨jobs, heffect⟩ := h.call_effect
  by_cases hstores : x.op.storesUnder = some ledger.control.ledgerId
  · have hsettled : loadSettled P.shared.db ledger.control.ledgerId (eventKey event) = true := by
      by_contra hnot
      exact hover ⟨i, x, j, t, payload, ledger, event, rfl, hij, ht, hevent, hstores,
        Bool.eq_false_iff.mpr hnot⟩
    exact (secured_settled h hmem hforget hevent hsettled).imp id And.right
  · rcases hbefore with hsettled | hcurrent
    · exact (secured_settled h hmem hforget hevent hsettled).imp id And.right
    · exact Or.inr (hcurrent.step heffect hstores)

/-- The call of the worker itself. -/
lemma secured_own {j : ℕ} {x : RelayExchange} {t t' : RelayThread} {ledger : Ledger} {event : Dict}
    (h : (relayPlatform deps).Step P (.call j x) P') (ht : t ∈ P.threads)
    (hallowed : (savesOnce t.job).allowed t.past x.op) (hjob : t'.job = t.job)
    (hpast : t'.past = t.past ++ [x]) (hforget : ¬ Forgets deps ⟨P, .call j x, P'⟩)
    (hP : Secured deps P) (hevent : RunEvent deps t' payload ledger event) :
    Chained ledger.executionLog
      ∧ (loadSettled P'.shared.db ledger.control.ledgerId (eventKey event) = true
        ∨ Current P'.shared t' payload ledger) := by
  obtain ⟨jobs, heffect⟩ := h.call_effect
  obtain ⟨hrun, hsave, hevents⟩ := hevent
  rw [hpast] at hsave
  rcases List.mem_append.mp hsave with hold | hnew
  · have hbefore : RunEvent deps t payload ledger event := ⟨hjob ▸ hrun, hold, hevents⟩
    obtain ⟨hchained, hsecured⟩ := hP t ht payload ledger event hbefore
    -- what it has persisted, unless this call does it
    have hdrains : (∀ p identity, x ≠ ⟨.saveIdentity ledger.control.ledgerId p, .ok identity⟩) →
        Drains t' payload ledger → Drains t payload ledger := by
      rintro hnot ⟨identity, hin⟩
      rw [hpast] at hin
      rcases List.mem_append.mp hin with hin | hin
      · exact ⟨identity, hin⟩
      · exact absurd (List.mem_singleton.mp hin).symm (hnot payload identity)
    refine ⟨hchained, ?_⟩
    rcases hsecured with hsettled | hcurrent
    · rcases secured_settled h ht hforget hbefore hsettled with hstill | ⟨hnone, hledger, hidentity⟩
      · exact Or.inl hstill
      · refine Or.inr ⟨hledger, fun hd => hidentity (hdrains ?_ hd)⟩
        rintro p identity rfl
        cases hnone
    · obtain ⟨hledger, hidentity⟩ := hcurrent
      refine Or.inr ⟨?_, fun hd => ?_⟩
      · rcases effect_ledgers heffect ledger.control.ledgerId with ⟨L, rfl, -, -⟩ | ⟨-, hsame⟩
        · -- a worker saves one ledger
          cases hallowed.2.2 _ hold
        · rw [hsame, hledger]
      · rcases effect_identity heffect ledger.control.ledgerId with ⟨p, identity, rfl,
          hnow⟩ | ⟨hnot, hsame⟩
        · obtain ⟨hp, -⟩ := hallowed
          rw [← hjob, hrun] at hp
          cases hp
          exact hnow
        · rw [hsame, hidentity (hdrains hnot hd)]
  · obtain rfl : x = ⟨.save ledger, .ok ()⟩ := (List.mem_singleton.mp hnew).symm
    obtain ⟨hchained, -, hnone⟩ := hallowed
    refine ⟨hchained, Or.inr ⟨?_, fun hd => ?_⟩⟩
    · rcases @effect_ledgers _ ⟨.save ledger, .ok ()⟩ P.shared P'.shared jobs heffect
        ledger.control.ledgerId with ⟨L, hx, -, hnow⟩ | ⟨hnot, -⟩
      · cases hx
        exact hnow
      · exact absurd rfl (hnot ledger rfl)
    · -- the identity comes after the ledger
      obtain ⟨identity, hin⟩ := hd
      rw [hpast] at hin
      rcases List.mem_append.mp hin with hin | hin
      · cases hnone _ hin
      · cases List.mem_singleton.mp hin

/-- **A step that neither overwrites nor forgets keeps the events secured.** -/
theorem secured_step (h : (relayPlatform deps).Step P m P') (hkept : Platform.Kept savesOnce P)
    (hover : ¬ Overwrites deps ⟨P, m, P'⟩) (hforget : ¬ Forgets deps ⟨P, m, P'⟩)
    (hP : Secured deps P) : Secured deps P' := by
  intro t' ht' payload ledger event hevent
  obtain ⟨j, hj⟩ := List.mem_iff_getElem?.mp ht'
  by_cases hown : ∃ x, m = .call j x
  · obtain ⟨x, rfl⟩ := hown
    obtain ⟨t, ht, hallowed, t'', ht'', hjob, hpast⟩ := h.allowed hkept
    obtain rfl : t' = t'' := Option.some.inj (hj.symm.trans ht'')
    exact secured_own h (List.mem_of_getElem? ht) hallowed hjob hpast hforget hP hevent
  · rcases h.thread hj with ⟨t, ht, hjob, ⟨hpast, -⟩ | ⟨op, next, out, hm, -⟩⟩ | ⟨-, job, rfl, -⟩
    · have hsame : ∀ {s : RelayState}, Current s t payload ledger →
        Current s t' payload ledger := by
        rintro s ⟨hledger, hidentity⟩
        refine ⟨hledger, fun ⟨identity, hin⟩ => hidentity ⟨identity, ?_⟩⟩
        rwa [← hpast]
      have hbefore : RunEvent deps t payload ledger event := by
        obtain ⟨hrun, hsave, hevents⟩ := hevent
        exact ⟨hjob ▸ hrun, hpast ▸ hsave, hevents⟩
      obtain ⟨hchained, hsecured⟩ := hP t (List.mem_of_getElem? ht) payload ledger event hbefore
      refine ⟨hchained, ?_⟩
      rcases h.shared with hshared | hshared | ⟨i, op, out, jobs, rfl, -⟩
      · rw [hshared]
        exact hsecured.imp id hsame
      · rw [hshared]
        exact hsecured.imp id fun hcurrent => hsame hcurrent
      · have hij : j ≠ i := by
          rintro rfl
          exact hown ⟨_, rfl⟩
        exact (secured_other h hij ht hover hforget hbefore hsecured).imp id hsame
    · exact absurd ⟨_, hm⟩ hown
    · exact absurd hevent.2.1 List.not_mem_nil

/-- **No event is lost.**  In every run of the receiver from a pool without threads, whatever the
order of the calls, their answers and the crashes, in which no worker stores over the unsettled
events of another one and no sweep forgets what cannot be projected any more: each event the drain
of a worker projects is settled, or what is stored under the id of its ledger loads and projects to
it. -/
theorem no_event_lost (h : (relayPlatform deps).Run P₀ trail P) (hstart : P₀.threads = [])
    (hover : ∀ c ∈ trail, ¬ Overwrites deps c) (hforget : ∀ c ∈ trail, ¬ Forgets deps c)
    {t : RelayThread} (ht : t ∈ P.threads) {ledger : Ledger} {event : Dict}
    (hdrains : Drains t payload ledger) (hevent : RunEvent deps t payload ledger event) :
    loadSettled P.shared.db ledger.control.ledgerId (eventKey event) = true
      ∨ Resendable deps P.shared ledger.control.ledgerId event := by
  have hall : Platform.Kept savesOnce P ∧ Secured deps P := by
    refine h.invariant (fun c => ¬ Overwrites deps c ∧ ¬ Forgets deps c)
      (fun Q => Platform.Kept savesOnce Q ∧ Secured deps Q) (fun Q m Q' hstep hok hQ => ?_)
      (fun c hc => ⟨hover c hc, hforget c hc⟩) ⟨?_, ?_⟩
    · exact ⟨hstep.meets (asExpected_savesOnce hstep) hQ.1 (meets_savesOnce deps),
        secured_step hstep hQ.1 hok.1 hok.2 hQ.2⟩
    · rw [Platform.Kept, hstart]
      exact fun t ht => absurd ht List.not_mem_nil
    · rw [Secured, hstart]
      exact fun t ht => absurd ht List.not_mem_nil
  obtain ⟨hchained, hsettled | ⟨hledger, hidentity⟩⟩ := hall.2 t ht payload ledger event hevent
  · exact Or.inl hsettled
  · obtain ⟨-, -, events, hevents, hin⟩ := hevent
    refine Or.inr ⟨ledger.toDoc, identityOf payload, events, ?_, hidentity hdrains, hevents, hin⟩
    rw [hledger]
    exact loadDoc_toDoc hchained

end Runtime

/-! ### Runs played -/

section Played

variable [PyRuntime] (deps : ReceiverDeps)

/-- The ledger a call has saved. -/
def savedLedger : RelayExchange → Option Ledger
  | ⟨.save ledger, .ok _⟩ => some ledger
  | _ => none

/-- The call has persisted the identity of the payload under the id. -/
def persists (ledgerId : String) (payload : Dict) : RelayExchange → Bool
  | ⟨.saveIdentity id p, .ok _⟩ => decide (id = ledgerId ∧ p = payload)
  | _ => false

/-- The payload, the ledger and the first event of a worker whose drain has begun. -/
def firstEvent (P : RelayPool) (i : ℕ) : Option (Dict × Ledger × Dict) :=
  match P.threads[i]? with
  | some ⟨.execute payload, past, _⟩ =>
      match past.findSome? savedLedger with
      | some ledger =>
          if past.any (persists ledger.control.ledgerId payload) then
            match (workerDrain deps ledger (identityOf payload)).events with
            | .ok (event :: _) => some (payload, ledger, event)
            | _ => none
          else none
      | none => none
  | _ => none

variable {deps}

lemma firstEvent_spec {P : RelayPool} {i : ℕ} {payload event : Dict} {ledger : Ledger}
    (h : firstEvent deps P i = some (payload, ledger, event)) :
    ∃ t ∈ P.threads, Drains t payload ledger ∧ RunEvent deps t payload ledger event := by
  rw [firstEvent] at h
  split at h
  · rename_i p past left hthread
    split at h
    · rename_i L hsaved
      split_ifs at h with hpersists
      split at h
      · rename_i e rest hevents
        cases h
        obtain ⟨x, hx, hone⟩ := List.exists_of_findSome?_eq_some hsaved
        obtain ⟨y, hy, hother⟩ := List.any_eq_true.mp hpersists
        refine ⟨_, List.mem_of_getElem? hthread, ?_, rfl, ?_, _, hevents, List.mem_cons_self⟩
        · unfold persists at hother
          split at hother
          · rename_i id p identity
            obtain ⟨rfl, rfl⟩ := of_decide_eq_true hother
            exact ⟨identity, hy⟩
          · cases hother
        · unfold savedLedger at hone
          split at hone
          · rename_i L' u
            cases hone
            exact hx
          · cases hone
      · cases h
    · cases h
  · cases h

/-- The call stores nothing while another thread has saved a ledger, and is no sweep. -/
def alone (c : RelayChange) : Bool :=
  match c.move with
  | .call _ ⟨.pruneSettled _, .ok _⟩ => false
  | .call i x => x.op.storesUnder.isNone || (List.range c.before.threads.length).all fun j =>
      j == i || ((c.before.threads[j]?).map fun t => t.past.all fun y => !y.op.saves).getD true
  | _ => true

lemma not_overwrites_of_alone {c : RelayChange} (h : alone c = true) : ¬ Overwrites deps c := by
  rintro ⟨i, x, j, t, payload, ledger, event, hm, hij, ht, ⟨-, hsave, -⟩, hstores, -⟩
  have hj : j ∈ List.range c.before.threads.length :=
    List.mem_range.mpr (List.getElem?_eq_some_iff.mp ht).1
  unfold alone at h
  split at h
  · cases h
  · rename_i i' x' hnot hm'
    obtain ⟨rfl, rfl⟩ : i' = i ∧ x' = x := by
      rw [hm] at hm'
      cases hm'
      exact ⟨rfl, rfl⟩
    rw [hstores, Option.isNone_some, Bool.false_or, List.all_eq_true] at h
    have hone := h j hj
    rw [Bool.or_eq_true, beq_iff_eq, ht] at hone
    rcases hone with heq | hall
    · exact hij heq
    · rw [Option.map_some, Option.getD_some, List.all_eq_true] at hall
      cases hall _ hsave
  · rename_i hnone
    exact hnone i x hm

lemma not_forgets_of_alone {c : RelayChange} (h : alone c = true) : ¬ Forgets deps c := by
  rintro ⟨i, maxAgeS, t, -, payload, ledger, event, hm, -⟩
  rw [alone, hm] at h
  cases h

/-- `Resendable`, computed. -/
def resends (deps : ReceiverDeps) (s : RelayState) (ledgerId : String) (event : Dict) : Bool :=
  match (s.ledgers ledgerId).bind loadDoc, loadIdentity s.db ledgerId with
  | some ledger, some identity =>
      match resyncEvents deps ledger identity with
      | .ok events => decide (event ∈ events)
      | .error _ => false
  | _, _ => false

lemma resends_of_resendable {s : RelayState} {ledgerId : String} {event : Dict}
    (h : Resendable deps s ledgerId event) : resends deps s ledgerId event = true := by
  obtain ⟨ledger, identity, events, hledger, hidentity, hevents, hin⟩ := h
  rw [resends, hledger, hidentity]
  dsimp only
  rw [hevents]
  exact decide_eq_true hin

end Played

section Example

attribute [local instance] cpython stringText

/-- A drain that stops at its first event: the event can be sent again. -/
theorem no_event_lost_of_one : ∃ trail P payload ledger event,
    (relayPlatform scriptDeps).Run freshPool trail P
      ∧ firstEvent scriptDeps P 1 = some (payload, ledger, event)
      ∧ (loadSettled P.shared.db ledger.control.ledgerId (eventKey event) = true
        ∨ Resendable scriptDeps P.shared ledger.control.ledgerId event) := by
  have hplayed : ((relayAnswers scriptDeps).play freshPool
      (takenRequest 0 "T1" ++ runsUnanswered 1)).any (fun r =>
        (firstEvent scriptDeps r.2 1).isSome && r.1.all alone) = true := by decide +kernel
  obtain ⟨⟨trail, P⟩, hplay, hcheck⟩ := (Option.any_eq_true _ _).mp hplayed
  rw [Bool.and_eq_true, List.all_eq_true] at hcheck
  obtain ⟨⟨payload, ledger, event⟩, hfirst⟩ := Option.isSome_iff_exists.mp hcheck.1
  obtain ⟨t, ht, hdrains, hevent⟩ := firstEvent_spec hfirst
  have hrun := AnswerBook.play_run _ hplay
  exact ⟨trail, P, payload, ledger, event, hrun, hfirst,
    no_event_lost hrun rfl (fun c hc => not_overwrites_of_alone (hcheck.2 c hc))
      (fun c hc => not_forgets_of_alone (hcheck.2 c hc)) ht hdrains hevent⟩

/-- The worker `i` stops at its first event, settles its task and ends. -/
def runsToEnd (i : ℕ) : List (Cue RelayJob RelayChoice) :=
  runsUnanswered i ++ List.replicate 4 (.call i .ok)

/-- Two tasks of one run, hence of one plan, executed one after the other: when the first drain
stops at an error of the server, the second task takes the place of the first one's ledger and
identity, and the events of the first are lost. -/
theorem events_lost : ∃ trail P payload ledger event,
    (relayPlatform scriptDeps).Run freshPool trail P
      ∧ workerEnded P 1 = true ∧ workerEnded P 3 = true
      ∧ (∃ t ∈ P.threads, Drains t payload ledger ∧ RunEvent scriptDeps t payload ledger event)
      ∧ loadSettled P.shared.db ledger.control.ledgerId (eventKey event) = false
      ∧ ¬ Resendable scriptDeps P.shared ledger.control.ledgerId event := by
  have hplayed : ((relayAnswers scriptDeps).play freshPool
      (takenRequest 0 "T1" ++ runsToEnd 1 ++ takenRequest 2 "T2" ++ runsToEnd 3)).any (fun r =>
        workerEnded r.2 1 && (workerEnded r.2 3 && (firstEvent scriptDeps r.2 1).any fun e =>
          !loadSettled r.2.shared.db e.2.1.control.ledgerId (eventKey e.2.2)
            && !resends scriptDeps r.2.shared e.2.1.control.ledgerId e.2.2)) = true := by
    decide +kernel
  obtain ⟨⟨trail, P⟩, hplay, hcheck⟩ := (Option.any_eq_true _ _).mp hplayed
  rw [Bool.and_eq_true, Bool.and_eq_true] at hcheck
  obtain ⟨hfirst, hsecond, hany⟩ := hcheck
  obtain ⟨⟨payload, ledger, event⟩, hevent, hlost⟩ := (Option.any_eq_true _ _).mp hany
  rw [Bool.and_eq_true, Bool.not_eq_true', Bool.not_eq_true'] at hlost
  refine ⟨trail, P, payload, ledger, event, AnswerBook.play_run _ hplay, hfirst, hsecond,
    firstEvent_spec hevent, hlost.1, fun hresend => ?_⟩
  have hagain := resends_of_resendable hresend
  dsimp only at hlost
  rw [hlost.2] at hagain
  cases hagain

end Example

end IplanRunner
