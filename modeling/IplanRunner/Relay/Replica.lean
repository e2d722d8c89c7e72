import IplanRunner.Foundation.Replication
import IplanRunner.Relay.Account

/-!
The log of the endpoint that the drains of one ledger feed.

* `Endpoint`: the endpoint records an event once for each idempotency key; it has recorded what it
  answers by a `202`, and may have recorded what it answers otherwise or not at all.
* `delivery_effect`: what a call does to the outbox; `deadLettered_effect`: a dead letter stays.
* `Replicating`: what the drains take for settled is recorded or dead-lettered.
* `endpoint_replicates`: apart from the dead letters the endpoint's log is a first part of the
  events, whatever the drains, the sweeps, the answers and the crashes.
-/

namespace IplanRunner

open Foundation

/-! ### The endpoint -/

/-- What a move does to the endpoint's log. -/
def Ingests (m : ThreadMove Raised RelayOp RelayOp.Res RelayJob) (log log' : List Dict) : Prop :=
  log' = log ∧ (∀ i event response, m = .call i ⟨.post event, .ok response⟩ → response.status ≠ 202)
    ∨ ∃ i event out, m = .call i ⟨.post event, out⟩ ∧ log' = recordOnce eventKey log event

/-- The moves of a run take the endpoint's log from one state to another. -/
def Endpoint : List Dict → List RelayChange → List Dict → Prop
  | log, [], log' => log' = log
  | log, c :: trail, log' => ∃ log₁, Ingests c.move log log₁ ∧ Endpoint log₁ trail log'

lemma endpoint_append {log log' : List Dict} {xs ys : List RelayChange} :
    Endpoint log (xs ++ ys) log' ↔ ∃ log₁, Endpoint log xs log₁ ∧ Endpoint log₁ ys log' := by
  induction xs generalizing log with
  | nil => exact ⟨fun h => ⟨log, rfl, h⟩, fun ⟨_, heq, h⟩ => heq ▸ h⟩
  | cons x xs ih =>
      constructor
      · rintro ⟨log₁, hx, hrest⟩
        obtain ⟨log₂, hxs, hys⟩ := ih.mp hrest
        exact ⟨log₂, ⟨log₁, hx, hxs⟩, hys⟩
      · rintro ⟨log₂, ⟨log₁, hx, hxs⟩, hys⟩
        exact ⟨log₁, hx, ih.mpr ⟨log₂, hxs, hys⟩⟩

/-- What has been recorded stays recorded. -/
lemma Ingests.mem {m : ThreadMove Raised RelayOp RelayOp.Res RelayJob} {log log' : List Dict}
    (h : Ingests m log log') {e : Dict} (he : e ∈ log) : e ∈ log' := by
  rcases h with ⟨rfl, -⟩ | ⟨i, event, out, -, rfl⟩
  · exact he
  · exact mem_recordOnce_of_mem he

/-- The event of a move that posts one. -/
def posted : ThreadMove Raised RelayOp RelayOp.Res RelayJob → Option Dict
  | .call _ ⟨.post event, _⟩ => some event
  | _ => none

/-- The log of an endpoint that records whatever it is sent. -/
def eagerLog (log : List Dict) (trail : List RelayChange) : List Dict :=
  (trail.filterMap fun c => posted c.move).foldl (recordOnce eventKey) log

lemma posted_eq_some {m : ThreadMove Raised RelayOp RelayOp.Res RelayJob} {event : Dict} :
    posted m = some event ↔ ∃ i out, m = .call i ⟨.post event, out⟩ := by
  constructor
  · intro h
    cases m with
    | call i x =>
        obtain ⟨op, out⟩ := x
        cases op with
        | post event' =>
            cases h
            exact ⟨i, out, rfl⟩
        | _ => cases h
    | _ => cases h
  · rintro ⟨i, out, rfl⟩
    rfl

lemma endpoint_eager (log : List Dict) (trail : List RelayChange) :
    Endpoint log trail (eagerLog log trail) := by
  induction trail generalizing log with
  | nil => rfl
  | cons c trail ih =>
      cases hpost : posted c.move with
      | none =>
          refine ⟨log, Or.inl ⟨rfl, fun i event response hm => ?_⟩, ?_⟩
          · rw [posted_eq_some.mpr ⟨i, _, hm⟩] at hpost
            cases hpost
          · rw [eagerLog, List.filterMap_cons, hpost]
            exact ih log
      | some event =>
          obtain ⟨i, out, hm⟩ := posted_eq_some.mp hpost
          refine ⟨_, Or.inr ⟨i, event, out, hm, rfl⟩, ?_⟩
          rw [eagerLog, List.filterMap_cons, hpost]
          exact ih _

section Runtime

variable [PyRuntime]

/-! ### The outbox -/

/-- The key of a ledger has a dead-lettered row. -/
def deadLettered (db : RelayDb) (ledgerId key : String) : Bool :=
  (db.delivery (ledgerId, key)).any fun row => row.status = .deadLettered

/-- **What a call does to the outbox.** -/
theorem delivery_effect {x : RelayExchange} {s s' : RelayState} {jobs : List RelayJob}
    (h : x.op.effect s x.out s' jobs) :
    s'.db.delivery = s.db.delivery
      ∨ (∃ ledgerId key now, x = ⟨.markSettled ledgerId key, .ok ()⟩
        ∧ s'.db = markSettled s.db ledgerId key now)
      ∨ (∃ ledgerId event reason now, x = ⟨.deadLetter ledgerId event reason, .ok ()⟩
        ∧ s'.db = deadLetter s.db ledgerId event reason now)
      ∨ ∃ cutoff, s'.db = pruneSettled s.db cutoff := by
  obtain ⟨op, out⟩ := x
  cases out with
  | error e => exact Or.inl (by rw [h.2.1])
  | ok answer =>
      cases op with
      | log notice => exact Or.inl (by rw [h.1])
      | now => exact Or.inl (by rw [h.1])
      | startWorker payload => exact Or.inl (by rw [h.1])
      | reply status body => exact Or.inl (by rw [h.1])
      | rmtree path => exact Or.inl (by rw [h.1])
      | makeParent path => exact Or.inl (by rw [h.1])
      | clone url ref dest => exact Or.inl (by rw [h.1])
      | post event => exact Or.inl (by rw [h.1])
      | releaseSlot => exact Or.inl (by rw [h.1])
      | save ledger => exact Or.inl (by rw [h.1])
      | acquireSlot => exact Or.inl (by rw [h.2.1])
      | runEngine manifest workspace => exact Or.inl (by rw [h.2.1])
      | saveIdentity ledgerId payload =>
          rw [h.2.1]
          exact Or.inl rfl
      | loadSettled ledgerId => exact Or.inl (by rw [h.2.1])
      | acceptTask key =>
          obtain ⟨now, -, rfl, -⟩ := h
          refine Or.inl ?_
          cases hrow : s.db.acceptedTask key <;> simp [acceptTask, hrow]
      | claimTask key =>
          obtain ⟨now, -, rfl, -⟩ := h
          refine Or.inl ?_
          by_cases hrow : (s.db.acceptedTask key).map (·.status) = some .accepted <;>
            simp [claimTask, hrow]
      | settleTask key ok =>
          obtain ⟨now, rfl, -⟩ := h
          exact Or.inl rfl
      | markSettled ledgerId key =>
          obtain ⟨now, rfl, -⟩ := h
          exact Or.inr (Or.inl ⟨ledgerId, key, now, rfl, rfl⟩)
      | deadLetter ledgerId event reason =>
          obtain ⟨now, rfl, -⟩ := h
          exact Or.inr (Or.inr (Or.inl ⟨ledgerId, event, reason, now, rfl, rfl⟩))
      | pruneSettled maxAgeS =>
          obtain ⟨cutoff, rfl, -⟩ := h
          exact Or.inr (Or.inr (Or.inr ⟨cutoff, rfl⟩))

omit [PyRuntime] in
lemma markSettled_row (db : RelayDb) (ledgerId key now : String) (k : String × String) :
    (markSettled db ledgerId key now).delivery k
      = if k = (ledgerId, key) then
          some ((db.delivery (ledgerId, key)).getD ⟨.delivered, none, none, now⟩)
        else db.delivery k :=
  Function.update_apply ..

omit [PyRuntime] in
lemma deadLetter_row (db : RelayDb) (ledgerId : String) (event : Dict) (reason now : String)
    (k : String × String) :
    (deadLetter db ledgerId event reason now).delivery k
      = if k = (ledgerId, eventKey event) then
          some ⟨.deadLettered, some reason, some event, now⟩
        else db.delivery k :=
  Function.update_apply ..

/-- A dead letter stays one: it is neither marked over nor swept. -/
lemma deadLettered_effect {x : RelayExchange} {s s' : RelayState} {jobs : List RelayJob}
    (h : x.op.effect s x.out s' jobs) {ledgerId key : String}
    (hdead : deadLettered s.db ledgerId key = true) : deadLettered s'.db ledgerId key = true := by
  obtain ⟨row, hrow, hstatus⟩ := (Option.any_eq_true _ _).mp hdead
  have hstatus' : row.status = .deadLettered := of_decide_eq_true hstatus
  rcases delivery_effect h with hsame | ⟨ledgerId', key', now, -, hs⟩ |
    ⟨ledgerId', event, reason, now, -, hs⟩ | ⟨cutoff, hs⟩
  · rw [deadLettered, hsame]
    exact hdead
  · rw [hs, deadLettered, markSettled_row]
    split_ifs with hkey
    · rw [← hkey, hrow]
      exact hstatus
    · exact hdead
  · rw [hs, deadLettered, deadLetter_row]
    split_ifs with hkey
    · rfl
    · exact hdead
  · rw [hs, deadLettered, pruneSettled]
    simp [hrow, Option.filter, DeliveryRow.stale, hstatus']

/-- A row that is there after a call was there before, or has been settled by the call. -/
lemma loadSettled_effect {x : RelayExchange} {s s' : RelayState} {jobs : List RelayJob}
    (h : x.op.effect s x.out s' jobs) {ledgerId key : String}
    (hrow : loadSettled s'.db ledgerId key = true) :
    loadSettled s.db ledgerId key = true ∨ SettledIn ledgerId [x] key := by
  rcases delivery_effect h with hsame | ⟨ledgerId', key', now, rfl, hs⟩ |
    ⟨ledgerId', event, reason, now, rfl, hs⟩ | ⟨cutoff, hs⟩
  · rw [loadSettled, hsame] at hrow
    exact Or.inl hrow
  · rw [hs, loadSettled, markSettled_row] at hrow
    split_ifs at hrow with hkey
    · cases hkey
      exact Or.inr (Or.inr (Or.inl (List.mem_singleton_self _)))
    · exact Or.inl hrow
  · rw [hs, loadSettled, deadLetter_row] at hrow
    split_ifs at hrow with hkey
    · cases hkey
      exact Or.inr (Or.inr (Or.inr ⟨event, reason, List.mem_singleton_self _, rfl⟩))
    · exact Or.inl hrow
  · rw [hs, loadSettled, pruneSettled] at hrow
    obtain ⟨row, hrow⟩ := Option.isSome_iff_exists.mp hrow
    exact Or.inl (by rw [loadSettled, (Option.filter_eq_some_iff.mp hrow).1]; rfl)

/-! ### Drains and sweeps -/

variable {R : RelayedLedger}

/-- A drain of the ledger, or a retention sweep. -/
def Relays (R : RelayedLedger) (job : RelayJob) : Prop :=
  (∃ D, job = .drain D ∧ D.On R) ∨ ∃ maxAgeS, job = .sweep maxAgeS

/-- A sweep prunes. -/
def sweeping (job : RelayJob) : Contract Raised RelayOp RelayOp.Res where
  allowed _ op := ∀ maxAgeS, job = .sweep maxAgeS → op = .pruneSettled maxAgeS
  expected _ := True

/-- An event is recorded, or a dead letter. -/
def Placed (R : RelayedLedger) (s : RelayState) (log : List Dict) (e : Dict) : Prop :=
  deadLettered s.db R.ledgerId (eventKey e) = true ∨ e ∈ log

/-- The drains and the sweeps of the ledger, the outbox and the endpoint's log. -/
structure Replicating (R : RelayedLedger) (P : RelayPool) (log : List Dict) : Prop where
  jobs : ∀ t ∈ P.threads, Relays R t.job
  replica : Replica eventKey R.events (deadLettered P.shared.db R.ledgerId) log
  known : ∀ t ∈ P.threads, ∀ e ∈ R.events, SettledIn R.ledgerId t.past (eventKey e) →
    Placed R P.shared log e
  accepted : ∀ t ∈ P.threads, ∀ e ∈ R.events, Accepted t.past e → e ∈ log
  rows : ∀ e ∈ R.events, loadSettled P.shared.db R.ledgerId (eventKey e) = true →
    Placed R P.shared log e

variable [SqlText] {deps : ReceiverDeps} {P P' P₀ : RelayPool} {log log' : List Dict}
  {m : ThreadMove Raised RelayOp RelayOp.Res RelayJob} {trail : List RelayChange}

lemma meets_sweeping (job : RelayJob) :
    (jobBody deps job).Meets (sweeping job) [] fun _ _ => True := by
  by_cases hsweep : ∃ maxAgeS, job = .sweep maxAgeS
  · obtain ⟨maxAgeS, rfl⟩ := hsweep
    refine Routine.meets_perform.mpr ⟨fun maxAgeS' heq => ?_, fun _ _ => trivial⟩
    cases heq
    rfl
  · refine (Routine.meets_of_comes fun calls op _ maxAgeS heq => ?_).mono fun _ _ _ _ => trivial
    exact absurd ⟨maxAgeS, heq⟩ hsweep

omit [SqlText] in
/-- What a drain or a sweep of the ledger calls. -/
lemma call_kind {job : RelayJob} {past : List RelayExchange} {op : RelayOp} (hjob : Relays R job)
    (hdrain : (inOrder R job).allowed past op) (hsweep : (sweeping job).allowed past op) :
    (∃ D : DrainJob, D.MayCall R past op) ∨ ∃ maxAgeS, op = .pruneSettled maxAgeS := by
  rcases hjob with ⟨D, rfl, hon⟩ | ⟨maxAgeS, rfl⟩
  · exact Or.inl ⟨D, (hdrain D rfl hon).1⟩
  · exact Or.inr ⟨maxAgeS, hsweep maxAgeS rfl⟩

omit [SqlText] in
lemma Due.mem {past : List RelayExchange} {event : Dict} (h : Due R past event) :
    event ∈ R.events := by
  obtain ⟨before, after, hevents, -⟩ := h
  rw [hevents]
  simp

omit [SqlText] in
/-- A sweep starts nothing. -/
lemma effect_prune {maxAgeS : Option ℤ} {s s' : RelayState} {out : Except Raised Unit}
    {jobs : List RelayJob} (h : (RelayOp.pruneSettled maxAgeS).effect s out s' jobs) :
    jobs = [] := by
  cases out with
  | error e => exact h.2.2
  | ok _ =>
      obtain ⟨cutoff, -, hjobs⟩ := h
      exact hjobs

/-- A step keeps the dead letters. -/
lemma stays_deadLettered (h : (relayPlatform deps).Step P m P') {ledgerId key : String}
    (hdead : deadLettered P.shared.db ledgerId key = true) :
    deadLettered P'.shared.db ledgerId key = true := by
  rcases h.shared with hsame | hrecover | ⟨i, op, out, jobs, -, heffect⟩
  · rwa [hsame]
  · rw [hrecover]
    exact hdead
  · have hmade : (Exchange.mk op out : RelayExchange).op.effect P.shared
        (Exchange.mk op out : RelayExchange).out P'.shared jobs := heffect
    exact deadLettered_effect hmade hdead

/-- What is placed stays placed. -/
lemma Placed.step (h : (relayPlatform deps).Step P m P') (hlog : Ingests m log log') {e : Dict}
    (hplaced : Placed R P.shared log e) : Placed R P'.shared log' e := by
  rcases hplaced with hdead | hin
  · exact Or.inl (stays_deadLettered h hdead)
  · exact Or.inr (hlog.mem hin)

omit [SqlText] in
/-- **What a drain or a sweep settles is placed.** -/
lemma Replicating.settles {x : RelayExchange} {t : RelayThread} {jobs : List RelayJob}
    {s : RelayState} (hP : Replicating R P log) (ht : t ∈ P.threads)
    (heffect : x.op.effect P.shared x.out s jobs)
    (hcall : (∃ D : DrainJob, D.MayCall R t.past x.op) ∨ ∃ maxAgeS, x.op = .pruneSettled maxAgeS)
    {e : Dict} (he : e ∈ R.events) (hkey : SettledIn R.ledgerId [x] (eventKey e)) :
    Placed R s log e := by
  rcases hkey with ⟨settled, hin, hkey⟩ | hin | ⟨event, reason, hin, hkey⟩
  · obtain rfl := List.mem_singleton.mp hin
    obtain ⟨rfl, rfl, -⟩ := heffect
    exact hP.rows e he hkey
  · obtain rfl := List.mem_singleton.mp hin
    obtain ⟨D, -, event, hsame, hdue, haccepted⟩ | ⟨maxAgeS, hop⟩ := hcall
    · obtain rfl := List.inj_on_of_nodup_map R.keys_nodup hdue.mem he hsame
      exact Or.inr (hP.accepted t ht event he haccepted)
    · cases hop
  · obtain rfl := List.mem_singleton.mp hin
    obtain ⟨now, rfl, -⟩ := heffect
    refine Or.inl ?_
    rw [deadLettered, deadLetter_row, if_pos (by rw [hkey])]
    rfl

/-- The endpoint's log after a step: an event is posted behind those before it. -/
lemma Replicating.ingests (h : (relayPlatform deps).Step P m P')
    (hdrains : Platform.Kept (inOrder R) P) (hsweeps : Platform.Kept sweeping P)
    (hlog : Ingests m log log') (hP : Replicating R P log) :
    Replica eventKey R.events (deadLettered P'.shared.db R.ledgerId) log' := by
  have hleave : ∀ key, deadLettered P.shared.db R.ledgerId key = true →
      deadLettered P'.shared.db R.ledgerId key = true := fun key => stays_deadLettered h
  rcases hlog with ⟨rfl, -⟩ | ⟨i, event, out, rfl, rfl⟩
  · exact hP.replica.leave hleave
  · obtain ⟨t, ht, hdrain, -⟩ := h.allowed hdrains
    obtain ⟨t', ht', hsweep, -⟩ := h.allowed hsweeps
    obtain rfl : t = t' := Option.some.inj (ht.symm.trans ht')
    have hmem := List.mem_of_getElem? ht
    obtain ⟨D, before, after, hevents, hbefore⟩ | ⟨maxAgeS, hop⟩ :=
      call_kind (hP.jobs t hmem) hdrain hsweep
    · refine (hP.replica.record R.keys_nodup hevents fun e he => ?_).leave hleave
      exact hP.known t hmem e (by rw [hevents]; exact List.mem_append_left _ he) (hbefore e he)
    · cases hop

/-- What a `202` has answered in a step has been recorded. -/
lemma Replicating.accepted_step (h : (relayPlatform deps).Step P m P') (hlog : Ingests m log log')
    (hP : Replicating R P log) {t' : RelayThread} (ht' : t' ∈ P'.threads) {e : Dict}
    (he : e ∈ R.events) (haccepted : Accepted t'.past e) : e ∈ log' := by
  rcases past_step h ht' with ⟨t, ht, hpast⟩ | hpast | ⟨i, x, t, rfl, ht, hpast⟩
  · exact hlog.mem (hP.accepted t ht e he (hpast ▸ haccepted))
  · rw [hpast] at haccepted
    obtain ⟨response, hin, -⟩ := haccepted
    cases hin
  · rw [hpast] at haccepted
    obtain ⟨response, hin, hstatus⟩ := haccepted
    rcases List.mem_append.mp hin with hin | hin
    · exact hlog.mem (hP.accepted t (List.mem_of_getElem? ht) e he ⟨response, hin, hstatus⟩)
    · obtain rfl := List.mem_singleton.mp hin
      rcases hlog with ⟨-, hrefused⟩ | ⟨j, event, out, hm, rfl⟩
      · exact absurd hstatus (hrefused i e response rfl)
      · cases hm
        exact mem_recordOnce_self R.keys_nodup hP.replica.recorded he

/-- **A step keeps the endpoint's log in place.** -/
theorem Replicating.step (h : (relayPlatform deps).Step P m P')
    (hdrains : Platform.Kept (inOrder R) P) (hsweeps : Platform.Kept sweeping P)
    (hstart : ∀ job, m = .start job → Relays R job) (hlog : Ingests m log log')
    (hP : Replicating R P log) : Replicating R P' log' := by
  have hcalls : ∀ i x, m = .call i x → ∃ t ∈ P.threads, P.threads[i]? = some t
      ∧ ((∃ D : DrainJob, D.MayCall R t.past x.op) ∨ ∃ maxAgeS, x.op = .pruneSettled maxAgeS) := by
    rintro i x rfl
    obtain ⟨t, ht, hdrain, -⟩ := h.allowed hdrains
    obtain ⟨t', ht', hsweep, -⟩ := h.allowed hsweeps
    obtain rfl : t = t' := Option.some.inj (ht.symm.trans ht')
    have hmem := List.mem_of_getElem? ht
    exact ⟨t, hmem, ht, call_kind (hP.jobs t hmem) hdrain hsweep⟩
  refine ⟨fun t' ht' => ?_, hP.ingests h hdrains hsweeps hlog, fun t' ht' e he hkey => ?_,
    fun t' ht' e he haccepted => hP.accepted_step h hlog ht' he haccepted, fun e he hrow => ?_⟩
  · obtain ⟨j, hj⟩ := List.mem_iff_getElem?.mp ht'
    rcases h.thread hj with ⟨t, ht, hjob, -⟩ | ⟨-, job, rfl, hm | ⟨i, x, jobs, hm, heffect, hin⟩⟩
    · rw [hjob]
      exact hP.jobs t (List.mem_of_getElem? ht)
    · exact hstart job hm
    · obtain ⟨t, -, -, ⟨D, hcall⟩ | ⟨maxAgeS, hop⟩⟩ := hcalls i x hm
      · rw [(effect_mayCall hcall heffect).1] at hin
        cases hin
      · obtain ⟨op, out⟩ := x
        cases hop
        rw [effect_prune heffect] at hin
        cases hin
  · rcases past_step h ht' with ⟨t, ht, hpast⟩ | hpast | ⟨i, x, t, rfl, ht, hpast⟩
    · exact (hP.known t ht e he (hpast ▸ hkey)).step h hlog
    · rw [hpast] at hkey
      simp [SettledIn] at hkey
    · rw [hpast] at hkey
      obtain ⟨jobs, heffect⟩ := h.call_effect
      obtain ⟨t₀, hmem, ht₀, hcall⟩ := hcalls i x rfl
      obtain rfl : t = t₀ := Option.some.inj (ht.symm.trans ht₀)
      rcases settledIn_append hkey with hkey | hkey
      · exact (hP.known t hmem e he hkey).step h hlog
      · exact (hP.settles hmem heffect hcall he hkey).imp_right hlog.mem
  · by_cases hm : ∃ i x, m = .call i x
    · obtain ⟨i, x, rfl⟩ := hm
      obtain ⟨jobs, heffect⟩ := h.call_effect
      obtain ⟨t, hmem, -, hcall⟩ := hcalls i x rfl
      rcases loadSettled_effect heffect hrow with hrow | hkey
      · exact (hP.rows e he hrow).step h hlog
      · exact (hP.settles hmem heffect hcall he hkey).imp_right hlog.mem
    · have hdb : P'.shared.db = P.shared.db := by
        rcases h.shared with hsame | hrecover | ⟨i, op, out, jobs, hcall, -⟩
        · rw [hsame]
        · rw [hrecover]
          rfl
        · exact absurd ⟨i, _, hcall⟩ hm
      rw [hdb] at hrow
      exact (hP.rows e he hrow).step h hlog

/-- The endpoint's log stays in place, whatever the order, the answers and the crashes. -/
lemma replicating_run (h : (relayPlatform deps).Run P₀ trail P) (hstart : P₀.threads = [])
    (hempty : ∀ key, P₀.shared.db.delivery (R.ledgerId, key) = none)
    (hjobs : ∀ c ∈ trail, ∀ job, c.move = .start job → Relays R job)
    (hlog : Endpoint [] trail log) : Platform.Kept (inOrder R) P ∧ Platform.Kept sweeping P
      ∧ Replicating R P log := by
  induction h generalizing log with
  | nil =>
      obtain rfl : log = [] := hlog
      refine ⟨?_, ?_, ?_, replica_nil, ?_, ?_, fun e _ hrow => ?_⟩
      · rw [Platform.Kept, hstart]
        exact fun t ht => absurd ht List.not_mem_nil
      · rw [Platform.Kept, hstart]
        exact fun t ht => absurd ht List.not_mem_nil
      · rw [hstart]
        exact fun t ht => absurd ht List.not_mem_nil
      · rw [hstart]
        exact fun t ht => absurd ht List.not_mem_nil
      · rw [hstart]
        exact fun t ht => absurd ht List.not_mem_nil
      · rw [loadSettled, hempty] at hrow
        cases hrow
  | @snoc trail P m P' hrun hstep ih =>
      obtain ⟨log₁, hbefore, log₂, hlast, heq⟩ := endpoint_append.mp hlog
      obtain rfl : log = log₂ := heq
      obtain ⟨hdrains, hsweeps, hP⟩ := ih (fun c hc => hjobs c (List.mem_append_left _ hc)) hbefore
      refine ⟨hstep.meets (fun _ _ _ _ _ => trivial) hdrains meets_drainBody,
        hstep.meets (fun _ _ _ _ _ => trivial) hsweeps meets_sweeping, ?_⟩
      have hlastJobs := hjobs _ (List.mem_append_right _ (List.mem_singleton_self _))
      exact hP.step hstep hdrains hsweeps hlastJobs hlast

/-- **The endpoint replicates the ledger.**  Drains and sweeps of one ledger run from an empty
outbox, in any order, with any answers and any crashes, and post to an endpoint that records an
event once for each idempotency key.  Apart from the dead letters, what it has recorded is a first
part of the events of the ledger, each once; a delivered row is of a recorded event; and once every
event has a row, everything but the dead letters has been recorded. -/
theorem endpoint_replicates (h : (relayPlatform deps).Run P₀ trail P) (hstart : P₀.threads = [])
    (hempty : ∀ key, P₀.shared.db.delivery (R.ledgerId, key) = none)
    (hjobs : ∀ c ∈ trail, ∀ job, c.move = .start job → Relays R job)
    (hlog : Endpoint [] trail log) :
    Replica eventKey R.events (deadLettered P.shared.db R.ledgerId) log
      ∧ (∀ e ∈ R.events, ∀ row, P.shared.db.delivery (R.ledgerId, eventKey e) = some row →
        row.status = .delivered → e ∈ log)
      ∧ ((∀ e ∈ R.events, loadSettled P.shared.db R.ledgerId (eventKey e) = true) →
        (log.filter fun e => !deadLettered P.shared.db R.ledgerId (eventKey e))
          = R.events.filter fun e => !deadLettered P.shared.db R.ledgerId (eventKey e)) := by
  obtain ⟨-, -, hP⟩ := replicating_run h hstart hempty hjobs hlog
  refine ⟨hP.replica, fun e he row hrow hdelivered => ?_, fun hall => ?_⟩
  · refine (hP.rows e he (by rw [loadSettled, hrow]; rfl)).resolve_left fun hdead => ?_
    rw [deadLettered, hrow, Option.any_some, hdelivered] at hdead
    cases hdead
  · exact hP.replica.complete R.keys_nodup fun e he => hP.rows e he (hall e he)

end Runtime

section Example

attribute [local instance] cpython stringText

/-- The answer of the first event is lost; a second drain repeats it and delivers both; a sweep
deletes the rows, and a third drain repeats the first event. -/
def repeatedDelivery : List (Cue RelayJob RelayChoice) :=
  [.start (.drain twoEventDrain), .call 0 .ok, .call 0 (.raise .osError),
    .start (.drain twoEventDrain), .call 1 .ok, .call 1 .ok, .call 1 .ok, .call 1 .ok, .call 1 .ok,
    .start (.sweep none), .call 2 (.at "2027"),
    .start (.drain twoEventDrain), .call 3 .ok, .call 3 .ok]

/-- A ledger with two events, of which this is a drain. -/
lemma exists_twoEventLedger : ∃ R : RelayedLedger, R.events.length = 2
    ∧ twoEventDrain.ledgerId = R.ledgerId ∧ twoEventDrain.events = .ok R.events := by
  have hcheck : (twoEventDrain.events.toOption.any fun events => events.length == 2) = true := by
    decide +kernel
  obtain ⟨events, hevents, hlength⟩ := (Option.any_eq_true _ _).mp hcheck
  let R : RelayedLedger :=
    { ledgerId := "LEDGER-1"
      doc := twoEventDrain.ledger
      entries := _
      log := _
      identity := twoEventDrain.identity
      key := "k"
      keyId := twoEventDrain.resolvedKeyId
      events := events
      entries_eq := rfl
      log_eq := rfl
      verified := by decide +kernel
      distinct := by decide +kernel
      projected := eq_ok_of_toOption hevents }
  exact ⟨R, by simpa using hlength, rfl, eq_ok_of_toOption hevents⟩

/-- A run that starts drains of the ledger and sweeps only. -/
lemma relays_of_starts {R : RelayedLedger} (hledger : twoEventDrain.ledgerId = R.ledgerId)
    (hevents : twoEventDrain.events = .ok R.events) {cues : List (Cue RelayJob RelayChoice)}
    {trail : List RelayChange} {P : RelayPool}
    (hplay : (relayAnswers scriptDeps).play freshPool cues = some (trail, P))
    (hcues : ∀ job, .start job ∈ cues → job = .drain twoEventDrain ∨ job = .sweep none) :
    ∀ c ∈ trail, ∀ job, c.move = .start job → Relays R job := by
  intro c hc job hm
  rcases hcues job (AnswerBook.play_starts _ hplay c hc hm) with rfl | rfl
  · refine Or.inl ⟨twoEventDrain, rfl, hledger, fun events hevents' => ?_⟩
    rw [Except.ok.inj (hevents'.symm.trans hevents)]
  · exact Or.inr ⟨none, rfl⟩

/-- Four posts of two events, and a log that records each of them once. -/
theorem endpoint_replicates_of_repeated : ∃ (R : RelayedLedger) (trail : List RelayChange)
    (P : RelayPool), R.events.length = 2 ∧ (relayPlatform scriptDeps).Run freshPool trail P
      ∧ (trail.filterMap fun c => posted c.move).length = 4
      ∧ Replica eventKey R.events (deadLettered P.shared.db R.ledgerId) (eagerLog [] trail) := by
  obtain ⟨R, hlength, hledger, hevents⟩ := exists_twoEventLedger
  have hplayed : ((relayAnswers scriptDeps).play freshPool repeatedDelivery).any
      (fun r => (r.1.filterMap fun c => posted c.move).length == 4) = true := by decide +kernel
  obtain ⟨⟨trail, P⟩, hplay, hcheck⟩ := (Option.any_eq_true _ _).mp hplayed
  have hrun := AnswerBook.play_run _ hplay
  have hjobs := relays_of_starts hledger hevents hplay (by simp [repeatedDelivery])
  exact ⟨R, trail, P, hlength, hrun, by simpa using hcheck,
    (endpoint_replicates hrun rfl (fun _ => rfl) hjobs (endpoint_eager [] trail)).1⟩

end Example

end IplanRunner
