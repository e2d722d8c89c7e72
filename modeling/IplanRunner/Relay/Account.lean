import IplanRunner.Relay.Outage

/-!
What the report of a drain accounts for (`relay/worker.py`), and the listing of `sync --dry-run`.

* `Ran`: calls made one after the other on the store, by nobody else in between.
* `Accounts`: every key is settled before, delivered, dead-lettered or pending; `dryRun`: the keys a
  dry run lists.
* `drainFrom_sweep`: the loop settles some events, reports one of those that are left, and skips
  what is settled already.
* `drain_accounts_iff`: the report accounts for every event exactly when the answers settle every
  unsettled event but the last.
-/

namespace IplanRunner

open Foundation

/-! ### A drain that is left alone -/

section Runtime

variable [PyRuntime]

/-- The calls are made one after the other, from a state to a state. -/
def Ran : RelayState → List RelayExchange → RelayState → Prop
  | s, [], s' => s' = s
  | s, x :: calls, s' => ∃ s₁ jobs, x.op.effect s x.out s₁ jobs ∧ Ran s₁ calls s'

lemma ran_append {s s' : RelayState} {xs ys : List RelayExchange} :
    Ran s (xs ++ ys) s' ↔ ∃ s₁, Ran s xs s₁ ∧ Ran s₁ ys s' := by
  induction xs generalizing s with
  | nil => exact ⟨fun h => ⟨s, rfl, h⟩, fun ⟨_, heq, h⟩ => heq ▸ h⟩
  | cons x xs ih =>
      constructor
      · rintro ⟨s₁, jobs, hx, hrest⟩
        obtain ⟨s₂, hxs, hys⟩ := ih.mp hrest
        exact ⟨s₂, ⟨s₁, jobs, hx, hxs⟩, hys⟩
      · rintro ⟨s₂, ⟨s₁, jobs, hx, hxs⟩, hys⟩
        exact ⟨s₁, jobs, hx, ih.mpr ⟨s₂, hxs, hys⟩⟩

/-- The calls that leave the store as it is leave it so together. -/
lemma ran_quiet {s s' : RelayState} {calls : List RelayExchange}
    (hquiet : ∀ x ∈ calls, x.op = .now ∨ ∃ event, x.op = .post event) (h : Ran s calls s') :
    s' = s := by
  induction calls generalizing s with
  | nil => exact h
  | cons x calls ih =>
      obtain ⟨s₁, jobs, hx, hrest⟩ := h
      have hsame : s₁ = s := by
        obtain ⟨op, out⟩ := x
        obtain rfl | ⟨event, rfl⟩ : op = .now ∨ ∃ event, op = .post event :=
          hquiet _ List.mem_cons_self
        all_goals
          cases out with
          | ok r => exact hx.1
          | error e => exact hx.2.1
      subst hsame
      exact ih (fun y hy => hquiet y (List.mem_cons_of_mem _ hy)) hrest

/-! ### The two notions of pending -/

omit [PyRuntime] in
/-- Every key is settled before, or in one of the three lists of the report, as often as it is
projected, and nothing settled before is in a list. -/
def Accounts (keys : List String) (settled : String → Bool) (report : DrainReport) : Prop :=
  keys.Perm (keys.filter settled ++ report.delivered ++ report.deadLettered ++ report.pending)
    ∧ ∀ key ∈ report.delivered ++ report.deadLettered ++ report.pending, settled key = false

/-- The list `pending` of `_sync` under `--dry-run`. -/
def dryRun (job : DrainJob) (db : RelayDb) : Except PyErr (List String) := do
  let events ← job.events
  return (events.map eventKey).filter fun key => !loadSettled db job.ledgerId key

/-- The outcome settles its event. -/
def RelayOutcome.Settles (outcome : RelayOutcome) : Prop :=
  outcome.action = .advance ∨ outcome.action = .deadLetter

variable (job : DrainJob)

/-- The answers settle every one of the events but the last: each is delivered with an outcome that
settles it, which is stored before the next is delivered. -/
def AnswersSettle (now : ℤ) : List Dict → List RelayExchange → Prop
  | [], _ => True
  | event :: rest, calls => rest = [] ∨ ∃ first stored last outcome, calls = first ++ stored :: last
      ∧ (deliverWithRefresh job now event).Does first (.ok outcome) ∧ outcome.Settles
      ∧ AnswersSettle now rest last

/-- The calls after the settled keys have been read. -/
def DrainJob.afterLoad (calls : List RelayExchange) : List RelayExchange :=
  (calls.dropWhile fun x => x.op ≠ .loadSettled job.ledgerId).tail

/-- The answers of a drain settle every unsettled event but the last. -/
def DrainJob.AllButLast (db : RelayDb) (calls : List RelayExchange) : Prop :=
  ∃ now events, job.stamped calls = some now ∧ job.events = .ok events
    ∧ AnswersSettle job now (events.filter fun e => !loadSettled db job.ledgerId (eventKey e))
      (job.afterLoad calls)

/-! ### One event of the loop -/

variable {job} {now : ℤ} {event : Dict} {settled : String → Bool} {report report' : DrainReport}
  {calls : List RelayExchange}

/-- A call that records an event as settled. -/
def Records (job : DrainJob) (event : Dict) (x : RelayExchange) : Prop :=
  x = ⟨.markSettled job.ledgerId (eventKey event), .ok ()⟩
    ∨ ∃ reason, x = ⟨.deadLetter job.ledgerId event reason, .ok ()⟩

/-- After its record the key of the event is settled, and no other key has changed. -/
lemma Records.table {s s' : RelayState} {x : RelayExchange} {jobs : List RelayJob}
    (h : Records job event x) (heff : x.op.effect s x.out s' jobs) (key : String) :
    loadSettled s'.db job.ledgerId key
      = (loadSettled s.db job.ledgerId key || decide (key = eventKey event)) := by
  rcases h with rfl | ⟨reason, rfl⟩
  · obtain ⟨at', rfl, -⟩ := heff
    by_cases hkey : key = eventKey event
    · simp [loadSettled, markSettled, RelayDb.insertDelivery, hkey]
    · simp [loadSettled, markSettled, RelayDb.insertDelivery, Function.update, hkey]
  · obtain ⟨at', rfl, -⟩ := heff
    by_cases hkey : key = eventKey event
    · simp [loadSettled, deadLetter, hkey]
    · simp [loadSettled, deadLetter, Function.update, hkey]

/-- What the loop does at an event that is not settled: it records it and goes on, or it reports it
and stops. -/
lemma drainFrom_unsettled {rest : List Dict} (hevent : settled (eventKey event) = false)
    (h : (drainFrom job now settled (event :: rest) report).Does calls (.ok report')) :
    ∃ first last outcome, calls = first ++ last
      ∧ (deliverWithRefresh job now event).Does first (.ok outcome)
      ∧ ((outcome.Settles ∧ ∃ x more report₁, last = x :: more ∧ Records job event x
          ∧ (report₁.delivered ++ report₁.deadLettered).Perm
            (eventKey event :: (report.delivered ++ report.deadLettered))
          ∧ report₁.pending = report.pending
          ∧ (drainFrom job now settled rest report₁).Does more (.ok report'))
        ∨ (¬ outcome.Settles ∧ last = [] ∧ report'.delivered = report.delivered
          ∧ report'.deadLettered = report.deadLettered
          ∧ report'.pending = report.pending ++ [eventKey event])) := by
  rw [drainFrom, if_neg (by simp [hevent])] at h
  obtain ⟨first, last, outcome, rfl, hfirst, hlast⟩ := Routine.does_bind_ok.mp h
  refine ⟨first, last, outcome, rfl, hfirst, ?_⟩
  obtain ⟨action, reason⟩ := outcome
  cases action with
  | advance =>
      obtain ⟨mid, more, ⟨⟩, rfl, hmid, hmore⟩ := Routine.does_bind_ok.mp hlast
      rw [invoke, Routine.does_perform] at hmid
      subst hmid
      refine Or.inl ⟨Or.inl rfl, _, more, _, rfl, Or.inl rfl, ?_, ?_, hmore⟩
      · rw [List.append_assoc]
        exact List.perm_middle
      · rfl
  | deadLetter =>
      obtain ⟨mid, more, ⟨⟩, rfl, hmid, hmore⟩ := Routine.does_bind_ok.mp hlast
      rw [invoke, Routine.does_perform] at hmid
      subst hmid
      refine Or.inl ⟨Or.inr rfl, _, more, _, rfl, Or.inr ⟨reason, rfl⟩, ?_, ?_, hmore⟩
      · rw [← List.append_assoc]
        exact List.perm_append_singleton ..
      · rfl
  | retry =>
      obtain ⟨rfl, heq⟩ := hlast
      cases heq
      exact Or.inr ⟨fun h => by cases h <;> contradiction, rfl, rfl, rfl, rfl⟩
  | halt =>
      obtain ⟨rfl, heq⟩ := hlast
      cases heq
      exact Or.inr ⟨fun h => by cases h <;> contradiction, rfl, rfl, rfl, rfl⟩
  | refresh =>
      obtain ⟨rfl, heq⟩ := hlast
      cases heq
      exact Or.inr ⟨fun h => by cases h <;> contradiction, rfl, rfl, rfl, rfl⟩

/-- The answers that have settled an event settle all but the last of it and the rest exactly when
those that follow do so for the rest. -/
lemma answersSettle_cons {rest : List Dict} {first last : List RelayExchange} {x : RelayExchange}
    {outcome : RelayOutcome} (hfirst : (deliverWithRefresh job now event).Does first (.ok outcome))
    (hsettles : outcome.Settles) :
    AnswersSettle job now (event :: rest) (first ++ x :: last)
      ↔ AnswersSettle job now rest last := by
  constructor
  · rintro (rfl | ⟨first', x', last', outcome', heq, hfirst', -, hlast'⟩)
    · trivial
    · obtain ⟨rfl, -⟩ := hfirst.unique hfirst' heq
      cases List.append_cancel_left heq
      exact hlast'
  · exact fun hlast => Or.inr ⟨first, x, last, outcome, rfl, hfirst, hsettles, hlast⟩

/-- Answers that leave an event unsettled do so for the last only. -/
lemma answersSettle_stop {rest : List Dict} {first last : List RelayExchange}
    {outcome : RelayOutcome}
    (hfirst : (deliverWithRefresh job now event).Does first (.ok outcome))
    (hsettles : ¬ outcome.Settles) :
    AnswersSettle job now (event :: rest) (first ++ last) ↔ rest = [] := by
  constructor
  · rintro (rfl | ⟨first', x', last', outcome', heq, hfirst', hsettles', -⟩)
    · rfl
    · obtain ⟨-, hout⟩ := hfirst.unique hfirst' heq
      cases hout
      exact absurd hsettles' hsettles
  · exact Or.inl

/-! ### The loop -/

/-- What the loop has done with the unsettled events: some are settled, one of the rest is
reported. -/
structure Sweep (job : DrainJob) (s s' : RelayState) (unsettled done rest : List Dict)
    (report report' : DrainReport) : Prop where
  split : unsettled = done ++ rest
  recorded : (report'.delivered ++ report'.deadLettered).Perm
    (done.map eventKey ++ (report.delivered ++ report.deadLettered))
  pending : report'.pending = report.pending ++ (rest.take 1).map eventKey
  table : ∀ key, loadSettled s'.db job.ledgerId key
    = (loadSettled s.db job.ledgerId key || decide (key ∈ done.map eventKey))

lemma drainFrom_sweep {events : List Dict} {s s' : RelayState}
    (h : (drainFrom job now settled events report).Does calls (.ok report'))
      (hran : Ran s calls s') :
    ∃ done rest,
      Sweep job s s' (events.filter fun e => !settled (eventKey e)) done rest report report'
      ∧ (AnswersSettle job now (events.filter fun e => !settled (eventKey e)) calls
        ↔ rest.length ≤ 1) := by
  induction events generalizing calls report s with
  | nil =>
      obtain ⟨rfl, heq⟩ := h
      cases heq
      obtain rfl : s' = s := hran
      exact ⟨[], [], ⟨rfl, List.Perm.refl _, by simp, by simp⟩, by simp [AnswersSettle]⟩
  | cons event rest ih =>
      by_cases hevent : settled (eventKey event) = true
      · rw [drainFrom, if_pos hevent] at h
        rw [List.filter_cons_of_neg (by simp [hevent])]
        exact ih h hran
      · rw [Bool.not_eq_true] at hevent
        rw [List.filter_cons_of_pos (by simp [hevent])]
        obtain ⟨first, last, outcome, rfl, hfirst, hnext⟩ := drainFrom_unsettled hevent h
        obtain ⟨s₁, hran₁, hran₂⟩ := ran_append.mp hran
        obtain rfl : s₁ = s :=
          ran_quiet (fun x hx => Or.inr
            ⟨event, (only_deliverWithRefresh job now event).does hfirst x hx⟩) hran₁
        rcases hnext with ⟨hsettles, x, more, report₁, rfl, hx, hreport₁, hpending₁, hmore⟩ |
            ⟨hsettles, rfl, hdelivered, hdead, hpending⟩
        · obtain ⟨s₂, jobs, heff, hran₃⟩ := hran₂
          obtain ⟨done, rest', hsweep, hanswers⟩ := ih hmore hran₃
          refine ⟨event :: done, rest', ⟨by rw [hsweep.split, List.cons_append], ?_, ?_, ?_⟩, ?_⟩
          · have hone := hsweep.recorded.trans (hreport₁.append_left _)
            exact hone.trans List.perm_middle
          · rw [hsweep.pending, hpending₁]
          · intro key
            rw [hsweep.table, hx.table heff]
            by_cases hkey : key = eventKey event <;> simp [hkey]
          · rw [answersSettle_cons hfirst hsettles, hanswers]
        · obtain rfl : s' = s₁ := hran₂
          refine ⟨[], event :: rest.filter fun e => !settled (eventKey e),
            ⟨rfl, by rw [hdelivered, hdead]; rfl, hpending, by simp⟩, ?_⟩
          rw [answersSettle_stop hfirst hsettles, List.length_cons]
          constructor
          · intro hnil
            rw [hnil]
            rfl
          · intro hlength
            exact List.length_eq_zero_iff.mp (by omega)

/-! ### The report -/

omit [PyRuntime] in
/-- The first of a list is all of it where there is at most one. -/
lemma map_take_one_iff {α β : Type} (f : α → β) (l : List α) :
    l.map f = (l.take 1).map f ↔ l.length ≤ 1 := by
  constructor
  · intro h
    have hlength := congrArg List.length h
    rw [List.length_map, List.length_map, List.length_take] at hlength
    omega
  · intro h
    rw [List.take_of_length_le h]

/-- The drain takes its moment, reads the settled keys, and goes through the events. -/
lemma drain_does (h : (drain job).Does calls (.ok report)) : ∃ front now events settled last,
    calls = front ++ ⟨.loadSettled job.ledgerId, .ok settled⟩ :: last ∧ job.stamped calls = some now
      ∧ (∀ x ∈ front, x.op = .now) ∧ job.events = .ok events
      ∧ (drainFrom job now settled events ⟨[], [], [], none⟩).Does last (.ok report) := by
  obtain ⟨front, calls₁, now, rfl, hstamp, hproject⟩ := Routine.does_bind_ok.mp h
  obtain ⟨_, calls₂, events, rfl, hlift, hread⟩ := Routine.does_bind_ok.mp hproject
  obtain ⟨rfl, hevents⟩ := does_pyLift hlift
  obtain ⟨load, last, settled, rfl, hload, hloop⟩ := Routine.does_bind_ok.mp hread
  obtain rfl := Routine.does_perform.mp hload
  refine ⟨front, now, events, settled, last, rfl, ?_, ?_, hevents, hloop⟩
  · rw [DrainJob.stamp] at hstamp
    rw [DrainJob.stamped]
    cases hnow : job.now with
    | some now' =>
        rw [hnow] at hstamp
        obtain ⟨-, heq⟩ := hstamp
        cases heq
        rfl
    | none =>
        rw [hnow] at hstamp
        rw [Routine.does_perform.mp hstamp]
        rfl
  · rw [DrainJob.stamp] at hstamp
    cases hnow : job.now with
    | some now' =>
        rw [hnow] at hstamp
        obtain ⟨rfl, -⟩ := hstamp
        simp
    | none =>
        rw [hnow] at hstamp
        rw [Routine.does_perform.mp hstamp]
        simp

omit [PyRuntime] in
/-- What the loop is given comes after the settled keys. -/
lemma afterLoad_eq {front last : List RelayExchange} {out : Except Raised (String → Bool)}
    (hfront : ∀ x ∈ front, x.op = .now) :
    job.afterLoad (front ++ ⟨.loadSettled job.ledgerId, out⟩ :: last) = last := by
  have hdrop : ∀ x ∈ front, decide (x.op ≠ .loadSettled job.ledgerId) = true := by
    intro x hx
    rw [hfront x hx]
    exact decide_eq_true (by simp)
  rw [DrainJob.afterLoad, List.dropWhile_append_of_pos hdrop,
    List.dropWhile_cons_of_neg (by simp), List.tail_cons]

/-- What a whole drain has done, from the keys settled before it. -/
lemma drain_sweep {events : List Dict} {s s' : RelayState} (hevents : job.events = .ok events)
    (h : (drain job).Does calls (.ok report)) (hran : Ran s calls s') : ∃ done rest,
      Sweep job s s' (events.filter fun e => !loadSettled s.db job.ledgerId (eventKey e)) done rest
        ⟨[], [], [], none⟩ report ∧ (job.AllButLast s.db calls ↔ rest.length ≤ 1) := by
  obtain ⟨front, now, events', settled, last, rfl, hstamp, hfront, hevents', hloop⟩ := drain_does h
  obtain rfl : events' = events := Except.ok.inj (hevents'.symm.trans hevents)
  obtain ⟨s₁, hran₁, s₂, jobs, hload, hran₂⟩ := ran_append.mp hran
  obtain rfl : s₁ = s := ran_quiet (fun x hx => Or.inl (hfront x hx)) hran₁
  obtain ⟨rfl, rfl, -⟩ := hload
  obtain ⟨done, rest, hsweep, hanswers⟩ := drainFrom_sweep hloop hran₂
  refine ⟨done, rest, hsweep, ?_⟩
  rw [← hanswers]
  constructor
  · rintro ⟨now', events'', hstamp', hevents'', hall⟩
    rw [afterLoad_eq hfront] at hall
    obtain rfl : now = now' := Option.some.inj (hstamp.symm.trans hstamp')
    obtain rfl : events' = events'' := Except.ok.inj (hevents.symm.trans hevents'')
    exact hall
  · intro hall
    refine ⟨now, events', hstamp, hevents, ?_⟩
    rw [afterLoad_eq hfront]
    exact hall

omit [PyRuntime] in
/-- The unsettled keys are the recorded ones and those of the rest. -/
lemma Sweep.keys {events done rest : List Dict} {s s' : RelayState} (unsettled : String → Bool)
    (h : Sweep job s s' (events.filter fun e => unsettled (eventKey e)) done rest report report') :
    (events.map eventKey).filter unsettled = done.map eventKey ++ rest.map eventKey := by
  rw [List.filter_map, ← List.map_append, ← h.split]
  rfl

omit [PyRuntime] in
/-- The report accounts for the events where the loop has left at most one. -/
lemma Sweep.accounts_iff {events done rest : List Dict} {s s' : RelayState}
    (h : Sweep job s s' (events.filter fun e => !loadSettled s.db job.ledgerId (eventKey e))
      done rest ⟨[], [], [], none⟩ report) :
    Accounts (events.map eventKey) (loadSettled s.db job.ledgerId) report ↔ rest.length ≤ 1 := by
  have hkeys := Sweep.keys (fun key => !loadSettled s.db job.ledgerId key) h
  have hrecorded : (report.delivered ++ report.deadLettered).Perm (done.map eventKey) := by
    simpa using h.recorded
  have hpending : report.pending = (rest.take 1).map eventKey := h.pending
  have hall := (List.filter_append_perm (loadSettled s.db job.ledgerId) (events.map eventKey)).symm
  rw [hkeys] at hall
  have hlisted : (((events.map eventKey).filter (loadSettled s.db job.ledgerId)) ++ report.delivered
      ++ report.deadLettered ++ report.pending).Perm
      ((events.map eventKey).filter (loadSettled s.db job.ledgerId)
        ++ (done.map eventKey ++ (rest.take 1).map eventKey)) := by
    rw [List.append_assoc, List.append_assoc, ← List.append_assoc report.delivered, hpending]
    exact (hrecorded.append_right _).append_left _
  constructor
  · rintro ⟨hperm, -⟩
    have hlength := (hall.symm.trans (hperm.trans hlisted)).length_eq
    simp only [List.length_append, List.length_map, List.length_take] at hlength
    omega
  · intro hrest
    rw [← (map_take_one_iff eventKey rest).mpr hrest] at hlisted
    refine ⟨hall.trans hlisted.symm, fun key hkey => ?_⟩
    have hmem : key ∈ done.map eventKey ++ rest.map eventKey := by
      rcases List.mem_append.mp hkey with hkey | hkey
      · exact List.mem_append_left _ (hrecorded.subset hkey)
      · rw [hpending] at hkey
        exact List.mem_append_right _ ((List.take_sublist 1 rest).map eventKey |>.subset hkey)
    rw [← hkeys] at hmem
    simpa using (List.mem_filter.mp hmem).2

/-- A dry run lists what is reported as pending where the loop has left at most one. -/
lemma Sweep.dryRun_iff {events done rest : List Dict} {s s' : RelayState}
    (hevents : job.events = .ok events) (hnodup : (events.map eventKey).Nodup)
    (h : Sweep job s s' (events.filter fun e => !loadSettled s.db job.ledgerId (eventKey e))
      done rest ⟨[], [], [], none⟩ report) :
    dryRun job s'.db = .ok report.pending ↔ rest.length ≤ 1 := by
  have hkeys := Sweep.keys (fun key => !loadSettled s.db job.ledgerId key) h
  have hapart : ∀ key ∈ rest.map eventKey, key ∉ done.map eventKey := by
    have hnodup' := hnodup.filter fun key => !loadSettled s.db job.ledgerId key
    rw [hkeys] at hnodup'
    exact fun key hrest hdone => List.disjoint_of_nodup_append hnodup' hdone hrest
  have hlisted : (events.map eventKey).filter (fun key => !loadSettled s'.db job.ledgerId key)
      = rest.map eventKey := by
    calc (events.map eventKey).filter (fun key => !loadSettled s'.db job.ledgerId key)
      _ = ((events.map eventKey).filter fun key => !loadSettled s.db job.ledgerId key).filter
            fun key => decide (key ∉ done.map eventKey) := by
          rw [List.filter_filter]
          refine List.filter_congr fun key _ => ?_
          rw [h.table, Bool.not_or, Bool.and_comm, decide_not]
      _ = (done.map eventKey ++ rest.map eventKey).filter
            fun key => decide (key ∉ done.map eventKey) := by rw [hkeys]
      _ = rest.map eventKey := by
          rw [List.filter_append, List.filter_eq_nil_iff.mpr (by simp), List.nil_append]
          exact List.filter_eq_self.mpr fun key hkey => decide_eq_true (hapart key hkey)
  have hdry : dryRun job s'.db = .ok (rest.map eventKey) := by
    rw [dryRun, hevents]
    exact congrArg Except.ok hlisted
  have hpending : report.pending = (rest.take 1).map eventKey := h.pending
  rw [hdry, hpending, Except.ok.injEq, map_take_one_iff]

/-- **The report accounts for every event** exactly when the answers settle every unsettled event
but the last; and where no two events share a key, exactly then a dry run lists what is reported as
pending. -/
theorem drain_accounts_iff {events : List Dict} {s s' : RelayState}
    (hevents : job.events = .ok events)
    (h : (drain job).Does calls (.ok report)) (hran : Ran s calls s') :
    (Accounts (events.map eventKey) (loadSettled s.db job.ledgerId) report
      ↔ job.AllButLast s.db calls)
      ∧ ((events.map eventKey).Nodup →
        (dryRun job s'.db = .ok report.pending ↔ job.AllButLast s.db calls)) := by
  obtain ⟨done, rest, hsweep, hanswers⟩ := drain_sweep hevents h hran
  rw [hanswers]
  exact ⟨hsweep.accounts_iff, fun hkeys => hsweep.dryRun_iff hevents hkeys⟩

end Runtime

section Example

attribute [local instance] cpython stringText

/-- A drain of a ledger with two events, on an empty outbox. -/
def twoEventDrain : DrainJob :=
  { oneEventDrain with
    ledger := .dict [("execution_log", .list <| List.map Event.toVal <|
      appendEvent (appendEvent [] ⟨.taskStarted, .str "T1", .str "2026-06-26T00:00:00+00:00",
        .list [], .none, .none⟩) ⟨.taskStarted, .str "T2", .str "2026-06-26T00:00:01+00:00",
        .list [], .none, .none⟩)] }

/-- A store where nothing is settled. -/
def emptyOutbox : RelayState := ⟨.empty, fun _ => none, 1⟩

/-- The first of two events is answered by a `503`: the drain reports it and stops. -/
lemma twoEventDrain_does : ∃ first second calls, twoEventDrain.events = .ok [first, second]
    ∧ eventKey first ≠ eventKey second ∧ Ran emptyOutbox calls emptyOutbox
    ∧ (drain twoEventDrain).Does calls (.ok ⟨[], [], [eventKey first], none⟩) := by
  have hevents : ∃ first second, twoEventDrain.events = .ok [first, second]
      ∧ eventKey first ≠ eventKey second := by
    have hcheck : (twoEventDrain.events.toOption.any fun events => events.length == 2
        && decide ((events.map eventKey).Nodup)) = true := by
      decide +kernel
    obtain ⟨events, hevents, hgood⟩ := (Option.any_eq_true _ _).mp hcheck
    obtain ⟨hlength, hnodup⟩ := (Bool.and_eq_true _ _).mp hgood
    obtain ⟨first, second, rfl⟩ := List.length_eq_two.mp (beq_iff_eq.mp hlength)
    exact ⟨first, second, eq_ok_of_toOption hevents, by simpa using hnodup⟩
  obtain ⟨first, second, hevents, hne⟩ := hevents
  have hjson := events_json hevents first List.mem_cons_self
  have hdrain : drain twoEventDrain = (do
      let settled ← loadedSettled "LEDGER-1"
      drainFrom twoEventDrain 0 settled [first, second] ⟨[], [], [], none⟩) := by
    rw [drain, hevents]
    rfl
  have hdeliver : deliver first twoEventDrain.maxRetries = deliverFrom first 0 := by
    rw [deliver, hjson]
    rfl
  have hload : (fun _ => false) = loadSettled emptyOutbox.db "LEDGER-1" := rfl
  refine ⟨first, second, oneAttempt first (.ok ⟨503, .empty⟩), hevents, hne, ?_, ?_⟩
  · exact ⟨_, [], ⟨hload, rfl, rfl⟩, _, [], ⟨rfl, rfl⟩, rfl⟩
  · rw [hdrain]
    refine ⟨_, _, rfl, ?_⟩
    change (deliverWithRefresh twoEventDrain 0 first >>= _).Does _ _
    rw [deliverWithRefresh, deliverOnce, hdeliver]
    exact ⟨_, _, rfl, rfl, rfl⟩


/-- One event, answered by a `503`: it is the last, and the report lists it. -/
theorem drain_accounts_of_one : ∃ event calls report,
    (drain oneEventDrain).Does calls (.ok report) ∧ Ran emptyOutbox calls emptyOutbox
      ∧ Accounts [eventKey event] (loadSettled emptyOutbox.db oneEventDrain.ledgerId) report
      ∧ dryRun oneEventDrain emptyOutbox.db = .ok report.pending := by
  obtain ⟨event, hevents, -, report, hdoes, -⟩ := oneEventDrain_does
  have hload : (fun _ => false) = loadSettled emptyOutbox.db "LEDGER-1" := rfl
  have hran : Ran emptyOutbox (oneAttempt event (.ok ⟨503, .empty⟩)) emptyOutbox :=
    ⟨_, [], ⟨hload, rfl, rfl⟩, _, [], ⟨rfl, rfl⟩, rfl⟩
  have hlast : oneEventDrain.AllButLast emptyOutbox.db (oneAttempt event (.ok ⟨503, .empty⟩)) :=
    ⟨0, [event], rfl, hevents, Or.inl rfl⟩
  obtain ⟨haccounts, hdry⟩ := drain_accounts_iff hevents hdoes hran
  exact ⟨event, _, report, hdoes, hran, haccounts.mpr hlast,
    (hdry (List.nodup_singleton _)).mpr hlast⟩

/-- Two events, the first answered by a `503`: the second is in no list, and a dry run lists
both. -/
theorem drain_leaves_out : ¬ ∀ (job : DrainJob) (events : List Dict) (calls : List RelayExchange)
    (report : DrainReport) (s s' : RelayState), job.events = .ok events →
      (events.map eventKey).Nodup → (drain job).Does calls (.ok report) →
        Ran s calls s' → Accounts (events.map eventKey) (loadSettled s.db job.ledgerId) report
          ∨ dryRun job s'.db = .ok report.pending := by
  intro hall
  obtain ⟨first, second, calls, hevents, hne, hran, hdoes⟩ := twoEventDrain_does
  rcases hall _ _ _ _ _ _ hevents (by simpa using hne) hdoes hran with ⟨hperm, -⟩ | hdry
  · have hnone : [eventKey first, eventKey second].filter
      (loadSettled emptyOutbox.db "LEDGER-1") = [] :=
      rfl
    have hlength := hperm.length_eq
    rw [List.map_cons, List.map_cons, List.map_nil, show twoEventDrain.ledgerId
      = "LEDGER-1" from rfl, hnone] at hlength
    exact absurd (show 2 = 1 from hlength) (by omega)
  · have hboth : dryRun twoEventDrain emptyOutbox.db = .ok [eventKey first, eventKey second] := by
      rw [dryRun, hevents]
      rfl
    rw [hboth] at hdry
    cases hdry

end Example

end IplanRunner
