import IplanRunner.Foundation.Alone
import IplanRunner.Relay.Replica

/-!
A drain that is left alone and answered by `202`s makes up for everything before it.

* `Accepting`: a call that returns, a post by a `202`.
* `meets_drain_accepting`: a drain so answered delivers every unsettled event in order.
* `drain_idle`: a drain with nothing unsettled posts nothing and changes nothing.
* `drain_converges`: after any drains, sweeps and crashes one such drain settles every event, and
  the endpoint has recorded everything but the dead letters; another one is idle.
-/

namespace IplanRunner

open Foundation

/-- The call returns, and where it posts an event it is answered by a `202`. -/
def Accepting (x : RelayExchange) : Prop :=
  (∃ a, x.out = .ok a) ∧ ∀ event response, x = ⟨.post event, .ok response⟩ → response.status = 202

/-- Every call is allowed, and answered so. -/
def accepting : Contract Raised RelayOp RelayOp.Res where
  allowed _ _ := True
  expected := Accepting

/-- A call goes on with what it returns. -/
lemma meets_accepting_invoke {α : Type} {op : RelayOp} {f : op.Res → Relay α}
    {past : List RelayExchange} {Q : List RelayExchange → Except Raised α → Prop}
    (h : ∀ a, Accepting ⟨op, .ok a⟩ → (f a).Meets accepting (past ++ [⟨op, .ok a⟩]) Q) :
    (invoke op >>= f).Meets accepting past Q := by
  refine ⟨trivial, fun out hout => ?_⟩
  cases out with
  | ok a => exact h a hout
  | error e =>
      obtain ⟨⟨_, heq⟩, -⟩ := hout
      cases heq

/-- The delivery of an event ends at its first answer. -/
lemma meets_deliverFrom_accepting (event : Dict) (left : ℕ) (past : List RelayExchange) :
    (deliverFrom event left).Meets accepting past fun _ out =>
      ∃ response : Response, out = .ok response ∧ response.status = 202 := by
  cases left with
  | zero =>
      refine ⟨trivial, fun out hout => ?_⟩
      cases out with
      | ok r => exact ⟨r.parsed, rfl, hout.2 event r rfl⟩
      | error e =>
          obtain ⟨⟨_, heq⟩, -⟩ := hout
          cases heq
  | succ left =>
      refine ⟨trivial, fun out hout => ?_⟩
      cases out with
      | ok r =>
          have haccepted : r.status = 202 := hout.2 event r rfl
          change Routine.Meets accepting (if 500 ≤ r.status then _ else _) _ _
          rw [if_neg (by omega)]
          exact ⟨r.parsed, rfl, haccepted⟩
      | error e =>
          obtain ⟨⟨_, heq⟩, -⟩ := hout
          cases heq

section Runtime

variable [PyRuntime] {job : DrainJob} {now : ℤ} {calls : List RelayExchange}
  {events : List Dict} {past : List RelayExchange}

lemma meets_deliver_accepting {event : Dict} (hjson : holdsStamp (.dict event) = false) :
    (deliverWithRefresh job now event).Meets accepting past fun _ out =>
      ∃ outcome : RelayOutcome, out = .ok outcome ∧ outcome.action = .advance := by
  have honce : ∀ past, (deliverOnce job now event).Meets accepting past fun _ out =>
      ∃ outcome : RelayOutcome, out = .ok outcome ∧ outcome.action = .advance := by
    intro past
    rw [deliverOnce, deliver, hjson]
    refine (meets_deliverFrom_accepting event job.maxRetries past).bind ?_ ?_
    · rintro past' response ⟨_, heq, hstatus⟩
      cases heq
      rw [classify, if_pos hstatus]
      exact ⟨_, rfl, rfl⟩
    · rintro past' e ⟨_, heq, -⟩
      cases heq
  refine (honce past).bind ?_ ?_
  · rintro past' outcome ⟨_, heq, hadvance⟩
    cases heq
    rw [if_neg (by rw [hadvance]; simp)]
    exact ⟨outcome, rfl, hadvance⟩
  · rintro past' e ⟨_, heq, -⟩
    cases heq

/-- The loop delivers every event that is not settled. -/
lemma meets_drainFrom_accepting {settled : String → Bool} {report : DrainReport}
    (past : List RelayExchange) (hjson : ∀ event ∈ events, holdsStamp (.dict event) = false) :
    (drainFrom job now settled events report).Meets accepting past fun _ out =>
      out = .ok { report with delivered := report.delivered
        ++ (events.map eventKey).filter fun key => !settled key } := by
  induction events generalizing past report with
  | nil => simp [drainFrom, Routine.Meets]
  | cons event rest ih =>
      have hrest := fun e he => hjson e (List.mem_cons_of_mem _ he)
      rw [drainFrom]
      split_ifs with hsettled
      · rw [List.map_cons, List.filter_cons_of_neg (by simp [hsettled])]
        exact ih past hrest
      · rw [List.map_cons, List.filter_cons_of_pos (by simpa using hsettled)]
        refine (meets_deliver_accepting (hjson event List.mem_cons_self)).bind ?_ ?_
        · rintro past' outcome ⟨_, heq, hadvance⟩
          cases heq
          rw [hadvance]
          refine meets_accepting_invoke fun _ _ => (ih _ hrest).mono fun _ out _ hout => ?_
          rw [hout, List.append_assoc]
          rfl
        · rintro past' e ⟨_, heq, -⟩
          cases heq

/-- A drain that is answered so returns. -/
lemma meets_drain_accepting (hevents : job.events = .ok events) :
    (drain job).Meets accepting [] fun _ out => ∃ report, out = .ok report := by
  have hloop : ∀ stamp past, (do
      let events ← pyLift job.events
      let settled ← loadedSettled job.ledgerId
      drainFrom job stamp settled events ⟨[], [], [], none⟩ : Relay DrainReport).Meets accepting
        past fun _ out => ∃ report, out = .ok report := by
    intro stamp past
    rw [hevents]
    refine meets_accepting_invoke fun settled _ => ?_
    exact (meets_drainFrom_accepting _ (events_json hevents)).mono fun _ _ _ hout => ⟨_, hout⟩
  rw [drain, DrainJob.stamp]
  cases job.now with
  | some stamp => exact hloop stamp []
  | none => exact meets_accepting_invoke fun stamp _ => hloop stamp _

/-! ### Nothing left to do -/

/-- The loop skips what is settled. -/
lemma drainFrom_settled {settled : String → Bool} {report : DrainReport}
    (h : ∀ event ∈ events, settled (eventKey event) = true) :
    drainFrom job now settled events report = pure report := by
  induction events with
  | nil => rfl
  | cons event rest ih =>
      rw [drainFrom, if_pos (h event List.mem_cons_self)]
      exact ih fun e he => h e (List.mem_cons_of_mem _ he)

/-- **A drain of settled events** posts nothing, reports nothing and changes nothing. -/
theorem drain_idle {s s' : RelayState} {report : DrainReport} (hevents : job.events = .ok events)
    (hsettled : ∀ event ∈ events, loadSettled s.db job.ledgerId (eventKey event) = true)
    (h : (drain job).Does calls (.ok report)) (hran : Ran s calls s') :
    report = ⟨[], [], [], none⟩ ∧ s' = s ∧ ∀ x ∈ calls, ∀ event, x.op ≠ .post event := by
  obtain ⟨front, now, events', settled, last, rfl, -, hfront, hevents', hloop⟩ := drain_does h
  obtain rfl : events' = events := Except.ok.inj (hevents'.symm.trans hevents)
  obtain ⟨s₁, hran₁, s₂, jobs, hload, hran₂⟩ := ran_append.mp hran
  obtain rfl : s₁ = s := ran_quiet (fun x hx => Or.inl (hfront x hx)) hran₁
  obtain ⟨rfl, rfl, -⟩ := hload
  rw [drainFrom_settled hsettled] at hloop
  obtain ⟨rfl, heq⟩ := hloop
  cases heq
  refine ⟨rfl, hran₂, fun x hx event heq => ?_⟩
  rcases List.mem_append.mp hx with hx | hx
  · rw [hfront x hx] at heq
    cases heq
  · rw [List.mem_singleton.mp hx] at heq
    cases heq

/-! ### Everything made up for -/

/-- What a drain answered by `202`s leaves: every event is settled. -/
lemma settled_of_accepting {s s' : RelayState} {out : Except Raised DrainReport}
    (hevents : job.events = .ok events) (hdoes : (drain job).Does calls out)
    (hran : Ran s calls s') (haccept : ∀ x ∈ calls, Accepting x) :
    out = .ok ⟨(events.map eventKey).filter fun key => !loadSettled s.db job.ledgerId key, [], [],
        none⟩
      ∧ ∀ event ∈ events, loadSettled s'.db job.ledgerId (eventKey event) = true := by
  obtain ⟨report, rfl⟩ := (meets_drain_accepting hevents).does hdoes haccept
  obtain ⟨done, rest, hsweep, -⟩ := drain_sweep hevents hdoes hran
  obtain ⟨front, now, events', settled, last, rfl, -, hfront, hevents', hloop⟩ := drain_does hdoes
  obtain rfl : events' = events := Except.ok.inj (hevents'.symm.trans hevents)
  have hreport := (meets_drainFrom_accepting [] (events_json hevents)).does hloop
    fun x hx => haccept x (by simp [hx])
  cases hreport
  -- what was loaded is the table
  obtain ⟨s₁, hran₁, s₂, jobs, hload, -⟩ := ran_append.mp hran
  obtain rfl : s₁ = s := ran_quiet (fun x hx => Or.inl (hfront x hx)) hran₁
  obtain ⟨rfl, -, -⟩ := hload
  have hnone : rest = [] := by
    have hpending := hsweep.pending
    cases rest with
    | nil => rfl
    | cons e rest => cases hpending
  have hdone : events'.filter (fun e => !loadSettled s₁.db job.ledgerId (eventKey e)) = done := by
    rw [hsweep.split, hnone, List.append_nil]
  refine ⟨rfl, fun event hevent => ?_⟩
  rw [hsweep.table, Bool.or_eq_true, decide_eq_true_eq, ← hdone]
  by_cases hbefore : loadSettled s₁.db job.ledgerId (eventKey event) = true
  · exact Or.inl hbefore
  · exact Or.inr (List.mem_map_of_mem (List.mem_filter.mpr ⟨hevent, by simpa using hbefore⟩))

variable [SqlText]

/-- Calls are made on the store alone when they are made alone on its platform. -/
lemma alone_iff_ran {deps : ReceiverDeps} {s s' : RelayState} :
    (relayPlatform deps).Alone s calls s' ↔ Ran s calls s' := by
  induction calls generalizing s with
  | nil => exact Iff.rfl
  | cons x calls ih =>
      exact exists_congr fun s₁ => exists_congr fun _ => and_congr_right fun _ => ih

/-- **Such a drain is possible in every state of the store.** -/
theorem exists_accepting_drain (job : DrainJob) (s : RelayState) : ∃ calls out s',
    (drain job).Does calls out ∧ Ran s calls s' ∧ ∀ x ∈ calls, Accepting x := by
  let deps : ReceiverDeps := ⟨"", 0, "", none, 0⟩
  have hanswers : ∀ op, job.calls op → ∀ s, ∃ out s' jobs,
      (relayPlatform deps).effect op s out s' jobs ∧ Accepting ⟨op, out⟩ := by
    intro op hop s
    cases op with
    | now => exact ⟨.ok 0, s, [], ⟨rfl, rfl⟩, ⟨0, rfl⟩, fun _ _ heq => by cases heq⟩
    | post event =>
        refine ⟨.ok ⟨202, .empty⟩, s, [], ⟨rfl, rfl⟩, ⟨_, rfl⟩, fun _ _ heq => ?_⟩
        cases heq
        rfl
    | loadSettled ledgerId =>
        exact ⟨.ok _, s, [], ⟨rfl, rfl, rfl⟩, ⟨_, rfl⟩, fun _ _ heq => by cases heq⟩
    | markSettled ledgerId key =>
        exact ⟨.ok (), _, [], ⟨"", rfl, rfl⟩, ⟨(), rfl⟩, fun _ _ heq => by cases heq⟩
    | deadLetter ledgerId event reason =>
        exact ⟨.ok (), _, [], ⟨"", rfl, rfl⟩, ⟨(), rfl⟩, fun _ _ heq => by cases heq⟩
    | _ => exact hop.elim
  obtain ⟨calls, out, s', hdoes, halone, haccept⟩ :=
    Platform.exists_alone hanswers (only_drain job) s
  exact ⟨calls, out, s', hdoes, alone_iff_ran.mp halone, haccept⟩

variable {deps : ReceiverDeps} {P P₀ : RelayPool} {trail : List RelayChange} {R : RelayedLedger}
  {log : List Dict}

/-- **A drain makes up for everything before it.**  After any drains and sweeps of a ledger, from an
empty outbox, in any order, with any answers and any crashes, a drain of all its events may be left
alone and answered by `202`s; and whenever it is, it returns, reports the unsettled events as
delivered, in order, and nothing else, and settles every event.  Behind it the endpoint has recorded
every event but the dead letters, each once and in order, and a further drain posts nothing and
changes nothing. -/
theorem drain_converges (h : (relayPlatform deps).Run P₀ trail P) (hstart : P₀.threads = [])
    (hempty : ∀ key, P₀.shared.db.delivery (R.ledgerId, key) = none)
    (hjobs : ∀ c ∈ trail, ∀ job, c.move = .start job → Relays R job)
    (hlog : Endpoint [] trail log) (hledger : job.ledgerId = R.ledgerId)
    (hevents : job.events = .ok R.events) :
    (∃ calls out s', (drain job).Does calls out ∧ Ran P.shared calls s'
        ∧ ∀ x ∈ calls, Accepting x)
      ∧ ∀ calls out s', (drain job).Does calls out → Ran P.shared calls s' →
        (∀ x ∈ calls, Accepting x) →
        out = .ok ⟨(R.events.map eventKey).filter fun key =>
            !loadSettled P.shared.db R.ledgerId key, [], [], none⟩
        ∧ (∀ event ∈ R.events, loadSettled s'.db R.ledgerId (eventKey event) = true)
        ∧ (∃ more P', (relayPlatform deps).Run P more P' ∧ P'.shared = s'
          ∧ more.map Change.move = .start (.drain job) :: calls.map (.call P.threads.length)
          ∧ ∀ log', Endpoint log more log' →
            (log'.filter fun e => !deadLettered s'.db R.ledgerId (eventKey e))
              = R.events.filter fun e => !deadLettered s'.db R.ledgerId (eventKey e))
        ∧ ∀ again report s'', (drain job).Does again (.ok report) → Ran s' again s'' →
          report = ⟨[], [], [], none⟩ ∧ s'' = s' ∧ ∀ x ∈ again, ∀ event, x.op ≠ .post event := by
  refine ⟨exists_accepting_drain job P.shared, fun calls out s' hdoes hran haccept => ?_⟩
  obtain ⟨rfl, hsettled⟩ := settled_of_accepting hevents hdoes hran haccept
  rw [hledger] at hsettled
  refine ⟨by rw [hledger], hsettled, ?_, fun again report s'' hagain hran' =>
    drain_idle hevents (by rwa [hledger]) hagain hran'⟩
  have hbody : ((relayPlatform deps).body (.drain job)).Does calls (.ok ()) :=
    Routine.does_bind.mpr (Or.inr ⟨calls, [], _, (List.append_nil _).symm, hdoes, rfl, rfl⟩)
  obtain ⟨more, P', hmore, rfl, hmoves⟩ :=
    (alone_iff_ran.mpr hran).run (fun payload heq => by cases heq) hbody
  refine ⟨more, P', hmore, rfl, hmoves, fun log' hlog' => ?_⟩
  have hjobs' : ∀ c ∈ trail ++ more, ∀ started, c.move = .start started → Relays R started := by
    intro c hc started hm
    rcases List.mem_append.mp hc with hc | hc
    · exact hjobs c hc started hm
    · have hmove : c.move ∈ more.map Change.move := List.mem_map_of_mem hc
      rw [hmoves, hm, List.mem_cons] at hmove
      rcases hmove with heq | hmove
      · cases heq
        exact Or.inl ⟨job, rfl, hledger, fun events' hevents' => by
          rw [Except.ok.inj (hevents'.symm.trans hevents)]⟩
      · obtain ⟨x, -, heq⟩ := List.mem_map.mp hmove
        cases heq
  obtain ⟨-, -, hP⟩ := replicating_run (Platform.run_append.mpr ⟨P, h, hmore⟩) hstart hempty
    hjobs' (endpoint_append.mpr ⟨log, hlog, hlog'⟩)
  exact hP.replica.complete R.keys_nodup fun e he => hP.rows e he (hsettled e he)

end Runtime

section Example

attribute [local instance] cpython stringText

/-- The answer of the first event is lost, and a second drain is killed behind it. -/
def lostDelivery : List (Cue RelayJob RelayChoice) :=
  [.start (.drain twoEventDrain), .call 0 .ok, .call 0 (.raise .osError),
    .start (.drain twoEventDrain), .call 1 .ok, .call 1 .ok, .kill 1]

/-- After a lost answer and a killed drain a third one delivers both events. -/
theorem drain_converges_of_lost : ∃ (R : RelayedLedger) (trail : List RelayChange) (P : RelayPool)
    (calls : List RelayExchange) (s' : RelayState), R.events.length = 2
      ∧ (relayPlatform scriptDeps).Run freshPool trail P
      ∧ (drain twoEventDrain).Does calls (.ok ⟨R.events.map eventKey, [], [], none⟩)
      ∧ ∀ event ∈ R.events, loadSettled s'.db R.ledgerId (eventKey event) = true := by
  obtain ⟨R, hlength, hledger, hevents⟩ := exists_twoEventLedger
  have hplayed : ((relayAnswers scriptDeps).play freshPool lostDelivery).any (fun r =>
      decide (∀ key ∈ (twoEventDrain.events.toOption.getD []).map eventKey,
        loadSettled r.2.shared.db "LEDGER-1" key = false)) = true := by decide +kernel
  obtain ⟨⟨trail, P⟩, hplay, hfresh⟩ := (Option.any_eq_true _ _).mp hplayed
  have hrun := AnswerBook.play_run _ hplay
  have hjobs := relays_of_starts hledger hevents hplay (by simp [lostDelivery])
  obtain ⟨⟨calls, out, s', hdoes, hran, haccept⟩, hall⟩ :=
    drain_converges hrun rfl (fun _ => rfl) hjobs (endpoint_eager [] trail) hledger hevents
  obtain ⟨rfl, hsettled, -⟩ := hall calls out s' hdoes hran haccept
  have hunsettled : (R.events.map eventKey).filter
      (fun key => !loadSettled P.shared.db R.ledgerId key) = R.events.map eventKey := by
    have hnone := of_decide_eq_true hfresh
    rw [hevents] at hnone
    refine List.filter_eq_self.mpr fun key hkey => ?_
    rw [← hledger, show twoEventDrain.ledgerId = "LEDGER-1" from rfl, hnone key hkey]
    rfl
  rw [hunsettled] at hdoes
  exact ⟨R, trail, P, calls, s', hlength, hrun, hdoes, hsettled⟩

end Example

end IplanRunner
