import IplanRunner.Foundation.Along
import IplanRunner.Receiver.Script

/-!
At-least-once, in-order relay of one ledger.

* `RelayedLedger`: a ledger with a verified chain, its identity, and the events they project to.
* `DrainJob.Outcome`, `DrainJob.Stopped`, `DrainJob.GivenUp`: what the calls of a drain say about an
  event; `inOrder`: a drain posts and settles an event once its predecessors are settled, and stops
  at the first that has to wait (`meets_drain`).
* `InStep`: what the drains know is in the table, and the table is a prefix of the events.
-/

namespace IplanRunner

open Foundation

/-! ### One ledger -/

section Runtime

variable [PyRuntime]

/-- A ledger with a verified chain, and the events it projects to under an identity; no two texts
hashed in its log share a digest. -/
structure RelayedLedger where
  ledgerId : String
  doc : Val
  entries : Val
  log : List Val
  identity : Dict
  key : String
  keyId : Val
  events : List Dict
  entries_eq : doc.get "execution_log" (.list []) = .ok entries
  log_eq : entries.iter = .ok log
  verified : verifyChain log = .ok true
  distinct : ∀ p ∈ payloads log, ∀ q ∈ payloads log,
    PyRuntime.sha256 p = PyRuntime.sha256 q → p = q
  projected : toExecutionEvents doc identity key keyId = .ok events

lemma RelayedLedger.keys_nodup (R : RelayedLedger) : (R.events.map eventKey).Nodup :=
  IplanRunner.keys_nodup R.entries_eq R.log_eq R.verified R.distinct R.projected

/-- The drain is one of this ledger: it projects a prefix of the events, if it projects at all. -/
def DrainJob.On (D : DrainJob) (R : RelayedLedger) : Prop :=
  D.ledgerId = R.ledgerId ∧ ∀ events, D.events = .ok events → events <+: R.events

/-! ### What a drain has done -/

/-- The answer of the clock. -/
def clockAnswer : RelayExchange → Option ℤ
  | ⟨.now, .ok now⟩ => some now
  | _ => none

/-- The moment a drain takes for its own. -/
def DrainJob.stamped (D : DrainJob) (past : List RelayExchange) : Option ℤ :=
  match D.now with
  | some now => some now
  | none => past.findSome? clockAnswer

/-- The attempts to deliver an event. -/
def attempts (past : List RelayExchange) (event : Dict) : List RelayExchange :=
  past.filter fun x => x.op = .post event

/-- The delivery of an event has ended with an outcome. -/
def DrainJob.Outcome (D : DrainJob) (past : List RelayExchange) (event : Dict)
    (outcome : RelayOutcome) : Prop :=
  ∃ now, D.stamped past = some now
    ∧ (deliverWithRefresh D now event).Does (attempts past event) (.ok outcome)

/-- The delivery of an event has ended in `retry` or `halt`. -/
def DrainJob.Stopped (D : DrainJob) (past : List RelayExchange) : Prop :=
  ∃ event outcome, D.Outcome past event outcome
    ∧ (outcome.action = .retry ∨ outcome.action = .halt)

/-- A `202` has answered an attempt to deliver the event. -/
def Accepted (past : List RelayExchange) (event : Dict) : Prop :=
  ∃ response, ⟨.post event, .ok response⟩ ∈ past ∧ response.status = 202

/-- The delivery of an event has ended in a dead letter, and its last answer gives the event up. -/
def DrainJob.GivenUp (D : DrainJob) (past : List RelayExchange) (event : Dict) (reason : String) :
    Prop :=
  D.Outcome past event ⟨.deadLetter, reason⟩ ∧ ∃ now front response, D.stamped past = some now
    ∧ attempts past event = front ++ [⟨.post event, .ok response⟩]
    ∧ GivesUp response.parsed event now D.maxAgeS

/-- The key has been read from the table of the ledger, or settled there. -/
def SettledIn (ledgerId : String) (past : List RelayExchange) (key : String) : Prop :=
  (∃ settled, ⟨.loadSettled ledgerId, .ok settled⟩ ∈ past ∧ settled key = true)
    ∨ ⟨.markSettled ledgerId key, .ok ()⟩ ∈ past
    ∨ ∃ event reason, ⟨.deadLetter ledgerId event reason, .ok ()⟩ ∈ past ∧ eventKey event = key

/-- The predecessors of an event have been read or settled. -/
def Due (R : RelayedLedger) (past : List RelayExchange) (event : Dict) : Prop :=
  ∃ before after, R.events = before ++ event :: after
    ∧ ∀ e ∈ before, SettledIn R.ledgerId past (eventKey e)

/-- What a drain may call: it works at an event whose predecessors are settled, marks what a `202`
has answered, and gives up what has been given up. -/
def DrainJob.MayCall (D : DrainJob) (R : RelayedLedger) (past : List RelayExchange) :
    RelayOp → Prop
  | .now => True
  | .loadSettled ledgerId => ledgerId = R.ledgerId
  | .post event => Due R past event
  | .markSettled ledgerId key => ledgerId = R.ledgerId
      ∧ ∃ event, eventKey event = key ∧ Due R past event ∧ Accepted past event
  | .deadLetter ledgerId event reason => ledgerId = R.ledgerId
      ∧ Due R past event ∧ D.GivenUp past event reason
  | _ => False

/-- **The contract of the drains of a ledger**: they relay in order, and once stopped they call
nothing. -/
def inOrder (R : RelayedLedger) (job : RelayJob) : Contract Raised RelayOp RelayOp.Res where
  allowed past op := ∀ D, job = .drain D → D.On R → D.MayCall R past op ∧ ¬ D.Stopped past
  expected _ := True

/-! ### The delivery of one event -/

variable {D : DrainJob} {past calls : List RelayExchange} {event : Dict} {now : ℤ}

omit [PyRuntime] in
/-- A delivery that returns ends with an answer. -/
lemma deliverFrom_does {left : ℕ} {response : Response}
    (h : (deliverFrom event left).Does calls (.ok response)) :
    ∃ front r, calls = front ++ [⟨.post event, .ok r⟩] ∧ response = r.parsed := by
  induction left generalizing calls with
  | zero =>
      rw [deliverFrom, post, invoke, Routine.does_resume] at h
      obtain ⟨first, rest, out, rfl, ⟨out', rest', rfl, rfl, rfl⟩, h⟩ := h
      cases out with
      | error e => cases h.2
      | ok r =>
          obtain ⟨rfl, heq⟩ := h
          cases heq
          exact ⟨[], r, rfl, rfl⟩
  | succ left ih =>
      rw [deliverFrom, post, invoke, Routine.does_resume] at h
      obtain ⟨first, rest, out, rfl, ⟨out', rest', rfl, rfl, rfl⟩, h⟩ := h
      have hagain : (deliverFrom event left).Does rest (.ok response) →
          ∃ front r, [⟨.post event, out⟩] ++ rest = front ++ [⟨.post event, .ok r⟩]
            ∧ response = r.parsed := by
        intro hrest
        obtain ⟨front, r, rfl, hr⟩ := ih hrest
        exact ⟨⟨.post event, out⟩ :: front, r, rfl, hr⟩
      cases out with
      | error e =>
          dsimp only at h
          split_ifs at h
          · exact hagain h
          · cases h.2
      | ok r =>
          dsimp only at h
          split_ifs at h
          · exact hagain h
          · obtain ⟨rfl, heq⟩ := h
            cases heq
            exact ⟨[], r, rfl, rfl⟩

/-- The outcome of an attempt is the one of its last answer. -/
lemma deliverOnce_does {outcome : RelayOutcome}
    (h : (deliverOnce D now event).Does calls (.ok outcome)) :
    ∃ front r, calls = front ++ [⟨.post event, .ok r⟩]
      ∧ classify r.parsed event now D.maxAgeS = .ok outcome := by
  obtain ⟨first, rest, response, rfl, hfirst, hrest⟩ := Routine.does_bind_ok.mp h
  rw [deliver] at hfirst
  split_ifs at hfirst
  · cases hfirst.2
  · obtain ⟨front, r, rfl, rfl⟩ := deliverFrom_does hfirst
    obtain ⟨rfl, hclassify⟩ := does_pyLift hrest
    exact ⟨front, r, by rw [List.append_nil], hclassify⟩

/-- **The outcome of an event is the one of its last answer**, but for a second `401`, which
halts. -/
lemma deliverWithRefresh_does {outcome : RelayOutcome}
    (h : (deliverWithRefresh D now event).Does calls (.ok outcome)) :
    ∃ front r, calls = front ++ [⟨.post event, .ok r⟩]
      ∧ (classify r.parsed event now D.maxAgeS = .ok outcome ∨ outcome.action = .halt) := by
  obtain ⟨first, rest, once, rfl, hfirst, hrest⟩ := Routine.does_bind_ok.mp h
  split_ifs at hrest with hrefresh
  · obtain ⟨second, rest', again, rfl, hsecond, hend⟩ := Routine.does_bind_ok.mp hrest
    obtain ⟨front, r, rfl, hclassify⟩ := deliverOnce_does hsecond
    split_ifs at hend
    · obtain ⟨rfl, heq⟩ := hend
      cases heq
      exact ⟨first ++ front, r, by simp, Or.inr rfl⟩
    · obtain ⟨rfl, heq⟩ := hend
      cases heq
      exact ⟨first ++ front, r, by simp, Or.inl hclassify⟩
  · obtain ⟨rfl, heq⟩ := hrest
    cases heq
    obtain ⟨front, r, rfl, hclassify⟩ := deliverOnce_does hfirst
    exact ⟨front, r, by simp, Or.inl hclassify⟩

/-! ### The attempts so far -/

omit [PyRuntime] in
lemma attempts_append_posts (h : ∀ x ∈ calls, x.op = .post event) :
    attempts (past ++ calls) event = attempts past event ++ calls := by
  rw [attempts, List.filter_append]
  congr 1
  exact List.filter_eq_self.mpr fun x hx => decide_eq_true (h x hx)

omit [PyRuntime] in
lemma attempts_append_others (h : ∀ x ∈ calls, x.op ≠ .post event) :
    attempts (past ++ calls) event = attempts past event := by
  have hnone : calls.filter (fun x => x.op = .post event) = [] :=
    List.filter_eq_nil_iff.mpr fun x hx => by simpa using h x hx
  rw [attempts, List.filter_append, hnone, List.append_nil, attempts]

omit [PyRuntime] in
lemma stamped_append (h : D.stamped past = some now) : D.stamped (past ++ calls) = some now := by
  rw [DrainJob.stamped] at h ⊢
  split at h
  · exact h
  · rw [List.findSome?_append, h]
    rfl

/-- An event that has not been attempted has no outcome. -/
lemma not_outcome_of_untried {outcome : RelayOutcome} (h : attempts past event = []) :
    ¬ D.Outcome past event outcome := by
  rintro ⟨now, -, hdoes⟩
  obtain ⟨front, r, hcalls, -⟩ := deliverWithRefresh_does hdoes
  rw [h] at hcalls
  simp at hcalls

/-- Calls that do not post an event do not change its outcome. -/
lemma outcome_of_append {outcome : RelayOutcome} (hstamp : D.stamped past = some now)
    (hothers : ∀ x ∈ calls, x.op ≠ .post event) (h : D.Outcome (past ++ calls) event outcome) :
    D.Outcome past event outcome := by
  obtain ⟨now', hnow', hdoes⟩ := h
  rw [stamped_append hstamp, Option.some.injEq] at hnow'
  subst hnow'
  rw [attempts_append_others hothers] at hdoes
  exact ⟨now, hstamp, hdoes⟩

variable {R : RelayedLedger}

omit [PyRuntime] in
lemma SettledIn.append {ledgerId key : String} (h : SettledIn ledgerId past key) :
    SettledIn ledgerId (past ++ calls) key := by
  rcases h with ⟨settled, hload, hkey⟩ | hmark | ⟨e, reason, hdead, hkey⟩
  · exact Or.inl ⟨settled, List.mem_append_left _ hload, hkey⟩
  · exact Or.inr (Or.inl (List.mem_append_left _ hmark))
  · exact Or.inr (Or.inr ⟨e, reason, List.mem_append_left _ hdead, hkey⟩)

lemma Due.append (h : Due R past event) : Due R (past ++ calls) event := by
  obtain ⟨before, after, hevents, hbefore⟩ := h
  exact ⟨before, after, hevents, fun e he => (hbefore e he).append⟩

/-! ### The loop -/

/-- A drain that goes on, between the events it has seen and those that are left. -/
structure Relaying (D : DrainJob) (R : RelayedLedger) (past : List RelayExchange) (now : ℤ)
    (settled : String → Bool) (seen rest : List Dict) : Prop where
  events : seen ++ rest <+: R.events
  stamp : D.stamped past = some now
  loaded : ⟨.loadSettled R.ledgerId, .ok settled⟩ ∈ past
  reached : ∀ e ∈ seen, SettledIn R.ledgerId past (eventKey e)
  untried : ∀ e ∈ rest, attempts past e = []
  going : ¬ D.Stopped past

variable {settled : String → Bool} {seen rest : List Dict}

lemma Relaying.due (h : Relaying D R past now settled seen (event :: rest)) : Due R past event := by
  obtain ⟨more, hevents⟩ := h.events
  exact ⟨seen, rest ++ more, by rw [← hevents]; simp, h.reached⟩

/-- An event is left once. -/
lemma Relaying.event_notMem (h : Relaying D R past now settled seen (event :: rest)) :
    event ∉ rest := by
  intro hmem
  have hnodup := (h.events.map eventKey).sublist.nodup R.keys_nodup
  rw [List.map_append, List.map_cons] at hnodup
  have hrest := (List.nodup_append.mp hnodup).2.1
  exact (List.nodup_cons.mp hrest).1 (List.mem_map_of_mem hmem)

/-- A drain goes on while it delivers an event. -/
lemma Relaying.going_of_comes {op : RelayOp}
    (h : Relaying D R past now settled seen (event :: rest))
    (hposts : ∀ x ∈ calls, x.op = .post event)
    (hcomes : (deliverWithRefresh D now event).Comes calls op) : ¬ D.Stopped (past ++ calls) := by
  rintro ⟨e, outcome, houtcome, hwaits⟩
  by_cases heq : e = event
  · subst heq
    obtain ⟨now', hnow', hdoes⟩ := houtcome
    rw [stamped_append h.stamp, Option.some.injEq] at hnow'
    subst hnow'
    rw [attempts_append_posts hposts, h.untried e List.mem_cons_self, List.nil_append] at hdoes
    exact hdoes.not_comes (show Routine.Comes _ (calls ++ []) op by rwa [List.append_nil])
  · refine h.going ⟨e, outcome, outcome_of_append h.stamp (fun x hx hpost => heq ?_) houtcome,
      hwaits⟩
    rw [hposts x hx] at hpost
    injection hpost with hpost
    exact hpost.symm

/-- The outcome of the event that has been delivered. -/
lemma Relaying.outcome {outcome : RelayOutcome}
    (h : Relaying D R past now settled seen (event :: rest))
    (hdoes : (deliverWithRefresh D now event).Does calls (.ok outcome)) :
    D.Outcome (past ++ calls) event outcome := by
  have hposts := (only_deliverWithRefresh D now event).does hdoes
  refine ⟨now, stamped_append h.stamp, ?_⟩
  rwa [attempts_append_posts hposts, h.untried event List.mem_cons_self, List.nil_append]

/-- A drain goes on when it has advanced an event or given it up. -/
lemma Relaying.going_of_does {outcome : RelayOutcome}
    (h : Relaying D R past now settled seen (event :: rest))
    (hdoes : (deliverWithRefresh D now event).Does calls (.ok outcome))
    (hgoes : outcome.action ≠ .retry ∧ outcome.action ≠ .halt) : ¬ D.Stopped (past ++ calls) := by
  have hposts := (only_deliverWithRefresh D now event).does hdoes
  rintro ⟨e, outcome', houtcome, hwaits⟩
  by_cases heq : e = event
  · subst heq
    obtain ⟨now', hnow', hdoes'⟩ := houtcome
    rw [stamped_append h.stamp, Option.some.injEq] at hnow'
    subst hnow'
    rw [attempts_append_posts hposts, h.untried e List.mem_cons_self, List.nil_append] at hdoes'
    obtain ⟨-, hsame⟩ := hdoes.unique hdoes' (show calls ++ [] = calls ++ [] from rfl)
    cases hsame
    rcases hwaits with hwaits | hwaits
    · exact hgoes.1 hwaits
    · exact hgoes.2 hwaits
  · refine h.going ⟨e, outcome', outcome_of_append h.stamp (fun x hx hpost => heq ?_) houtcome,
      hwaits⟩
    rw [hposts x hx] at hpost
    injection hpost with hpost
    exact hpost.symm

/-- A drain that has settled its event goes on with the next one. -/
lemma Relaying.next {outcome : RelayOutcome} {x : RelayExchange}
    (h : Relaying D R past now settled seen (event :: rest))
    (hdoes : (deliverWithRefresh D now event).Does calls (.ok outcome))
    (hgoes : outcome.action ≠ .retry ∧ outcome.action ≠ .halt)
    (hx : ∀ e, x.op ≠ .post e)
    (hsettles : SettledIn R.ledgerId [x] (eventKey event)) :
    Relaying D R (past ++ calls ++ [x]) now settled (seen ++ [event]) rest := by
  have hposts := (only_deliverWithRefresh D now event).does hdoes
  have hstamp : D.stamped (past ++ calls) = some now := stamped_append h.stamp
  have hlast : ∀ e, ∀ y ∈ [x], y.op ≠ .post e := by
    intro e y hy
    rw [List.mem_singleton] at hy
    rw [hy]
    exact hx e
  refine ⟨?_, stamped_append hstamp, ?_, ?_, ?_, ?_⟩
  · rw [List.append_assoc]
    exact h.events
  · rw [List.append_assoc]
    exact List.mem_append_left _ h.loaded
  · intro e he
    rcases List.mem_append.mp he with hin | hin
    · exact (h.reached e hin).append.append
    · rw [List.mem_singleton] at hin
      subst hin
      rcases hsettles with ⟨f, hload, hkey⟩ | hmark | ⟨e', reason, hdead, hkey⟩
      · exact Or.inl ⟨f, List.mem_append_right _ hload, hkey⟩
      · exact Or.inr (Or.inl (List.mem_append_right _ hmark))
      · exact Or.inr (Or.inr ⟨e', reason, List.mem_append_right _ hdead, hkey⟩)
  · intro e he
    rw [attempts_append_others (hlast e), attempts_append_others,
      h.untried e (List.mem_cons_of_mem _ he)]
    intro y hy hpost
    rw [hposts y hy] at hpost
    injection hpost with hpost
    exact h.event_notMem (hpost ▸ he)
  · rintro ⟨e, outcome', houtcome, hwaits⟩
    exact h.going_of_does hdoes hgoes ⟨e, outcome', outcome_of_append hstamp (hlast e) houtcome,
      hwaits⟩

/-- A drain goes on past an event that was settled when it read the table. -/
lemma Relaying.skip (h : Relaying D R past now settled seen (event :: rest))
    (hsettled : settled (eventKey event) = true) :
    Relaying D R past now settled (seen ++ [event]) rest := by
  refine ⟨?_, h.stamp, h.loaded, ?_, ?_, h.going⟩
  · rw [List.append_assoc]
    exact h.events
  · intro e he
    rcases List.mem_append.mp he with hin | hin
    · exact h.reached e hin
    · rw [List.mem_singleton] at hin
      subst hin
      exact Or.inl ⟨settled, h.loaded, hsettled⟩
  · exact fun e he => h.untried e (List.mem_cons_of_mem _ he)

/-- What a drain may call while it goes on. -/
lemma inOrder_allowed {op : RelayOp} (hcall : D.MayCall R past op) (hgoing : ¬ D.Stopped past) :
    (inOrder R (.drain D)).allowed past op := by
  rintro D' heq -
  cases heq
  exact ⟨hcall, hgoing⟩

/-- The last answer of an event that has been delivered. -/
lemma Relaying.answer {outcome : RelayOutcome}
    (h : Relaying D R past now settled seen (event :: rest))
    (hdoes : (deliverWithRefresh D now event).Does calls (.ok outcome))
    (hgoes : outcome.action ≠ .halt) :
    ∃ front r, attempts (past ++ calls) event = front ++ [⟨.post event, .ok r⟩]
      ∧ ⟨.post event, .ok r⟩ ∈ past ++ calls
        ∧ classify r.parsed event now D.maxAgeS = .ok outcome := by
  have hposts := (only_deliverWithRefresh D now event).does hdoes
  obtain ⟨front, r, rfl, hanswer⟩ := deliverWithRefresh_does hdoes
  refine ⟨front, r, ?_, by simp, hanswer.resolve_right hgoes⟩
  rw [attempts_append_posts hposts, h.untried event List.mem_cons_self, List.nil_append]

/-- The loop of a drain keeps the contract. -/
lemma meets_drainFrom {report : DrainReport} (hledger : D.ledgerId = R.ledgerId)
    (h : Relaying D R past now settled seen rest) :
    (drainFrom D now settled rest report).Meets (inOrder R (.drain D)) past fun _ _ => True := by
  induction rest generalizing past seen report with
  | nil => exact trivial
  | cons event rest ih =>
      rw [drainFrom]
      split_ifs with hsettled
      · exact ih (h.skip hsettled)
      · have hposts := only_deliverWithRefresh D now event
        refine Routine.Meets.bind (Routine.meets_of_comes fun calls op hcomes => ?_) ?_ ?_
        · obtain ⟨hop, hcalls⟩ := hposts.comes hcomes
          subst hop
          exact inOrder_allowed h.due.append (h.going_of_comes hcalls hcomes)
        · rintro past' outcome ⟨calls, rfl, hdoes⟩
          split
          · rename_i haction
            have hgoes : outcome.action ≠ .retry ∧ outcome.action ≠ .halt := by
              rw [haction]
              exact ⟨by decide, by decide⟩
            obtain ⟨front, r, -, hmem, hclassify⟩ := h.answer hdoes hgoes.2
            have haccepted : Accepted (past ++ calls) event :=
              ⟨r, hmem, classify_advance hclassify haction⟩
            rw [hledger, invoke, Routine.meets_bind, Routine.meets_perform]
            refine ⟨inOrder_allowed ⟨rfl, event, rfl, h.due.append, haccepted⟩
              (h.going_of_does hdoes hgoes), fun out _ => ?_⟩
            cases out with
            | error e => exact trivial
            | ok _ =>
                refine ih (h.next hdoes hgoes (fun e => by simp) (Or.inr (Or.inl ?_)))
                exact List.mem_singleton_self _
          · rename_i haction
            have hgoes : outcome.action ≠ .retry ∧ outcome.action ≠ .halt := by
              rw [haction]
              exact ⟨by decide, by decide⟩
            obtain ⟨front, r, hattempts, -, hclassify⟩ := h.answer hdoes hgoes.2
            have hgiven : D.GivenUp (past ++ calls) event outcome.reason := by
              refine ⟨?_, now, front, r, stamped_append h.stamp, hattempts,
                classify_deadLetter hclassify haction⟩
              have houtcome := h.outcome hdoes
              rwa [show outcome = ⟨.deadLetter, outcome.reason⟩ from by rw [← haction]] at houtcome
            rw [hledger, invoke, Routine.meets_bind, Routine.meets_perform]
            refine ⟨inOrder_allowed ⟨rfl, h.due.append, hgiven⟩ (h.going_of_does hdoes hgoes),
              fun out _ => ?_⟩
            cases out with
            | error e => exact trivial
            | ok _ =>
                refine ih (h.next hdoes hgoes (fun e => by simp) (Or.inr (Or.inr ?_)))
                exact ⟨event, outcome.reason, List.mem_singleton_self _, rfl⟩
          · exact trivial
          · exact trivial
        · exact fun _ _ _ => trivial

/-- A drain that has not attempted anything has not stopped. -/
lemma not_stopped_of_untried (h : ∀ e, attempts past e = []) : ¬ D.Stopped past := by
  rintro ⟨e, outcome, houtcome, -⟩
  exact not_outcome_of_untried (h e) houtcome

/-- **A drain of the ledger keeps the contract.** -/
theorem meets_drain (hon : D.On R) :
    (drain D).Meets (inOrder R (.drain D)) [] fun _ _ => True := by
  have hstamp : D.stamp.Meets (inOrder R (.drain D)) [] fun past' out =>
      (∀ e, attempts past' e = []) ∧ ∀ now, out = .ok now → D.stamped past' = some now := by
    have huntried : ∀ e, attempts [] e = [] := fun e => rfl
    rw [DrainJob.stamp]
    split
    · rename_i now hnow
      refine ⟨huntried, fun now' hnow' => ?_⟩
      cases hnow'
      rw [DrainJob.stamped, hnow]
    · rename_i hnow
      refine ⟨inOrder_allowed trivial (not_stopped_of_untried huntried), fun out _ => ⟨?_, ?_⟩⟩
      · intro e
        rw [attempts_append_others (by simp)]
        exact huntried e
      · rintro now rfl
        rw [DrainJob.stamped, hnow]
        rfl
  refine hstamp.bind (fun past' now hpast => ?_) (fun _ _ _ => trivial)
  obtain ⟨huntried, hnow⟩ := hpast
  cases hevents : D.events with
  | error e => exact trivial
  | ok events =>
      have hload : D.MayCall R past' (.loadSettled D.ledgerId) := hon.1
      refine ⟨inOrder_allowed hload (not_stopped_of_untried huntried), fun out _ => ?_⟩
      cases out with
      | error e => exact trivial
      | ok settled =>
          have hagain : ∀ e,
            attempts (past' ++ [⟨.loadSettled D.ledgerId, .ok settled⟩]) e = [] := by
            intro e
            rw [attempts_append_others (by simp), huntried e]
          have hbegun : Relaying D R (past' ++ [⟨.loadSettled D.ledgerId, .ok settled⟩]) now settled
              [] events := by
            refine ⟨hon.2 events hevents, stamped_append (hnow now rfl), ?_, by simp,
              fun e _ => hagain e, not_stopped_of_untried hagain⟩
            rw [hon.1]
            exact List.mem_append_right _ (List.mem_singleton_self _)
          exact meets_drainFrom hon.1 hbegun

variable [SqlText] {deps : ReceiverDeps}

lemma meets_drainBody (job : RelayJob) :
    (jobBody deps job).Meets (inOrder R job) [] fun _ _ => True := by
  by_cases hon : ∃ D, job = .drain D ∧ D.On R
  · obtain ⟨D, rfl, hD⟩ := hon
    exact (meets_drain hD).bind (fun _ _ _ => trivial) (fun _ _ _ => trivial)
  · refine (Routine.meets_of_comes fun calls op _ D heq hD => ?_).mono fun _ _ _ _ => trivial
    exact absurd ⟨D, heq, hD⟩ hon

/-! ### The table -/

/-- Where a row of the table may come from: a `202`, or an event that has been given up. -/
def DrainJob.Backs (D : DrainJob) (past : List RelayExchange) (event : Dict) (row : DeliveryRow) :
    Prop :=
  row.status = .delivered ∧ Accepted past event
    ∨ row.status = .deadLettered ∧ row.event = some event
      ∧ ∃ reason, row.reason = some reason ∧ D.GivenUp past event reason

omit [SqlText] [PyRuntime] in
/-- A call that raised settles nothing. -/
lemma not_settledIn_error {op : RelayOp} {e : Raised} {ledgerId key : String} :
    ¬ SettledIn ledgerId [⟨op, .error e⟩] key := by
  rintro (⟨f, hin, -⟩ | hin | ⟨e', reason, hin, -⟩)
  · rw [List.mem_singleton, Exchange.mk.injEq] at hin
    obtain ⟨rfl, hout⟩ := hin
    cases eq_of_heq hout
  · rw [List.mem_singleton, Exchange.mk.injEq] at hin
    obtain ⟨rfl, hout⟩ := hin
    cases eq_of_heq hout
  · rw [List.mem_singleton, Exchange.mk.injEq] at hin
    obtain ⟨rfl, hout⟩ := hin
    cases eq_of_heq hout

omit [SqlText] in
/-- **What a call of a drain does**: it leaves the table and learns nothing but what is there, or it
settles an event that is due. -/
lemma effect_mayCall {op : RelayOp} {s s' : RelayState} {out : Except Raised op.Res}
    {jobs : List RelayJob} (hcall : D.MayCall R past op) (h : op.effect s out s' jobs) :
    jobs = [] ∧ (s'.db.delivery = s.db.delivery
        ∧ (∀ key, SettledIn R.ledgerId [⟨op, out⟩] key → loadSettled s.db R.ledgerId key = true)
      ∨ ∃ event row, Due R past event
        ∧ s'.db.delivery
          = Function.update s.db.delivery (R.ledgerId, eventKey event) (some row)
        ∧ (s.db.delivery (R.ledgerId, eventKey event) = some row ∨ D.Backs past event row)
        ∧ ∀ key, SettledIn R.ledgerId [⟨op, out⟩] key → key = eventKey event) := by
  cases out with
  | error e =>
      obtain ⟨-, rfl, rfl⟩ := h
      exact ⟨rfl, Or.inl ⟨rfl, fun key hkey => absurd hkey not_settledIn_error⟩⟩
  | ok answer =>
      cases op with
      | now =>
          obtain ⟨rfl, rfl⟩ := h
          exact ⟨rfl, Or.inl ⟨rfl, fun key hkey => by simp [SettledIn] at hkey⟩⟩
      | post event =>
          obtain ⟨rfl, rfl⟩ := h
          exact ⟨rfl, Or.inl ⟨rfl, fun key hkey => by simp [SettledIn] at hkey⟩⟩
      | loadSettled ledgerId =>
          obtain ⟨rfl, rfl, rfl⟩ := h
          refine ⟨rfl, Or.inl ⟨rfl, fun key hkey => ?_⟩⟩
          obtain rfl : ledgerId = R.ledgerId := hcall
          rcases hkey with ⟨f, hin, hkey⟩ | hin | ⟨e', reason, hin, -⟩
          · rw [List.mem_singleton] at hin
            cases hin
            exact hkey
          · simp at hin
          · simp at hin
      | markSettled ledgerId key =>
          obtain ⟨now, rfl, rfl⟩ := h
          obtain ⟨rfl, event, rfl, hdue, haccepted⟩ := hcall
          refine ⟨rfl, Or.inr ⟨event, _, hdue, rfl, ?_, fun key hkey => ?_⟩⟩
          · cases hrow : s.db.delivery (R.ledgerId, eventKey event) with
            | none => exact Or.inr (Or.inl ⟨rfl, haccepted⟩)
            | some row => exact Or.inl rfl
          · simpa [SettledIn] using hkey
      | deadLetter ledgerId event reason =>
          obtain ⟨now, rfl, rfl⟩ := h
          obtain ⟨rfl, hdue, hgiven⟩ := hcall
          refine ⟨rfl, Or.inr ⟨event, _, hdue, rfl, ?_, fun key hkey => ?_⟩⟩
          · exact Or.inr (Or.inr ⟨rfl, rfl, reason, rfl, hgiven⟩)
          · rcases hkey with ⟨f, hin, -⟩ | hin | ⟨e', reason', hin, hkey⟩
            · simp at hin
            · simp at hin
            · rw [List.mem_singleton] at hin
              cases hin
              exact hkey.symm
      | _ => exact hcall.elim

/-! ### Interleaved drains -/

/-- A thread has done what the row of the key comes from. -/
def Earned (R : RelayedLedger) (P : RelayPool) (key : String) (row : DeliveryRow) : Prop :=
  ∃ event ∈ R.events, eventKey event = key
    ∧ ∃ t ∈ P.threads, ∃ D past, t.job = .drain D ∧ past <+: t.past ∧ D.Backs past event row

/-- The drains of the ledger, the table, and what the drains know of it. -/
structure InStep (R : RelayedLedger) (P : RelayPool) : Prop where
  drains : ∀ t ∈ P.threads, ∃ D, t.job = .drain D ∧ D.On R
  known : ∀ t ∈ P.threads, ∀ key, SettledIn R.ledgerId t.past key →
    loadSettled P.shared.db R.ledgerId key = true
  settled : KeyPrefix eventKey R.events fun key => loadSettled P.shared.db R.ledgerId key = true
  rows : ∀ key row, P.shared.db.delivery (R.ledgerId, key) = some row → Earned R P key row

variable {P P' P₀ : RelayPool} {m : ThreadMove Raised RelayOp RelayOp.Res RelayJob}
  {trail : List RelayChange}

omit [SqlText] [PyRuntime] in
lemma settledIn_append {ledgerId key : String} {x : RelayExchange}
    (h : SettledIn ledgerId (past ++ [x]) key) :
    SettledIn ledgerId past key ∨ SettledIn ledgerId [x] key := by
  rcases h with ⟨f, hin, hkey⟩ | hin | ⟨e, reason, hin, hkey⟩
  · rcases List.mem_append.mp hin with hin | hin
    · exact Or.inl (Or.inl ⟨f, hin, hkey⟩)
    · exact Or.inr (Or.inl ⟨f, hin, hkey⟩)
  · rcases List.mem_append.mp hin with hin | hin
    · exact Or.inl (Or.inr (Or.inl hin))
    · exact Or.inr (Or.inr (Or.inl hin))
  · rcases List.mem_append.mp hin with hin | hin
    · exact Or.inl (Or.inr (Or.inr ⟨e, reason, hin, hkey⟩))
    · exact Or.inr (Or.inr (Or.inr ⟨e, reason, hin, hkey⟩))

/-- What has been done stays done. -/
lemma Earned.step {key : String} {row : DeliveryRow} (hP : Earned R P key row)
    (h : (relayPlatform deps).Step P m P') : Earned R P' key row := by
  obtain ⟨event, hevent, hkey, t, ht, D, past, hjob, hpast, hbacks⟩ := hP
  obtain ⟨j, hj⟩ := List.mem_iff_getElem?.mp ht
  obtain ⟨t', ht', hjob', hgrown⟩ := h.thread_stays hj
  exact ⟨event, hevent, hkey, t', List.mem_of_getElem? ht', D, past, hjob'.trans hjob,
    hpast.trans hgrown, hbacks⟩

/-- The new threads of a step are the started ones, where its call starts none. -/
lemma drains_step (h : (relayPlatform deps).Step P m P')
    (hstart : ∀ job, m = .start job → ∃ D, job = .drain D ∧ D.On R)
    (hcalls : ∀ i x jobs, m = .call i x → x.op.effect P.shared x.out P'.shared jobs → jobs = [])
    (hP : ∀ t ∈ P.threads, ∃ D, t.job = .drain D ∧ D.On R) :
    ∀ t ∈ P'.threads, ∃ D, t.job = .drain D ∧ D.On R := by
  intro t' ht'
  obtain ⟨j, hj⟩ := List.mem_iff_getElem?.mp ht'
  rcases h.thread hj with ⟨t, ht, hjob, -⟩ | ⟨-, job, rfl, hm | ⟨i, x, jobs, hm, heffect, hin⟩⟩
  · rw [hjob]
    exact hP t (List.mem_of_getElem? ht)
  · exact hstart job hm
  · rw [hcalls i x jobs hm heffect] at hin
    cases hin

/-- What the threads have done after a step: one of them has made the call. -/
lemma past_step (h : (relayPlatform deps).Step P m P') {t' : RelayThread} (ht' : t' ∈ P'.threads) :
    (∃ t ∈ P.threads, t'.past = t.past) ∨ t'.past = []
      ∨ ∃ i x t, m = .call i x ∧ P.threads[i]? = some t ∧ t'.past = t.past ++ [x] := by
  obtain ⟨j, hj⟩ := List.mem_iff_getElem?.mp ht'
  rcases h.thread hj with
    ⟨t, ht, -, ⟨hpast, -⟩ | ⟨op, next, out, rfl, -, hpast, -⟩⟩ | ⟨-, job, rfl, -⟩
  · exact Or.inl ⟨t, List.mem_of_getElem? ht, hpast⟩
  · exact Or.inr (Or.inr ⟨j, _, t, rfl, ht, hpast⟩)
  · exact Or.inr (Or.inl rfl)

/-- **A step keeps the drains in step.** -/
theorem inStep_step (h : (relayPlatform deps).Step P m P')
    (hkept : Platform.Kept (inOrder R) P)
    (hstart : ∀ job, m = .start job → ∃ D, job = .drain D ∧ D.On R) (hP : InStep R P) :
    InStep R P' := by
  by_cases hm : ∃ i x, m = .call i x
  · obtain ⟨i, x, rfl⟩ := hm
    obtain ⟨jobs, heffect⟩ := h.call_effect
    obtain ⟨t, ht, hallowed, t', ht', hjob, hpast⟩ := h.allowed hkept
    obtain ⟨D, hD, hon⟩ := hP.drains t (List.mem_of_getElem? ht)
    obtain ⟨hcall, -⟩ := hallowed D hD hon
    have hdrains := drains_step h hstart (fun j y jobs' hy hjobs => by
      cases hy
      exact (effect_mayCall hcall hjobs).1) hP.drains
    obtain ⟨-, ⟨hsame, hlearn⟩ | ⟨event, row, hdue, htable, hrow, hlearn⟩⟩ :=
      effect_mayCall hcall heffect
    · have hload : ∀ key, loadSettled P'.shared.db R.ledgerId key
          = loadSettled P.shared.db R.ledgerId key := fun key => by rw [loadSettled, hsame]; rfl
      refine ⟨hdrains, fun u' hu' key hkey => ?_, ?_, fun key row hrow => ?_⟩
      · rw [hload]
        rcases past_step h hu' with ⟨u, hu, hup⟩ | hup | ⟨j, y, u, hy, hu, hup⟩
        · exact hP.known u hu key (hup ▸ hkey)
        · rw [hup] at hkey
          simp [SettledIn] at hkey
        · cases hy
          rw [hup] at hkey
          rcases settledIn_append hkey with hkey | hkey
          · exact hP.known u (List.mem_of_getElem? hu) key hkey
          · exact hlearn key hkey
      · simp only [hload]
        exact hP.settled
      · rw [hsame] at hrow
        exact (hP.rows key row hrow).step h
    · have hload : ∀ key, loadSettled P'.shared.db R.ledgerId key = true
          ↔ key = eventKey event ∨ loadSettled P.shared.db R.ledgerId key = true := by
        intro key
        by_cases heq : key = eventKey event
        · subst heq
          simp [loadSettled, htable]
        · simp [loadSettled, htable, heq]
      refine ⟨hdrains, fun u' hu' key hkey => ?_, ?_, fun key row' hrow' => ?_⟩
      · rw [hload]
        rcases past_step h hu' with ⟨u, hu, hup⟩ | hup | ⟨j, y, u, hy, hu, hup⟩
        · exact Or.inr (hP.known u hu key (hup ▸ hkey))
        · rw [hup] at hkey
          simp [SettledIn] at hkey
        · cases hy
          rw [hup] at hkey
          rcases settledIn_append hkey with hkey | hkey
          · exact Or.inr (hP.known u (List.mem_of_getElem? hu) key hkey)
          · exact Or.inl (hlearn key hkey)
      · obtain ⟨before, after, hevents, hbefore⟩ := hdue
        simp only [hload]
        exact hP.settled.insert R.keys_nodup hevents fun e he =>
          hP.known t (List.mem_of_getElem? ht) _ (hbefore e he)
      · rw [htable] at hrow'
        by_cases heq : key = eventKey event
        · subst heq
          rw [Function.update_self, Option.some.injEq] at hrow'
          subst hrow'
          rcases hrow with hold | hbacks
          · exact (hP.rows _ _ hold).step h
          · obtain ⟨before, after, hevents, -⟩ := hdue
            refine ⟨event, by rw [hevents]; simp, rfl, t', List.mem_of_getElem? ht', D, t.past,
              hjob.trans hD, ?_, hbacks⟩
            rw [hpast]
            exact List.prefix_append _ _
        · have hne : (R.ledgerId, key) ≠ (R.ledgerId, eventKey event) :=
            fun hpair => heq (congrArg Prod.snd hpair)
          rw [Function.update_of_ne hne] at hrow'
          exact (hP.rows key row' hrow').step h
  · have hdb : P'.shared.db = P.shared.db := by
      rcases h.shared with hsame | hrecover | ⟨i, op, out, jobs, hcall, -⟩
      · rw [hsame]
      · rw [hrecover]
        rfl
      · exact absurd ⟨i, _, hcall⟩ hm
    refine ⟨?_, fun u' hu' key hkey => ?_, ?_, fun key row hrow => ?_⟩
    · exact drains_step h hstart (fun i x jobs hcall => absurd ⟨i, x, hcall⟩ hm) hP.drains
    · rw [hdb]
      rcases past_step h hu' with ⟨u, hu, hup⟩ | hup | ⟨j, y, u, hy, -, -⟩
      · exact hP.known u hu key (hup ▸ hkey)
      · rw [hup] at hkey
        simp [SettledIn] at hkey
      · exact absurd ⟨j, y, hy⟩ hm
    · rw [hdb]
      exact hP.settled
    · rw [hdb] at hrow
      exact (hP.rows key row hrow).step h

/-- The drains of a ledger stay in step, whatever the order, the answers and the crashes. -/
lemma inStep_run (h : (relayPlatform deps).Run P₀ trail P) (hstart : P₀.threads = [])
    (hempty : ∀ key, P₀.shared.db.delivery (R.ledgerId, key) = none)
    (hjobs : ∀ c ∈ trail, ∀ job, c.move = .start job → ∃ D, job = .drain D ∧ D.On R) :
    Platform.Kept (inOrder R) P ∧ InStep R P := by
  refine h.invariant (fun c => ∀ job, c.move = .start job → ∃ D, job = .drain D ∧ D.On R)
    (fun Q => Platform.Kept (inOrder R) Q ∧ InStep R Q) (fun Q m Q' hstep hok hQ => ?_) hjobs
    ⟨?_, ?_, ?_, ?_, ?_⟩
  · exact ⟨hstep.meets (fun _ _ _ _ _ => trivial) hQ.1 meets_drainBody,
      inStep_step hstep hQ.1 hok hQ.2⟩
  · rw [Platform.Kept, hstart]
    exact fun t ht => absurd ht List.not_mem_nil
  · rw [hstart]
    exact fun t ht => absurd ht List.not_mem_nil
  · rw [hstart]
    exact fun t ht => absurd ht List.not_mem_nil
  · exact keyPrefix_empty fun key => by simp [loadSettled, hempty key]
  · intro key row hrow
    rw [hempty key] at hrow
    cases hrow

/-- **At-least-once, in-order relay.**  In every run of drains of one ledger from an empty outbox: a
row of the ledger comes from a `202` for its event, or holds an event that was given up; the settled
keys are those of a first part of the events; and who posts an event does so when its predecessors
are settled, and not behind an event that ended in `retry` or `halt`. -/
theorem relayed_in_order (h : (relayPlatform deps).Run P₀ trail P) (hstart : P₀.threads = [])
    (hempty : ∀ key, P₀.shared.db.delivery (R.ledgerId, key) = none)
    (hjobs : ∀ c ∈ trail, ∀ job, c.move = .start job → ∃ D, job = .drain D ∧ D.On R) :
    (∀ key row, P.shared.db.delivery (R.ledgerId, key) = some row → Earned R P key row)
      ∧ KeyPrefix eventKey R.events (fun key => loadSettled P.shared.db R.ledgerId key = true)
      ∧ ∀ c ∈ trail, ∀ i event out, c.move = .call i ⟨.post event, out⟩ →
          (∃ before after, R.events = before ++ event :: after
            ∧ ∀ e ∈ before, loadSettled c.before.shared.db R.ledgerId (eventKey e) = true)
          ∧ ∃ t D, c.before.threads[i]? = some t ∧ t.job = .drain D ∧ ¬ D.Stopped t.past := by
  have hP := (inStep_run h hstart hempty hjobs).2
  refine ⟨hP.rows, hP.settled, fun c hc i event out hm => ?_⟩
  obtain ⟨front, rest, htrail, hrun, hstep⟩ := h.step_of_mem hc
  have hfront : ∀ c' ∈ front, ∀ job, c'.move = .start job → ∃ D, job = .drain D ∧ D.On R := by
    intro c' hc'
    exact hjobs c' (by rw [htrail]; exact List.mem_append_left _ hc')
  obtain ⟨hkept, hbefore⟩ := inStep_run hrun hstart hempty hfront
  rw [hm] at hstep
  obtain ⟨t, ht, hallowed, -⟩ := hstep.allowed hkept
  obtain ⟨D, hD, hon⟩ := hbefore.drains t (List.mem_of_getElem? ht)
  obtain ⟨⟨before, after, hevents, hreached⟩, hgoing⟩ := hallowed D hD hon
  exact ⟨⟨before, after, hevents, fun e he =>
    hbefore.known t (List.mem_of_getElem? ht) _ (hreached e he)⟩, t, D, ht, hD, hgoing⟩

end Runtime

section Example

attribute [local instance] cpython stringText

/-- A drain of a ledger with one event. -/
def oneEventDrain : DrainJob where
  ledger := .dict [("execution_log",
    .list [onlyEvent (.str "task_started") (.str "T1") (.str "2026-06-26T00:00:00+00:00")])]
  identity := [("run_id", .str "R1")]
  ledgerId := "LEDGER-1"
  key := "k"
  keyId := none
  maxRetries := 0
  now := some 0
  maxAgeS := defaultMaxAgeS

/-- Two drains that have both read the empty table deliver the event one after the other. -/
def bothDeliver : List (Cue RelayJob RelayChoice) :=
  [.start (.drain oneEventDrain), .start (.drain oneEventDrain), .call 0 .ok, .call 1 .ok,
    .call 0 .ok, .call 1 .ok, .call 0 .ok, .call 1 .ok]

/-- Two drains deliver one event twice, and settle it once. -/
theorem relayed_in_order_of_two : ∃ (R : RelayedLedger) (trail : List RelayChange) (P : RelayPool),
    R.events.length = 1 ∧ trail.length = 8 ∧ (relayPlatform scriptDeps).Run freshPool trail P
      ∧ KeyPrefix eventKey R.events fun key => loadSettled P.shared.db R.ledgerId key = true := by
  have hevents : ∃ events, oneEventDrain.events = .ok events ∧ events.length = 1 := by
    have hcheck : (oneEventDrain.events.toOption.any fun events => events.length == 1) = true := by
      decide +kernel
    obtain ⟨events, hevents, hlength⟩ := (Option.any_eq_true _ _).mp hcheck
    cases hdrain : oneEventDrain.events with
    | error e =>
        rw [hdrain] at hevents
        cases hevents
    | ok events' =>
        rw [hdrain] at hevents
        cases hevents
        exact ⟨_, rfl, by simpa using hlength⟩
  obtain ⟨events, hevents, hlength⟩ := hevents
  have hplayed : ((relayAnswers scriptDeps).play freshPool bothDeliver).any
      (fun r => r.1.length == 8) = true := by decide +kernel
  obtain ⟨⟨trail, P⟩, hplay, hcheck⟩ := (Option.any_eq_true _ _).mp hplayed
  let R : RelayedLedger :=
    { ledgerId := "LEDGER-1"
      doc := oneEventDrain.ledger
      entries := _
      log := _
      identity := oneEventDrain.identity
      key := "k"
      keyId := oneEventDrain.resolvedKeyId
      events := events
      entries_eq := rfl
      log_eq := rfl
      verified := by decide +kernel
      distinct := by decide +kernel
      projected := hevents }
  have hrun := AnswerBook.play_run _ hplay
  have hjobs : ∀ c ∈ trail, ∀ job, c.move = .start job → ∃ D, job = .drain D ∧ D.On R := by
    intro c hc job hm
    have hcue := AnswerBook.play_starts _ hplay c hc hm
    obtain rfl : job = .drain oneEventDrain := by simpa [bothDeliver] using hcue
    refine ⟨oneEventDrain, rfl, rfl, fun events' hevents' => ?_⟩
    rw [hevents] at hevents'
    cases hevents'
    exact List.prefix_refl _
  exact ⟨R, trail, P, hlength, by simpa using hcheck, hrun,
    (relayed_in_order hrun rfl (fun _ => rfl) hjobs).2.1⟩

end Example

end IplanRunner
