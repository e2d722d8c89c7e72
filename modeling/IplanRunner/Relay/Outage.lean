import IplanRunner.Ledger.Fanout
import IplanRunner.Relay.InOrder

/-!
What a drain makes of an endpoint that is down.

* `outage`: the attempts at an event are used up, and the last of them was not answered.
* `NaiveSkew`: the answer blames the clock for an event whose timestamp has no time zone.
* `deliver_outage`, `deliverWithRefresh_outage`, `drainFrom_outage`: each part raises exactly in
  these two cases; `drain_reports_iff`: so does the drain.
-/

namespace IplanRunner

open Foundation

/-! ### The answers of an endpoint -/

/-- An attempt that was not answered. -/
def unanswered (x : RelayExchange) : Bool :=
  match x with
  | ⟨.post _, .error _⟩ => true
  | _ => false

/-- An attempt that was not answered, or answered by an error of the server. -/
def failing (x : RelayExchange) : Bool :=
  match x with
  | ⟨.post _, .error _⟩ => true
  | ⟨.post _, .ok r⟩ => decide (500 ≤ r.status)
  | _ => false

/-- The failing attempts in a row, with one more call. -/
def streak (n : ℕ) (x : RelayExchange) : ℕ := if failing x then n + 1 else 0

/-- An attempt is not answered when the failing ones in a row before it, of which there are `n` so
far, have used up the retries. -/
def outage (retries : ℕ) : ℕ → List RelayExchange → Bool
  | _, [] => false
  | n, x :: rest => unanswered x && decide (retries ≤ n) || outage retries (streak n x) rest

/-- The endpoint stayed unreachable after the bounded retries. -/
def Unreachable (retries : ℕ) (calls : List RelayExchange) : Prop := outage retries 0 calls = true

variable {retries n : ℕ} {calls xs ys : List RelayExchange} {event : Dict}

lemma outage_append : outage retries n (xs ++ ys)
    = (outage retries n xs || outage retries (xs.foldl streak n) ys) := by
  induction xs generalizing n with
  | nil => rfl
  | cons x xs ih => rw [List.cons_append, outage, outage, ih, List.foldl_cons, Bool.or_assoc]

/-- Calls that are no attempts do not fail. -/
lemma outage_of_not_failing (h : ∀ x ∈ xs, failing x = false) :
    outage retries n xs = false ∧ (xs ≠ [] → xs.foldl streak n = 0) := by
  induction xs generalizing n with
  | nil => exact ⟨rfl, fun hne => absurd rfl hne⟩
  | cons x xs ih =>
      have hx := h x List.mem_cons_self
      have hanswered : unanswered x = false := by
        obtain ⟨op, out⟩ := x
        cases op <;> first | rfl | (cases out <;> first | rfl | cases hx)
      have hzero : streak n x = 0 := by rw [streak, hx]; rfl
      obtain ⟨hrest, hend⟩ := ih (n := 0) fun y hy => h y (List.mem_cons_of_mem _ hy)
      refine ⟨by rw [outage, hanswered, hzero, hrest]; rfl, fun _ => ?_⟩
      rw [List.foldl_cons, hzero]
      cases xs with
      | nil => rfl
      | cons y ys => exact hend (List.cons_ne_nil _ _)

/-- The calls raise only where the endpoint is not reached. -/
def DownOnly (calls : List RelayExchange) : Prop :=
  ∀ x ∈ calls, ∀ e, x.out = .error e → unanswered x = true ∧ e.isOSError = true

lemma DownOnly.left (h : DownOnly (xs ++ ys)) : DownOnly xs :=
  fun x hx => h x (List.mem_append_left _ hx)

lemma DownOnly.right (h : DownOnly (xs ++ ys)) : DownOnly ys :=
  fun x hx => h x (List.mem_append_right _ hx)

/-! ### One delivery -/

/-- **A delivery raises exactly where its last attempt is not answered**; otherwise its last answer
is an error of the server, or ends the row of failing attempts. -/
lemma deliverFrom_outage {left : ℕ} {out : Except Raised Response} (hleft : n + left = retries)
    (h : (deliverFrom event left).Does calls out) (hdown : DownOnly calls) :
    (∃ e, out = .error e) ∧ outage retries n calls = true
      ∨ outage retries n calls = false ∧ ∃ front r, calls = front ++ [⟨.post event, .ok r⟩]
        ∧ out = .ok r.parsed ∧ (∀ x ∈ front, failing x = true)
        ∧ (r.status < 500 → calls.foldl streak n = 0) := by
  induction left generalizing n calls with
  | zero =>
      rw [deliverFrom, post, invoke, Routine.does_resume] at h
      obtain ⟨first, rest, answer, rfl, hfirst, h⟩ := h
      obtain rfl := Routine.does_perform.mp hfirst
      cases answer with
      | error e =>
          obtain ⟨rfl, rfl⟩ := h
          refine Or.inl ⟨⟨_, rfl⟩, ?_⟩
          simp [outage, unanswered]
          omega
      | ok r =>
          obtain ⟨rfl, rfl⟩ := h
          refine Or.inr ⟨by simp [outage, unanswered], [], r, rfl, rfl, by simp, fun hstatus => ?_⟩
          simp [streak, failing, show ¬ 500 ≤ r.status by omega]
  | succ left ih =>
      rw [deliverFrom, post, invoke, Routine.does_resume] at h
      obtain ⟨first, rest, answer, rfl, hfirst, h⟩ := h
      obtain rfl := Routine.does_perform.mp hfirst
      -- what another attempt comes to, after one that failed
      have hagain : failing ⟨.post event, answer⟩ = true →
          (deliverFrom event left).Does rest out →
          (∃ e, out = .error e) ∧ outage retries n ([⟨.post event, answer⟩] ++ rest) = true
            ∨ outage retries n ([⟨.post event, answer⟩] ++ rest) = false ∧ ∃ front r,
              [⟨.post event, answer⟩] ++ rest = front ++ [⟨.post event, .ok r⟩]
                ∧ out = .ok r.parsed ∧ (∀ x ∈ front, failing x = true)
                ∧ (r.status < 500 →
                  List.foldl streak n ([⟨.post event, answer⟩] ++ rest) = 0) := by
        intro hfailing hrest
        have hstreak : streak n ⟨.post event, answer⟩ = n + 1 := by rw [streak, hfailing]; rfl
        have hout : outage retries n ([⟨.post event, answer⟩] ++ rest)
            = outage retries (n + 1) rest := by
          have hnot : ¬ retries ≤ n := by omega
          simp [outage, hstreak, hnot]
        rw [hout, List.foldl_append, List.foldl_cons, List.foldl_nil, hstreak]
        rcases ih (n := n + 1) (by omega) hrest hdown.right with hraised | ⟨hnone, front, r, rfl,
          hok, hfront, hend⟩
        · exact Or.inl hraised
        · refine Or.inr ⟨hnone, ⟨.post event, answer⟩ :: front, r, rfl, hok, ?_, hend⟩
          exact List.forall_mem_cons.mpr ⟨hfailing, hfront⟩
      cases answer with
      | error e =>
          have hos := (hdown _ List.mem_cons_self e rfl).2
          dsimp only at h
          rw [if_pos hos] at h
          exact hagain rfl h
      | ok r =>
          dsimp only at h
          split_ifs at h with hstatus
          · exact hagain (by simp [failing, hstatus]) h
          · obtain ⟨rfl, rfl⟩ := h
            refine Or.inr ⟨by simp [outage, unanswered], [], r, rfl, rfl, by simp, fun _ => ?_⟩
            simp [streak, failing, hstatus]

section Runtime

variable [PyRuntime]

/-- The answer blames the clock, and the event's timestamp has no time zone. -/
def NaiveSkew (x : RelayExchange) : Prop :=
  ∃ event r occurred micros, x = ⟨.post event, .ok r⟩ ∧ r.status ≠ 202 ∧ r.status ≠ 401
    ∧ r.status < 500 ∧ rejectCode r.parsed = .str "timestamp_skew"
    ∧ event.get "occurred_at" = .str occurred
    ∧ PyRuntime.fromisoformat (replaceZulu occurred) = some (.naive micros)

variable {job : DrainJob} {now maxAgeS : ℤ}

lemma eventAge_error_iff (now : ℤ) : (∃ e, eventAge event now = .error e)
    ↔ ∃ occurred micros, event.get "occurred_at" = .str occurred
      ∧ PyRuntime.fromisoformat (replaceZulu occurred) = some (.naive micros) := by
  rw [eventAge]
  split
  · rename_i occurred hoccurred
    rw [hoccurred]
    split
    · rename_i hnone
      simp [hnone]
    · rename_i micros hnaive
      exact ⟨fun _ => ⟨occurred, micros, rfl, hnaive⟩, fun _ => ⟨_, rfl⟩⟩
    · rename_i micros haware
      simp [haware]
  · rename_i hother
    constructor
    · rintro ⟨e, he⟩
      cases he
    · rintro ⟨occurred, micros, hoccurred, -⟩
      exact absurd hoccurred (hother occurred)

/-- **Classifying raises exactly for such an answer.** -/
lemma classify_error_iff (event : Dict) (now maxAgeS : ℤ) (r : RawResponse) :
    (∃ e, classify r.parsed event now maxAgeS = .error e) ↔ NaiveSkew ⟨.post event, .ok r⟩ := by
  have hstatus : r.parsed.status = r.status := rfl
  constructor
  · rintro ⟨e, h⟩
    rw [classify] at h
    dsimp only at h
    split_ifs at h with h202 h401 h500 hintegrity hskew h403
    rw [hstatus] at h202 h401 h500
    split at h
    · rename_i e' he
      obtain ⟨occurred, micros, hoccurred, hnaive⟩ := (eventAge_error_iff now).mp ⟨e', he⟩
      exact ⟨event, r, occurred, micros, rfl, h202, h401, by omega,
        (Val.pyEq_str_iff _ _).mp hskew, hoccurred, hnaive⟩
    · split_ifs at h
  · rintro ⟨event', r', occurred, micros, heq, h202, h401, h500, hcode, hoccurred, hnaive⟩
    cases heq
    obtain ⟨e, he⟩ := (eventAge_error_iff now).mpr ⟨occurred, micros, hoccurred, hnaive⟩
    refine ⟨e, ?_⟩
    have hnot : ¬ 500 ≤ r.status := by omega
    simp [classify, hstatus, h202, h401, hnot, hcode, he]

/-- A refresh answers a `401`. -/
lemma classify_refresh {r : RawResponse} {outcome : RelayOutcome}
    (h : classify r.parsed event now maxAgeS = .ok outcome) (hrefresh : outcome.action = .refresh) :
    r.status < 500 := by
  have hstatus : r.parsed.status = r.status := rfl
  rw [classify] at h
  dsimp only at h
  split_ifs at h with h202 h401 h500 hintegrity hskew h403
  · cases h; cases hrefresh
  · rw [hstatus] at h401
    omega
  · cases h; cases hrefresh
  · cases h; cases hrefresh
  · split at h
    · cases h
    · split_ifs at h <;> · cases h; cases hrefresh
  · cases h; cases hrefresh
  · cases h; cases hrefresh

/-- What stops a drain without a report: the endpoint stayed unreachable, or an answer blamed the
clock for a timestamp that cannot be compared. -/
def Cut (job : DrainJob) (calls : List RelayExchange) : Prop :=
  Unreachable job.maxRetries calls ∨ ∃ x ∈ calls, NaiveSkew x

/-- **One delivery and its classification raise exactly where the drain is cut.** -/
lemma deliverOnce_outage {out : Except Raised RelayOutcome}
    (hstamp : holdsStamp (.dict event) = false)
    (h : (deliverOnce job now event).Does calls out) (hdown : DownOnly calls) :
    (∃ e, out = .error e) ∧ Cut job calls
      ∨ ¬ Cut job calls ∧ ∃ outcome, out = .ok outcome
        ∧ (outcome.action = .refresh → calls.foldl streak 0 = 0) := by
  have hdeliver : deliver event job.maxRetries = deliverFrom event job.maxRetries := by
    rw [deliver, hstamp]
    rfl
  rw [deliverOnce, hdeliver] at h
  have hcut : ∀ {e}, (deliverFrom event job.maxRetries).Does calls (.error e) → Cut job calls := by
    intro e he
    rcases deliverFrom_outage (Nat.zero_add _) he hdown with ⟨-, hout⟩ | ⟨-, _, _, -, hok, -⟩
    · exact Or.inl hout
    · cases hok
  rcases Routine.does_bind.mp h with ⟨e, he, rfl⟩ | ⟨first, rest, response, rfl, hfirst, hrest⟩
  · exact Or.inl ⟨⟨e, rfl⟩, hcut he⟩
  · rcases deliverFrom_outage (Nat.zero_add _) hfirst hdown.left with
      ⟨⟨e, he⟩, -⟩ | ⟨hreached, front, r, rfl, hok, hfront, hend⟩
    · cases he
    cases hok
    cases hclassify : classify r.parsed event now job.maxAgeS with
    | error e =>
        rw [hclassify] at hrest
        obtain ⟨rfl, rfl⟩ := hrest
        refine Or.inl ⟨⟨_, rfl⟩, Or.inr ⟨⟨.post event, .ok r⟩, by simp, ?_⟩⟩
        exact (classify_error_iff ..).mp ⟨e, hclassify⟩
    | ok outcome =>
        rw [hclassify] at hrest
        obtain ⟨rfl, rfl⟩ := hrest
        rw [List.append_nil]
        refine Or.inr ⟨?_, outcome, rfl, fun hrefresh => hend (classify_refresh hclassify hrefresh)⟩
        rintro (hout | ⟨x, hx, hskew⟩)
        · rw [Unreachable, hreached] at hout
          cases hout
        · rcases List.mem_append.mp hx with hx | hx
          · obtain ⟨event', r', _, _, rfl, -, -, h500, -⟩ := hskew
            have hfailing := hfront _ hx
            rw [failing, decide_eq_true_eq] at hfailing
            omega
          · rw [List.mem_singleton.mp hx] at hskew
            obtain ⟨e, he⟩ := (classify_error_iff event now job.maxAgeS r).mpr hskew
            rw [hclassify] at he
            cases he

/-! ### The drain -/

/-- Behind a row that has ended, the attempts are counted anew. -/
lemma cut_append (h : xs.foldl streak 0 = 0) : Cut job (xs ++ ys) ↔ Cut job xs ∨ Cut job ys := by
  have hskew : (∃ x ∈ xs ++ ys, NaiveSkew x)
      ↔ (∃ x ∈ xs, NaiveSkew x) ∨ ∃ x ∈ ys, NaiveSkew x := by
    simp only [List.mem_append, or_and_right, exists_or]
  rw [Cut, Unreachable, outage_append, h, Bool.or_eq_true, hskew]
  exact or_or_or_comm

/-- A call that is no attempt ends the row. -/
lemma cut_call {x : RelayExchange} (h : ∀ event, x.op ≠ .post event) :
    Cut job (xs ++ x :: ys) ↔ Cut job xs ∨ Cut job ys := by
  have hfailing : failing x = false := by
    obtain ⟨op, out⟩ := x
    cases op with
    | post event => exact absurd rfl (h event)
    | _ => rfl
  obtain ⟨hone, hzero⟩ := @outage_of_not_failing job.maxRetries (xs.foldl streak 0) [x]
    (by simpa using hfailing)
  have hlast : (xs ++ [x]).foldl streak 0 = 0 := by
    rw [List.foldl_append]
    exact hzero (List.cons_ne_nil _ _)
  have hsame : Cut job (xs ++ [x]) ↔ Cut job xs := by
    have hskew : (∃ y ∈ xs ++ [x], NaiveSkew y) ↔ ∃ y ∈ xs, NaiveSkew y := by
      have hnot : ¬ NaiveSkew x := by
        rintro ⟨event, r, _, _, rfl, -⟩
        exact h event rfl
      simp [or_and_right, exists_or, hnot]
    rw [Cut, Unreachable, outage_append, hone, Bool.or_false, hskew]
    rfl
  have hassoc : xs ++ x :: ys = (xs ++ [x]) ++ ys := by simp
  rw [hassoc, cut_append hlast, hsame]

lemma not_cut_nil : ¬ Cut job [] := by
  rintro (h | ⟨x, hx, -⟩)
  · cases h
  · cases hx

/-- **An event is given an outcome where the drain is not cut.** -/
lemma deliverWithRefresh_outage {out : Except Raised RelayOutcome}
    (hstamp : holdsStamp (.dict event) = false)
    (h : (deliverWithRefresh job now event).Does calls out) (hdown : DownOnly calls) :
    (∃ e, out = .error e) ∧ Cut job calls ∨ ¬ Cut job calls ∧ ∃ outcome, out = .ok outcome := by
  rcases Routine.does_bind.mp h with ⟨e, he, rfl⟩ | ⟨first, rest, once, rfl, hfirst, hrest⟩
  · rcases deliverOnce_outage hstamp he hdown with ⟨-, hcut⟩ | ⟨-, _, hok, -⟩
    · exact Or.inl ⟨⟨e, rfl⟩, hcut⟩
    · cases hok
  · rcases deliverOnce_outage hstamp hfirst hdown.left with
      ⟨⟨e, he⟩, -⟩ | ⟨hnot, outcome, hok, hend⟩
    · cases he
    cases hok
    split_ifs at hrest with hrefresh
    · rw [cut_append (hend hrefresh)]
      rcases Routine.does_bind.mp hrest with
        ⟨e, he, rfl⟩ | ⟨second, last, again, rfl, hsecond, hlast⟩
      · rcases deliverOnce_outage hstamp he hdown.right with ⟨-, hcut⟩ | ⟨-, _, hok, -⟩
        · exact Or.inl ⟨⟨e, rfl⟩, Or.inr hcut⟩
        · cases hok
      · rcases deliverOnce_outage hstamp hsecond hdown.right.left with ⟨⟨e, he⟩, -⟩ | ⟨hnot', -⟩
        · cases he
        · have hend' : last = [] ∧ ∃ outcome, out = .ok outcome := by
            split_ifs at hlast
            · exact ⟨hlast.1, _, hlast.2⟩
            · exact ⟨hlast.1, _, hlast.2⟩
          obtain ⟨rfl, hout⟩ := hend'
          rw [List.append_nil]
          exact Or.inr ⟨not_or.mpr ⟨hnot, hnot'⟩, hout⟩
    · obtain ⟨rfl, rfl⟩ := hrest
      rw [List.append_nil]
      exact Or.inr ⟨hnot, _, rfl⟩

omit [PyRuntime] in
/-- A call of the store returns where only the endpoint is down. -/
lemma answered_of_downOnly {op : RelayOp} {r : Except Raised op.Res} (hdown : DownOnly calls)
    (hx : ⟨op, r⟩ ∈ calls) (hop : ∀ event, op ≠ .post event) : ∃ a, r = .ok a := by
  cases r with
  | ok a => exact ⟨a, rfl⟩
  | error e =>
      have hunanswered := (hdown _ hx e rfl).1
      cases op with
      | post event => exact absurd rfl (hop event)
      | _ => cases hunanswered

/-- **The loop of a drain raises exactly where it is cut.** -/
lemma drainFrom_outage {settled : String → Bool} {events : List Dict} {report : DrainReport}
    {out : Except Raised DrainReport}
    (hstamps : ∀ event ∈ events, holdsStamp (.dict event) = false)
    (h : (drainFrom job now settled events report).Does calls out) (hdown : DownOnly calls) :
    (∃ e, out = .error e) ∧ Cut job calls ∨ ¬ Cut job calls ∧ ∃ report, out = .ok report := by
  induction events generalizing report calls with
  | nil =>
      obtain ⟨rfl, rfl⟩ := h
      exact Or.inr ⟨not_cut_nil, _, rfl⟩
  | cons event rest ih =>
      have hrestamps : ∀ e ∈ rest, holdsStamp (.dict e) = false :=
        fun e he => hstamps e (List.mem_cons_of_mem _ he)
      have hstamp := hstamps event List.mem_cons_self
      rw [drainFrom] at h
      split_ifs at h with hsettled
      · exact ih hrestamps h hdown
      rcases Routine.does_bind.mp h with ⟨e, he, rfl⟩ | ⟨first, last, outcome, rfl, hfirst, hlast⟩
      · rcases deliverWithRefresh_outage hstamp he hdown with ⟨-, hcut⟩ | ⟨-, _, hok⟩
        · exact Or.inl ⟨⟨e, rfl⟩, hcut⟩
        · cases hok
      rcases deliverWithRefresh_outage hstamp hfirst hdown.left with ⟨⟨e, he⟩, -⟩ | ⟨hnot, -⟩
      · cases he
      -- what a settled event comes to: the call of the store, and the rest of the loop
      have hgoes : ∀ {op : RelayOp} {next : DrainReport}, (∀ event, op ≠ .post event) →
          (invoke op >>= fun _ => drainFrom job now settled rest next).Does last out →
          (∃ e, out = .error e) ∧ Cut job (first ++ last)
            ∨ ¬ Cut job (first ++ last) ∧ ∃ report, out = .ok report := by
        intro op next hop hlast
        obtain ⟨r, tail, rfl, htail⟩ := hlast
        obtain ⟨a, rfl⟩ := answered_of_downOnly hdown.right List.mem_cons_self hop
        rw [cut_call hop]
        rcases ih hrestamps htail fun x hx => hdown x (by simp [hx]) with
          ⟨herror, hcut⟩ | ⟨hnot', hok⟩
        · exact Or.inl ⟨herror, Or.inr hcut⟩
        · exact Or.inr ⟨not_or.mpr ⟨hnot, hnot'⟩, hok⟩
      split at hlast
      · exact hgoes (by simp) hlast
      · exact hgoes (by simp) hlast
      · obtain ⟨rfl, rfl⟩ := hlast
        rw [List.append_nil]
        exact Or.inr ⟨hnot, _, rfl⟩
      · obtain ⟨rfl, rfl⟩ := hlast
        rw [List.append_nil]
        exact Or.inr ⟨hnot, _, rfl⟩

/-- Projected events have JSON texts, the id of the key being one of the identity's. -/
lemma events_json {events : List Dict} (h : job.events = .ok events) :
    ∀ event ∈ events, holdsStamp (.dict event) = false := by
  intro event hevent
  rw [DrainJob.events, toExecutionEvents] at h
  obtain ⟨results, -, h⟩ := except_bind_eq_ok.mp h
  obtain ⟨entries, -, h⟩ := except_bind_eq_ok.mp h
  obtain ⟨log, -, h⟩ := except_bind_eq_ok.mp h
  obtain ⟨e, -, part, hpart, hin⟩ := ((collect_eq_ok h).2 event).mp hevent
  obtain ⟨kind, passed, -, -, hbuilt⟩ := projectEntry_emits hpart
  obtain ⟨eventType, -, status, hash, occurredAt, refs, -, -, hone⟩ := exists_of_forall₂ hbuilt hin
  obtain ⟨hidentity, hjson⟩ := built_json hone
  refine hjson ?_
  have hexecutor := hidentity "executor_id" (by decide)
  rw [DrainJob.resolvedKeyId, Val.orElse, Val.orElse]
  split_ifs
  · cases job.keyId <;> rfl
  · exact hexecutor
  · rfl

/-- What the relay promises of a drain: it reports, and an endpoint that stays unreachable leaves
the report `ok`. -/
def RetriesOutage (job : DrainJob) (calls : List RelayExchange) (out : Except Raised DrainReport) :
    Prop :=
  ∃ report, out = .ok report ∧ (Unreachable job.maxRetries calls → report.ok = true)

/-- **When a drain retries an outage.**  In every run of a drain in which only the endpoint fails:
the drain reports, an outage being a retry, exactly when the ledger can be projected, no event's
last attempt goes unanswered, and no answer blames the clock for a timestamp without a time zone. -/
theorem drain_reports_iff {out : Except Raised DrainReport} (h : (drain job).Does calls out)
    (hdown : DownOnly calls) :
    RetriesOutage job calls out
      ↔ Returns job.events ∧ ¬ Unreachable job.maxRetries calls ∧ ∀ x ∈ calls, ¬ NaiveSkew x := by
  have hnotcut : (¬ Unreachable job.maxRetries calls ∧ ∀ x ∈ calls, ¬ NaiveSkew x)
      ↔ ¬ Cut job calls := by
    rw [Cut, not_or, not_exists]
    simp only [not_and]
  rw [hnotcut]
  -- the moment of the drain is read first
  have hstamp : ∃ front rest stamp, calls = front ++ rest ∧ (∀ x ∈ front, x.op = .now)
      ∧ (do let events ← pyLift job.events
            let settled ← loadedSettled job.ledgerId
            drainFrom job stamp settled events ⟨[], [], [], none⟩ : Relay DrainReport).Does rest
              out := by
    rw [drain, DrainJob.stamp] at h
    split at h
    · rename_i stamp hnow
      exact ⟨[], calls, stamp, rfl, by simp, h⟩
    · obtain ⟨r, rest, rfl, hrest⟩ := h
      obtain ⟨stamp, rfl⟩ := answered_of_downOnly hdown List.mem_cons_self (by simp)
      exact ⟨[⟨.now, .ok stamp⟩], rest, stamp, rfl, by simp, hrest⟩
  obtain ⟨front, rest, stamp, rfl, hfront, hrest⟩ := hstamp
  cases hevents : job.events with
  | error e =>
      rw [hevents] at hrest
      obtain ⟨rfl, rfl⟩ := hrest
      constructor
      · rintro ⟨report, hout, -⟩
        cases hout
      · rintro ⟨⟨events, hreturns⟩, -⟩
        cases hreturns
  | ok events =>
      rw [hevents] at hrest
      obtain ⟨r, tail, rfl, htail⟩ := hrest
      obtain ⟨settled, rfl⟩ := answered_of_downOnly hdown.right List.mem_cons_self (by simp)
      have hcalm : ¬ Cut job front := by
        rintro (hout | ⟨x, hx, hskew⟩)
        · have hnone := (@outage_of_not_failing job.maxRetries 0 front fun x hx => by
            obtain ⟨op, answer⟩ := x
            obtain rfl : op = .now := hfront _ hx
            rfl).1
          rw [Unreachable, hnone] at hout
          cases hout
        · obtain ⟨event, r, _, _, rfl, -⟩ := hskew
          cases hfront _ hx
      have hcut : Cut job (front ++ ⟨.loadSettled job.ledgerId, .ok settled⟩ :: tail)
          ↔ Cut job tail := by rw [cut_call (by simp), or_iff_right hcalm]
      rw [hcut]
      have htaildown : DownOnly tail := fun x hx => hdown x (by simp [hx])
      rcases drainFrom_outage (events_json hevents) htail htaildown with
        ⟨⟨e, rfl⟩, hstopped⟩ | ⟨hnot, report, rfl⟩
      · constructor
        · rintro ⟨report, hout, -⟩
          cases hout
        · rintro ⟨-, hnot⟩
          exact absurd hstopped hnot
      · refine ⟨fun _ => ⟨⟨events, rfl⟩, hnot⟩, fun _ => ⟨report, rfl, fun hout => ?_⟩⟩
        -- the drain was not cut, so the endpoint was reached
        exact absurd (hcut.mp (Or.inl hout)) hnot

end Runtime

/-! ### An endpoint that is down -/

section Example

attribute [local instance] cpython stringText

/-- The calls of a drain that reads an empty outbox and posts one event. -/
def oneAttempt (event : Dict) (answer : Except Raised RawResponse) : List RelayExchange :=
  [⟨.loadSettled "LEDGER-1", .ok fun _ => false⟩, ⟨.post event, answer⟩]

/-- One event, posted to a server that is down in two ways. -/
lemma oneEventDrain_does : ∃ event, oneEventDrain.events = .ok [event]
      ∧ (drain oneEventDrain).Does (oneAttempt event (.error .osError))
        (.error (.exception (.other "TransportError")))
      ∧ ∃ report, (drain oneEventDrain).Does (oneAttempt event (.ok ⟨503, .empty⟩)) (.ok report)
        ∧ report.ok = true := by
  have hevents : ∃ event, oneEventDrain.events = .ok [event] := by
    have hcheck : (oneEventDrain.events.toOption.any fun events => events.length == 1) = true := by
      decide +kernel
    obtain ⟨events, hevents, hlength⟩ := (Option.any_eq_true _ _).mp hcheck
    obtain ⟨event, rfl⟩ := List.length_eq_one_iff.mp (beq_iff_eq.mp hlength)
    exact ⟨event, eq_ok_of_toOption hevents⟩
  obtain ⟨event, hevents⟩ := hevents
  have hjson := events_json hevents event List.mem_cons_self
  have hdrain : drain oneEventDrain = (do
      let settled ← loadedSettled "LEDGER-1"
      drainFrom oneEventDrain 0 settled [event] ⟨[], [], [], none⟩) := by
    rw [drain, hevents]
    rfl
  have hdeliver : deliver event oneEventDrain.maxRetries = deliverFrom event 0 := by
    rw [deliver, hjson]
    rfl
  rw [hdrain]
  refine ⟨event, hevents, ⟨_, _, rfl, ?_⟩, ⟨[], [], [eventKey event], none⟩, ⟨_, _, rfl, ?_⟩, rfl⟩
  · change (deliverWithRefresh oneEventDrain 0 event >>= _).Does _ _
    rw [deliverWithRefresh, deliverOnce, hdeliver]
    exact ⟨_, _, rfl, rfl, rfl⟩
  · change (deliverWithRefresh oneEventDrain 0 event >>= _).Does _ _
    rw [deliverWithRefresh, deliverOnce, hdeliver]
    exact ⟨_, _, rfl, rfl, rfl⟩

/-- The drain retries an event the server has answered by an error. -/
theorem drain_reports_of_server_error : ∃ calls out, (drain oneEventDrain).Does calls out
    ∧ RetriesOutage oneEventDrain calls out := by
  obtain ⟨event, hevents, -, report, hdoes, -⟩ := oneEventDrain_does
  have hdown : DownOnly (oneAttempt event (.ok ⟨503, .empty⟩)) := by
    intro x hx e he
    rcases List.mem_pair.mp hx with rfl | rfl
    · cases he
    · cases he
  refine ⟨_, _, hdoes, (drain_reports_iff hdoes hdown).mpr ⟨⟨_, hevents⟩, ?_, ?_⟩⟩
  · intro hout
    cases hout
  · rintro x hx ⟨_, r, _, _, rfl, -, -, h500, -⟩
    rcases List.mem_pair.mp hx with heq | heq
    · cases heq
    · cases heq
      exact absurd h500 (by decide)

/-- One event, posted to a server that is down: answered by a `503`, the drain reports, and the
report is `ok`; not answered at all, it raises. -/
theorem outage_raises : ¬ ∀ (job : DrainJob) (calls : List RelayExchange)
    (out : Except Raised DrainReport), (drain job).Does calls out → DownOnly calls →
      Returns job.events → RetriesOutage job calls out := by
  intro hall
  obtain ⟨event, hevents, hdoes, -⟩ := oneEventDrain_does
  have hdown : DownOnly (oneAttempt event (.error .osError)) := by
    intro x hx e he
    rcases List.mem_pair.mp hx with rfl | rfl
    · cases he
    · cases he
      exact ⟨rfl, rfl⟩
  obtain ⟨report, hout, -⟩ := hall _ _ _ hdoes hdown ⟨_, hevents⟩
  cases hout

end Example

end IplanRunner
