import IplanRunner.Receiver.Slots

/-!
The life of a dispatched task in the store.

* `TaskMove`: a task is accepted, claimed, settled and forgotten, in this order.
* `taskMove_step`: a step moves a task so, or not at all.
* `Vouched`: what a `202` stands on; `meets_vouching`: a handler gives none without it.
* `ack_durable`: a task that was acknowledged stays in the store until it has been settled and
  swept; a duplicate has been claimed.
* `claimed_once`: while the sweeps keep to a horizon, it stays, and is claimed once.
-/

namespace IplanRunner

open Foundation

/-! ### The moves of a task -/

/-- The moves of a task in the store. -/
inductive TaskMove : Option AcceptStatus → Option AcceptStatus → Prop
  | accept : TaskMove none (some .accepted)
  | claim : TaskMove (some .accepted) (some .running)
  | settle (ok : Bool) : TaskMove (some .running) (some (if ok then .done else .failed))
  | forget (ok : Bool) : TaskMove (some (if ok then .done else .failed)) none

section Runtime

variable [PyRuntime]

/-- After `accept_task` the task has a row. -/
lemma effect_accepted {key : TaskKey} {s s' : RelayState} {jobs : List RelayJob}
    {decision : AcceptDecision} (h : (RelayOp.acceptTask key).effect s (.ok decision) s' jobs) :
    s'.status key ≠ none := by
  obtain ⟨now, -, hs, -⟩ := h
  rw [hs, RelayState.status, acceptTask]
  cases hrow : s.db.acceptedTask key with
  | none => simp
  | some row => simp [hrow]

variable [SqlText] {deps : ReceiverDeps} {P P' P₀ : RelayPool}
  {m : ThreadMove Raised RelayOp RelayOp.Res RelayJob} {trail : List RelayChange}

/-- **A step moves a task on, or leaves it.**  Only a claim makes it running. -/
theorem taskMove_step (h : (relayPlatform deps).Step P m P')
    (hkept : Platform.Kept (fun _ => runOnce) P) (hP : OneHolder P) (key : TaskKey) :
    P'.shared.status key = P.shared.status key
      ∨ TaskMove (P.shared.status key) (P'.shared.status key)
        ∧ (P'.shared.status key = some .running → Claims ⟨P, m, P'⟩ key) := by
  rcases status_step h key with hsame | ⟨i, x, jobs, rfl, heffect⟩
  · exact Or.inl hsame
  rcases effect_status heffect key with
    hsame | ⟨-, hnone, hrow⟩ | ⟨rfl, haccepted, hrow⟩ | ⟨ok, rfl, -, hrow⟩ | ⟨hended, hnone⟩
  · exact Or.inl hsame
  · rw [hnone, hrow]
    exact Or.inr ⟨.accept, fun heq => by cases heq⟩
  · rw [haccepted, hrow]
    exact Or.inr ⟨.claim, fun _ => ⟨i, rfl⟩⟩
  · -- who settles the task holds it, so it was running
    obtain ⟨t, ht, hholds, -⟩ := h.allowed hkept
    rw [hP.running i t key ht hholds, hrow]
    refine Or.inr ⟨.settle ok, fun heq => ?_⟩
    cases ok <;> cases heq
  · rw [hnone]
    refine Or.inr ⟨?_, fun heq => by cases heq⟩
    rcases hended with hended | hended
    · rw [hended]
      exact .forget true
    · rw [hended]
      exact .forget false

/-- A task that had no row and is past `accepted` has been claimed. -/
lemma claimed_of_past (h : (relayPlatform deps).Run P₀ trail P) (hstart : P₀.threads = [])
    (hlate : ∀ c ∈ trail, ¬ LateFailing c) {key : TaskKey} (hnew : P₀.shared.status key = none)
    {status : AcceptStatus} (hstatus : P.shared.status key = some status)
    (hpast : status ≠ .accepted) : ∃ c ∈ trail, Claims c key := by
  induction h generalizing status with
  | nil =>
      rw [hnew] at hstatus
      cases hstatus
  | @snoc trail P m P' hrun hstep ih =>
      have hlate' : ∀ c ∈ trail, ¬ LateFailing c := fun c hc => hlate c (List.mem_append_left _ hc)
      have hbefore : ∀ {status : AcceptStatus}, P.shared.status key = some status →
          status ≠ .accepted → ∃ c ∈ trail ++ [⟨P, m, P'⟩], Claims c key := by
        intro status hstatus hpast
        obtain ⟨c, hc, hclaims⟩ := ih hlate' hstatus hpast
        exact ⟨c, List.mem_append_left _ hc, hclaims⟩
      have hkept := kept_runOnce hrun hstart hlate'
      rcases taskMove_step hstep hkept (oneHolder_run hrun hstart hlate') key with
        hsame | ⟨hmove, hclaims⟩
      · exact hbefore (hsame ▸ hstatus) hpast
      · generalize hfrom : P.shared.status key = old at hmove
        generalize hto : P'.shared.status key = new at hmove hclaims
        rw [hto] at hstatus
        cases hmove with
        | accept =>
            cases hstatus
            exact absurd rfl hpast
        | claim =>
            exact ⟨_, List.mem_append_right _ (List.mem_singleton_self _), hclaims rfl⟩
        | settle ok => exact hbefore hfrom (by simp)
        | forget ok => cases hstatus

/-- A row stays until it is deleted. -/
lemma row_stays (h : (relayPlatform deps).Run P₀ trail P) {key : TaskKey}
    (hkeep : ∀ c ∈ trail, ¬ Deletes c key) (hrow : P₀.shared.status key ≠ none) :
    P.shared.status key ≠ none :=
  h.invariant (fun c => ¬ Deletes c key) (fun Q => Q.shared.status key ≠ none)
    (fun _ _ _ _ hok hQ hnone => hok ⟨hQ, hnone⟩) hkeep hrow

/-! ### What a `202` stands on -/

omit [PyRuntime] in
/-- What a handler has done when it answers a `202` with this body. -/
inductive Vouched (payload : Dict) (past : List RelayExchange) (key : TaskKey) : Dict → Prop
  | duplicate {runId : Val} : (Val.dict payload).item "run_id" = .ok runId →
      taskKey runId (payload.get "task_id") = .ok key →
      ⟨.acceptTask key, .ok .replay⟩ ∈ past →
      Vouched payload past key (taskReply runId (payload.get "task_id") "duplicate")
  | accepted {runId : Val} : (Val.dict payload).item "run_id" = .ok runId →
      taskKey runId (payload.get "task_id") = .ok key →
      ⟨.acceptTask key, .ok .accept⟩ ∈ past → ⟨.acquireSlot, .ok true⟩ ∈ past →
      ⟨.startWorker payload, .ok ()⟩ ∈ past →
      Vouched payload past key (taskReply runId (payload.get "task_id") "accepted")

/-- A thread that answers a `202` is a handler with what it stands on. -/
def vouching (job : RelayJob) : Contract Raised RelayOp RelayOp.Res where
  allowed past op := ∀ body, op = .reply 202 body →
    ∃ payload key, job = .postTask payload ∧ Vouched payload past key body
  expected _ := True

omit [PyRuntime] in
/-- Threads without replies keep to it. -/
lemma meets_vouching_of_only {job : RelayJob} {p : Relay Unit} {past : List RelayExchange}
    (h : p.Only fun op => ∀ status body, op ≠ .reply status body) :
    p.Meets (vouching job) past fun _ _ => True :=
  (h.meets fun _ _ hop body heq => absurd heq (hop 202 body)).mono fun _ _ _ _ => trivial

omit [PyRuntime] in
/-- A log line in front of a reply. -/
lemma meets_vouching_reply {job : RelayJob} {past : List RelayExchange} (notice : Notice)
    {status : ℕ} {body : Dict} (h : ∀ x, status = 202 →
      ∃ payload key, job = .postTask payload ∧ Vouched payload (past ++ [x]) key body) :
    (do invoke (.log notice); invoke (.reply status body) : Relay Unit).Meets (vouching job) past
      fun _ _ => True := by
  refine ⟨fun _ heq => (by cases heq), fun out _ => ?_⟩
  cases out with
  | error e => trivial
  | ok _ =>
      refine ⟨fun body' heq => ?_, fun _ _ => trivial⟩
      cases heq
      exact h _ rfl

omit [PyRuntime] in
/-- **A handler answers a `202` with what it stands on only.** -/
lemma meets_vouching_postTask (payload : Dict) :
    (postTask payload).Meets (vouching (.postTask payload)) [] fun _ _ => True := by
  rw [postTask]
  refine meets_pyLift_bind' fun runId hrun => ?_
  dsimp only
  split_ifs
  · refine meets_pyLift_bind' fun key hkey => ?_
    refine ⟨fun _ heq => (by cases heq), fun decision _ => ?_⟩
    cases decision with
    | error e => trivial
    | ok decision =>
        change Routine.Meets _ (if decision = .replay then _ else _) _ _
        split_ifs with hreplay
        · subst hreplay
          exact meets_vouching_reply _ fun x _ =>
            ⟨payload, key, rfl, .duplicate hrun hkey (by simp)⟩
        · obtain rfl : decision = .accept := by
            cases decision with
            | accept => rfl
            | replay => exact absurd rfl hreplay
          refine ⟨fun _ heq => (by cases heq), fun free _ => ?_⟩
          cases free with
          | error e => trivial
          | ok free =>
              cases free with
              | false => exact meets_vouching_reply _ fun x h => by cases h
              | true =>
                  refine ⟨fun _ heq => (by cases heq), fun started _ => ?_⟩
                  cases started with
                  | error e => trivial
                  | ok _ => exact meets_vouching_reply _ fun x _ =>
                      ⟨payload, key, rfl, .accepted hrun hkey (by simp) (by simp) (by simp)⟩
  · exact ⟨fun _ heq => (by cases heq), fun _ _ => trivial⟩

/-- Every thread keeps to it. -/
lemma meets_vouching (job : RelayJob) :
    (jobBody deps job).Meets (vouching job) [] fun _ _ => True := by
  cases job with
  | postTask payload => exact meets_vouching_postTask payload
  | execute payload =>
      refine meets_vouching_of_only ?_
      refine Routine.Only.finallyDo ((slotless_execute deps payload).mono fun op hop => ?_)
        (Routine.only_perform fun _ _ => by simp)
      intro status body heq
      rw [heq] at hop
      cases hop
  | drain D =>
      refine meets_vouching_of_only (Routine.Only.bind ((only_drain D).mono fun op hop => ?_)
        fun _ => Routine.only_done _)
      intro status body heq
      rw [heq] at hop
      exact hop
  | sweep maxAgeS => exact meets_vouching_of_only (Routine.only_perform fun _ _ => by simp)

lemma kept_vouching (h : (relayPlatform deps).Run P₀ trail P) (hstart : P₀.threads = []) :
    Platform.Kept vouching P := by
  refine h.meets (fun _ _ _ _ _ _ _ => trivial) meets_vouching ?_
  rw [Platform.Kept, hstart]
  exact fun t ht => absurd ht List.not_mem_nil

/-- The answer a `202` stands on is in the store, or has been swept since. -/
lemma accept_durable (h : (relayPlatform deps).Run P₀ trail P) {c : RelayChange} (hc : c ∈ trail)
    {i : ℕ} {key : TaskKey} {decision : AcceptDecision}
    (hm : c.move = .call i ⟨.acceptTask key, .ok decision⟩) :
    P.shared.status key ≠ none ∨ ∃ first rest, trail = first ++ c :: rest
      ∧ ∃ d ∈ rest, Deletes d key := by
  obtain ⟨first, rest, rfl⟩ := List.append_of_mem hc
  obtain ⟨Q, -, hafter⟩ := Platform.run_append.mp h
  obtain ⟨-, hstep, hrest⟩ := Platform.run_cons.mp hafter
  rw [hm] at hstep
  obtain ⟨jobs, heffect⟩ := hstep.call_effect
  by_cases hdeleted : ∃ d ∈ rest, Deletes d key
  · exact Or.inr ⟨first, rest, rfl, hdeleted⟩
  · push Not at hdeleted
    exact Or.inl (row_stays hrest hdeleted (effect_accepted heffect))

/-- **An acknowledgement is durable.**  In every run of a receiver in which no worker's last log
line raises, every row of a task moves from accepted through running to done or failed, and is
deleted from there only.  A `202` is given for a task the thread has accepted: the task is still in
the store, or has been swept since then.  Where it says `accepted` its worker has been started, and
where it says `duplicate` a task that was new to the store has been claimed. -/
theorem ack_durable (h : (relayPlatform deps).Run P₀ trail P) (hstart : P₀.threads = [])
    (hlate : ∀ c ∈ trail, ¬ LateFailing c) :
    (∀ c ∈ trail, ∀ key, c.after.shared.status key = c.before.shared.status key
        ∨ TaskMove (c.before.shared.status key) (c.after.shared.status key))
      ∧ ∀ c ∈ trail, ∀ i body r, c.move = .call i ⟨.reply 202 body, r⟩ →
        ∃ t payload key, c.before.threads[i]? = some t ∧ t.job = .postTask payload
          ∧ Vouched payload t.past key body
          ∧ (∃ d ∈ trail, ∃ decision, d.move = .call i ⟨.acceptTask key, .ok decision⟩
            ∧ (P.shared.status key ≠ none ∨ ∃ first rest, trail = first ++ d :: rest
              ∧ ∃ e ∈ rest, Deletes e key))
          ∧ (⟨.acceptTask key, .ok .replay⟩ ∈ t.past → P₀.shared.status key = none →
            ∃ d ∈ trail, Claims d key) := by
  refine ⟨fun c hc key => ?_, fun c hc i body r hm => ?_⟩
  · obtain ⟨front, rest, htrail, hrun, hstep⟩ := h.step_of_mem hc
    have hlate' : ∀ c ∈ front, ¬ LateFailing c := by
      intro d hd
      refine hlate d ?_
      rw [htrail]
      exact List.mem_append_left _ hd
    exact (taskMove_step hstep (kept_runOnce hrun hstart hlate') (oneHolder_run hrun hstart hlate')
      key).imp_right And.left
  · obtain ⟨front, rest, htrail, hrun, hstep⟩ := h.step_of_mem hc
    have hfront : ∀ {d : RelayChange}, d ∈ front → d ∈ trail := by
      intro d hd
      rw [htrail]
      exact List.mem_append_left _ hd
    rw [hm] at hstep
    obtain ⟨t, ht, hvouched, -⟩ := hstep.allowed (kept_vouching hrun hstart)
    obtain ⟨payload, key, hjob, hvouched⟩ := hvouched body rfl
    obtain ⟨decision, hmem⟩ : ∃ decision, ⟨.acceptTask key, .ok decision⟩ ∈ t.past := by
      cases hvouched with
      | duplicate _ _ hmem => exact ⟨_, hmem⟩
      | accepted _ _ hmem _ _ => exact ⟨_, hmem⟩
    obtain ⟨d, hd, hmd⟩ := hrun.made hstart ht hmem
    refine ⟨t, payload, key, ht, hjob, hvouched, ⟨d, hfront hd, decision, hmd,
      accept_durable h (hfront hd) hmd⟩, fun hreplay hnew => ?_⟩
    obtain ⟨d', hd', hmd'⟩ := hrun.made hstart ht hreplay
    obtain ⟨front', rest', hsplit, hrun', hstep'⟩ := hrun.step_of_mem hd'
    have hin : ∀ {e : RelayChange}, e ∈ front' → e ∈ trail := by
      intro e he
      refine hfront ?_
      rw [hsplit]
      exact List.mem_append_left _ he
    rw [hmd'] at hstep'
    obtain ⟨jobs, heffect⟩ := hstep'.call_effect
    have hpast := (not_congr (effect_accept heffect)).mp (by simp)
    push Not at hpast
    obtain ⟨status, hstatus⟩ := Option.ne_none_iff_exists'.mp hpast.1
    obtain ⟨e, he, hclaims⟩ := claimed_of_past hrun' hstart (fun e he => hlate e (hin he)) hnew
      hstatus fun heq => hpast.2 (heq ▸ hstatus)
    exact ⟨e, hin he, hclaims⟩

/-! ### The retention horizon -/

omit [SqlText] in
/-- Only a sweep deletes the row of a task. -/
lemma effect_lost {x : RelayExchange} {s s' : RelayState} {jobs : List RelayJob}
    (h : x.op.effect s x.out s' jobs) {key : TaskKey} (hrow : s.db.acceptedTask key ≠ none)
    (hnone : s'.db.acceptedTask key = none) : ∃ maxAgeS, x = ⟨.pruneSettled maxAgeS, .ok ()⟩ := by
  have hupdate : ∀ {table : TaskKey → Option AcceptRow} {k : TaskKey} {row : AcceptRow},
      table key ≠ none → Function.update table k (some row) key ≠ none := by
    intro table k row htable
    rw [Function.update_apply]
    split_ifs
    · simp
    · exact htable
  obtain ⟨op, out⟩ := x
  cases out with
  | error e => exact absurd (h.2.1 ▸ hnone) hrow
  | ok answer =>
      cases op with
      | pruneSettled maxAgeS => exact ⟨maxAgeS, rfl⟩
      | acceptTask k =>
          obtain ⟨now, -, rfl, -⟩ := h
          dsimp only [acceptTask] at hnone
          split at hnone
          · exact absurd hnone (hupdate hrow)
          · exact absurd hnone hrow
      | claimTask k =>
          obtain ⟨now, -, rfl, -⟩ := h
          dsimp only [claimTask] at hnone
          split at hnone
          · exact absurd hnone (hupdate hrow)
          · exact absurd hnone hrow
      | settleTask k ok =>
          obtain ⟨now, rfl, -⟩ := h
          dsimp only [settleTask] at hnone
          cases hold : s.db.acceptedTask k with
          | some row =>
              rw [hold, Option.map_some] at hnone
              exact absurd hnone (hupdate hrow)
          | none =>
              rw [hold, Option.map_none, Function.update_apply] at hnone
              split_ifs at hnone with hk
              · rw [hk] at hrow
                exact absurd hold hrow
              · exact absurd hnone hrow
      | markSettled l k =>
          obtain ⟨now, rfl, -⟩ := h
          exact absurd hnone hrow
      | deadLetter l e r =>
          obtain ⟨now, rfl, -⟩ := h
          exact absurd hnone hrow
      | acquireSlot | runEngine | saveIdentity | loadSettled =>
          obtain ⟨-, rfl, -⟩ := h
          exact absurd hnone hrow
      | _ =>
          obtain ⟨rfl, -⟩ := h
          exact absurd hnone hrow

/-- The change keeps to the horizon: what it writes is not before it, and a sweep cuts off at it or
before. -/
structure KeepsHorizon (horizon : String) (c : RelayChange) : Prop where
  written : ∀ key row, c.after.shared.db.acceptedTask key = some row →
    c.before.shared.db.acceptedTask key = some row ∨ ¬ row.updatedAt < horizon
  swept : ∀ i maxAgeS, c.move = .call i ⟨.pruneSettled maxAgeS, .ok ()⟩ →
    ∃ cutoff, c.after.shared.db = pruneSettled c.before.shared.db cutoff ∧ ¬ horizon < cutoff

/-- **While the sweeps keep to a horizon**, a task that is written at it or later stays in the
store, and is claimed once. -/
theorem claimed_once (h : (relayPlatform deps).Run P₀ trail P)
    {horizon : String} (hwithin : ∀ c ∈ trail, KeepsHorizon horizon c) {key : TaskKey}
    (hnew : ∀ row, P₀.shared.db.acceptedTask key = some row → ¬ row.updatedAt < horizon) :
    (∀ c ∈ trail, ¬ Deletes c key)
      ∧ ∀ first c middle d last, trail = first ++ c :: (middle ++ d :: last) → Claims c key →
        ¬ Claims d key := by
  have hrows : ∀ {before after : List RelayChange} {Q : RelayPool}, trail = before ++ after →
      (relayPlatform deps).Run P₀ before Q →
      ∀ row, Q.shared.db.acceptedTask key = some row → ¬ row.updatedAt < horizon := by
    intro before after Q htrail hrun
    refine hrun.invariant (KeepsHorizon horizon)
      (fun Q => ∀ row, Q.shared.db.acceptedTask key = some row → ¬ row.updatedAt < horizon)
      (fun Q m Q' _ hok hQ row hrow => ?_) (fun c hc => hwithin c ?_) hnew
    · exact (hok.written key row hrow).elim (hQ row) id
    · rw [htrail]
      exact List.mem_append_left _ hc
  have hkeep : ∀ c ∈ trail, ¬ Deletes c key := by
    rintro c hc ⟨hbefore, hafter⟩
    obtain ⟨front, rest, htrail, hrun, hstep⟩ := h.step_of_mem hc
    rcases status_step hstep key with hsame | ⟨i, x, jobs, hm, heffect⟩
    · exact hbefore (hsame ▸ hafter)
    have hlost : ∃ maxAgeS, x = ⟨.pruneSettled maxAgeS, .ok ()⟩ :=
      effect_lost heffect (fun hnone => hbefore (Option.map_eq_none_iff.mpr hnone))
        (Option.map_eq_none_iff.mp hafter)
    obtain ⟨maxAgeS, rfl⟩ := hlost
    obtain ⟨cutoff, hdb, hcutoff⟩ := (hwithin c hc).swept i maxAgeS hm
    obtain ⟨row, hrow⟩ := Option.ne_none_iff_exists'.mp
      fun hnone => hbefore (Option.map_eq_none_iff.mpr hnone)
    have hyoung : cutoff ≤ row.updatedAt :=
      (not_lt.mp hcutoff).trans (not_lt.mp (hrows htrail hrun row hrow))
    have hfresh : row.stale cutoff = false := by
      rw [AcceptRow.stale, decide_eq_false (not_lt.mpr hyoung), Bool.and_false]
    have hkept : (pruneSettled c.before.shared.db cutoff).acceptedTask key = some row := by
      simp [pruneSettled, hrow, hfresh]
    rw [RelayState.status, hdb, hkept] at hafter
    cases hafter
  refine ⟨hkeep, ?_⟩
  rintro first c middle d last rfl ⟨i, hc⟩ ⟨j, hd⟩
  obtain ⟨Q, -, hrest⟩ := Platform.run_append.mp h
  obtain ⟨-, hstepc, hrest⟩ := Platform.run_cons.mp hrest
  obtain ⟨R, hmiddle, hlast⟩ := Platform.run_append.mp hrest
  obtain ⟨-, hstepd, -⟩ := Platform.run_cons.mp hlast
  rw [hc] at hstepc
  rw [hd] at hstepd
  obtain ⟨_, hclaimed⟩ := hstepc.call_effect
  obtain ⟨_, hagain⟩ := hstepd.call_effect
  obtain ⟨status, hstatus, hne⟩ := claimed_run hmiddle (fun e he => hkeep e (by simp [he]))
    ⟨.running, (effect_claim hclaimed).2, by simp⟩
  rw [(effect_claim hagain).1, Option.some.injEq] at hstatus
  exact hne hstatus.symm

end Runtime

section Example

attribute [local instance] cpython stringText

/-- A request is acknowledged and its task claimed; then it is repeated. -/
def repeatedRequest : List (Cue RelayJob RelayChoice) :=
  takenRequest 0 "T1" ++ [.call 0 .ok, .call 0 .ok, .call 1 .ok,
    .start (.postTask (oneTodoPayload "T1")), .call 2 .ok, .call 2 .ok, .call 2 .ok]

/-- The second acknowledgement is vouched for, and the task it is about has been claimed or is in
the store. -/
theorem ack_durable_of_repeated : ∃ (trail : List RelayChange) (P : RelayPool),
    (relayPlatform scriptDeps).Run freshPool trail P ∧ ∃ c ∈ trail, ∃ t payload key body,
      c.before.threads[2]? = some t ∧ Vouched payload t.past key body := by
  have hplayed : ((relayAnswers scriptDeps).play freshPool repeatedRequest).any (fun r =>
      (r.1.all fun c => !lateFails c) && r.1.any fun c => repliesWith 202 c == some 2) = true := by
    decide +kernel
  obtain ⟨⟨trail, P⟩, hplay, hcheck⟩ := (Option.any_eq_true _ _).mp hplayed
  obtain ⟨hlate, hacks⟩ := (Bool.and_eq_true _ _).mp hcheck
  have hrun := AnswerBook.play_run _ hplay
  obtain ⟨c, hc, hack⟩ := List.any_eq_true.mp hacks
  obtain ⟨body, out, hm⟩ := repliesWith_eq_some (beq_iff_eq.mp hack)
  have hnone : ∀ c ∈ trail, ¬ LateFailing c :=
    fun c hc => not_lateFailing (by simpa using List.all_eq_true.mp hlate c hc)
  obtain ⟨t, payload, key, ht, -, hvouched, -⟩ := (ack_durable hrun rfl hnone).2 c hc 2 body out hm
  exact ⟨trail, P, hrun, c, hc, t, payload, key, body, ht, hvouched⟩

/-- A store with a task that was done in 2026. -/
def settledPool : RelayPool :=
  ⟨⟨{ RelayDb.empty with acceptedTask := fun _ => some ⟨.done, "2026"⟩ }, fun _ => none, 4⟩, []⟩

/-- A sweep that cuts off in 2025 leaves a task of 2026 in the store. -/
theorem claimed_once_of_sweep : ∃ (trail : List RelayChange) (P : RelayPool),
    (relayPlatform scriptDeps).Run settledPool trail P ∧ trail.length = 2
      ∧ ∀ c ∈ trail, ¬ Deletes c (oneTodoKey "T1") := by
  have hstarted : (relayPlatform scriptDeps).Step settledPool (.start (.sweep none))
      ⟨settledPool.shared, [(relayPlatform scriptDeps).fresh (.sweep none)]⟩ :=
    .start fun payload heq => by cases heq
  have hswept : (relayPlatform scriptDeps).Step
      ⟨settledPool.shared, [(relayPlatform scriptDeps).fresh (.sweep none)]⟩
      (.call 0 ⟨.pruneSettled none, .ok ()⟩) _ :=
    .call rfl ⟨"2025", rfl, rfl⟩
  have hrun := (Platform.Run.nil.snoc hstarted).snoc hswept
  have hrow : ∀ row, settledPool.shared.db.acceptedTask (oneTodoKey "T1") = some row →
      ¬ row.updatedAt < "2026" := by
    intro row hrow
    cases hrow
    decide
  refine ⟨_, _, hrun, rfl, (claimed_once hrun (fun c hc => ?_) hrow).1⟩
  rw [List.nil_append, List.singleton_append, List.mem_cons, List.mem_singleton] at hc
  rcases hc with rfl | rfl
  · exact ⟨fun key row hrow => Or.inl hrow, fun i maxAgeS hm => by cases hm⟩
  · have hkept : ∀ key row,
        (pruneSettled settledPool.shared.db "2025").acceptedTask key = some row →
          settledPool.shared.db.acceptedTask key = some row := by
      intro key row hrow
      have hfilter : (settledPool.shared.db.acceptedTask key).filter
          (fun row => !row.stale "2025") = some row := hrow
      exact (Option.filter_eq_some_iff.mp hfilter).1
    exact ⟨fun key row hrow => Or.inl (hkept key row hrow), fun i maxAgeS _ =>
      ⟨"2025", rfl, by decide⟩⟩

end Example

end IplanRunner
