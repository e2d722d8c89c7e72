import IplanRunner.Receiver.Script

/-!
At most one run of a dispatched task.

* `runOnce`: the contract of a worker: it claims once, and settles what it has claimed and not yet
  settled.  It expects its last log line not to raise; `meets_execute` needs that.
* `effect_running`, `effect_claim`, `effect_row`: what a call does to the row of a task.
* `OneHolder`: a task claimed and not settled is `running`, and one thread has claimed it.
-/

namespace IplanRunner

open Foundation

/-! ### The calls of a worker -/

/-- A call that neither claims nor settles. -/
def RelayOp.quiet : RelayOp → Bool
  | .claimTask _ => false
  | .settleTask _ _ => false
  | _ => true

/-- The thread has claimed the task and has not settled it. -/
def Holds (past : List RelayExchange) (key : TaskKey) : Prop :=
  ⟨.claimTask key, .ok true⟩ ∈ past ∧ ∀ ok, ⟨.settleTask key ok, .ok ()⟩ ∉ past

/-- A worker's last log line raises an exception, behind its settling. -/
def LateFailure (x : RelayExchange) : Prop :=
  ∃ key ledgerId delivered pending ok e, e.isException = true
    ∧ x = ⟨.log (.runDone key ledgerId delivered pending ok), .error e⟩

/-- A thread claims once, and settles what it holds. -/
def runOnce : Contract Raised RelayOp RelayOp.Res where
  allowed past
    | .claimTask _ => ∀ x ∈ past, x.op.quiet = true
    | .settleTask key _ => Holds past key
    | _ => True
  expected x := ¬ LateFailure x

lemma runOnce_of_quiet (past : List RelayExchange) (op : RelayOp) (h : op.quiet = true) :
    runOnce.allowed past op := by
  cases op <;> first | exact trivial | cases h

/-- Other calls do not take a held task away. -/
lemma Holds.append {past more : List RelayExchange} {key : TaskKey} (h : Holds past key)
    (hmore : ∀ x ∈ more, x.op.quiet = true) : Holds (past ++ more) key := by
  refine ⟨List.mem_append_left _ h.1, fun ok hmem => ?_⟩
  rcases List.mem_append.mp hmem with hin | hin
  · exact h.2 ok hin
  · exact absurd (hmore _ hin) (by simp [RelayOp.quiet])

/-- A settling that raised does not take a held task away. -/
lemma Holds.settle_error {past : List RelayExchange} {key : TaskKey} (h : Holds past key)
    {ok : Bool} {e : Raised} : Holds (past ++ [⟨.settleTask key ok, .error e⟩]) key := by
  refine ⟨List.mem_append_left _ h.1, fun ok' hmem => ?_⟩
  rcases List.mem_append.mp hmem with hin | hin
  · exact h.2 ok' hin
  · rw [List.mem_singleton, Exchange.mk.injEq] at hin
    obtain ⟨hop, hout⟩ := hin
    cases hop
    cases eq_of_heq hout

/-! ### Quiet routines -/

/-- A routine that neither claims nor settles. -/
abbrev Quiet {α : Type} (p : Relay α) : Prop := p.Only fun op => op.quiet = true

lemma quiet_pyLift {α : Type} (x : Except PyErr α) : Quiet (pyLift x) := only_pyLift x

lemma quiet_postTask [SqlText] (payload : Dict) : Quiet (postTask payload) := by
  refine (only_postTask payload).mono fun op hop => ?_
  cases op <;> first | exact rfl | exact hop.elim

section Runtime

variable [PyRuntime]

lemma quiet_drain (job : DrainJob) : Quiet (drain job) := by
  refine (only_drain job).mono fun op hop => ?_
  cases op <;> first | exact rfl | exact hop.elim

lemma quiet_provisionWorkspace (payload : Dict) (root : String) (runId taskId : Val) :
    Quiet (provisionWorkspace payload root runId taskId) := by
  refine (only_provisionWorkspace payload root runId taskId).mono fun op hop => ?_
  cases op <;> first | exact rfl | exact hop.elim

lemma quiet_runAndDrain (deps : ReceiverDeps) (payload : Dict) (runId taskId : Val) :
    Quiet (runAndDrain deps payload runId taskId) := by
  refine Routine.Only.bind (quiet_pyLift _) fun _ => ?_
  refine Routine.Only.bind (quiet_provisionWorkspace ..) fun workspace => ?_
  refine Routine.Only.bind (quiet_pyLift _) fun adapted => ?_
  refine Routine.Only.bind (quiet_pyLift _) fun manifest => ?_
  refine Routine.Only.bind (Routine.only_perform rfl) fun ledger => ?_
  refine Routine.Only.bind (Routine.only_perform rfl) fun _ => ?_
  refine Routine.Only.bind (Routine.only_perform rfl) fun identity => ?_
  exact Routine.Only.bind (quiet_drain _) fun report => Routine.only_done _

omit [PyRuntime] in
lemma quiet_cleanUp (key : TaskKey) (cloned : Except PyErr (Option String)) :
    Quiet (cleanUp key cloned) := by
  refine (only_cleanUp key cloned).mono fun op hop => ?_
  cases op <;> first | exact rfl | exact hop.elim

/-! ### The contract of a worker -/

variable [SqlText]

omit [PyRuntime] [SqlText] in
/-- The rule for a computation without calls. -/
lemma meets_pyLift_bind {α β : Type} {C : Contract Raised RelayOp RelayOp.Res}
    {past : List RelayExchange} {x : Except PyErr α} {f : α → Relay β}
    {Q : List RelayExchange → Except Raised β → Prop} (hok : ∀ a, (f a).Meets C past Q)
    (herror : ∀ e, Q past (.error e)) : (pyLift x >>= f).Meets C past Q := by
  cases x with
  | ok a => exact hok a
  | error e => exact herror _

omit [SqlText] in
/-- However the run ends, an exception leaves the task held: its settling is the first. -/
lemma meets_runClaimed (deps : ReceiverDeps) (payload : Dict) (runId taskId : Val) {key : TaskKey}
    {past : List RelayExchange} (hpast : Holds past key) :
    (runClaimed deps payload runId taskId key).Meets runOnce past fun past' out =>
      ∀ e, out = .error e → e.isException = true → Holds past' key := by
  refine ((quiet_runAndDrain deps payload runId taskId).meets runOnce_of_quiet).bind ?_ ?_
  · rintro past' ⟨ledger, report⟩ ⟨more, rfl, hmore⟩
    have hholds := hpast.append hmore
    refine ⟨hholds, fun out _ => ?_⟩
    cases out with
    | error e => exact fun e' _ _ => hholds.settle_error
    | ok _ =>
        refine ⟨trivial, fun out' hout' => ?_⟩
        rintro e rfl hexception
        exact absurd ⟨_, _, _, _, _, e, hexception, rfl⟩ hout'
  · rintro past' e ⟨more, rfl, hmore⟩ e' - -
    exact hpast.append hmore

/-- **A worker claims once and settles what it holds.** -/
theorem meets_execute (deps : ReceiverDeps) (payload : Dict) :
    (execute deps payload).Meets runOnce [] fun _ _ => True := by
  refine meets_pyLift_bind (fun runId => ?_) fun e => trivial
  refine meets_pyLift_bind (fun taskId => ?_) fun e => trivial
  refine meets_pyLift_bind (fun key => ?_) fun e => trivial
  refine ⟨List.forall_mem_nil _, fun claimed _ => ?_⟩
  cases claimed with
  | error e => trivial
  | ok won =>
      cases won with
      | false => exact ⟨trivial, fun _ _ => trivial⟩
      | true =>
          have hholds : Holds [⟨.claimTask key, .ok true⟩] key := by
            refine ⟨List.mem_singleton_self _, fun ok hmem => ?_⟩
            rw [List.mem_singleton, Exchange.mk.injEq] at hmem
            cases hmem.1
          refine ⟨trivial, fun started _ => ?_⟩
          cases started with
          | error e => trivial
          | ok _ =>
              have hlog :
                  Holds ([⟨.claimTask key, .ok true⟩] ++ [⟨.log (.runStart key), .ok ()⟩]) key :=
                hholds.append (by simp [RelayOp.quiet])
              have htry : ((runClaimed deps payload runId taskId key).handle
                  (settleFailed key)).Meets runOnce
                    ([⟨.claimTask key, .ok true⟩] ++ [⟨.log (.runStart key), .ok ()⟩])
                    fun _ _ => True := by
                refine (meets_runClaimed deps payload runId taskId hlog).handle ?_ ?_
                · exact fun _ _ _ => trivial
                · intro past' e he
                  rw [settleFailed]
                  split_ifs with hexception
                  · refine ⟨he e rfl hexception, fun settled _ => ?_⟩
                    cases settled with
                    | error e' => trivial
                    | ok _ => exact ⟨trivial, fun _ _ => trivial⟩
                  · trivial
              refine htry.finallyDo fun past' out _ => ?_
              refine ((quiet_cleanUp key _).meets runOnce_of_quiet).mono ?_
              exact fun _ _ _ _ => ⟨trivial, fun _ _ => trivial⟩

/-- Every thread keeps to it. -/
theorem meets_jobBody (deps : ReceiverDeps) (job : RelayJob) :
    (jobBody deps job).Meets runOnce [] fun _ _ => True := by
  have hquiet : ∀ {p : Relay Unit}, Quiet p → p.Meets runOnce [] fun _ _ => True :=
    fun hp => (hp.meets runOnce_of_quiet).mono fun _ _ _ _ => trivial
  cases job with
  | postTask payload => exact hquiet (quiet_postTask payload)
  | drain job => exact hquiet (Routine.Only.bind (quiet_drain job) fun _ => Routine.only_done _)
  | sweep maxAgeS => exact hquiet (Routine.only_perform rfl)
  | execute payload =>
      refine (meets_execute deps payload).finallyDo fun past' out _ => ?_
      exact ⟨trivial, fun end' _ => ⟨trivial, fun _ _ => trivial⟩⟩

/-! ### The row of a task -/

/-- The status of a task's row. -/
def RelayState.status (s : RelayState) (key : TaskKey) : Option AcceptStatus :=
  (s.db.acceptedTask key).map (·.status)

omit [SqlText] in
/-- **What a call does to the row of a task.** -/
theorem effect_status {x : RelayExchange} {s s' : RelayState} {jobs : List RelayJob}
    (h : x.op.effect s x.out s' jobs) (key : TaskKey) :
    s'.status key = s.status key
      ∨ x.op = .acceptTask key ∧ s.status key = none ∧ s'.status key = some .accepted
      ∨ x = ⟨.claimTask key, .ok true⟩ ∧ s.status key = some .accepted
        ∧ s'.status key = some .running
      ∨ (∃ ok, x = ⟨.settleTask key ok, .ok ()⟩ ∧ s.status key ≠ none
        ∧ s'.status key = some (if ok then .done else .failed))
      ∨ (s.status key = some .done ∨ s.status key = some .failed) ∧ s'.status key = none := by
  obtain ⟨op, out⟩ := x
  cases out with
  | error e => exact Or.inl (by rw [h.2.1])
  | ok answer =>
      cases op with
      | log notice => exact Or.inl (by rw [h.1])
      | now => exact Or.inl (by rw [h.1])
      | startWorker payload => exact Or.inl (by rw [h.1])
      | reply status body => exact Or.inl (by rw [h.1])
      | rmtree path => exact Or.inl (by rw [h.1])
      | makeParent path => exact Or.inl (by rw [h.1])
      | clone url ref dest => exact Or.inl (by rw [h.1])
      | post event => exact Or.inl (by rw [h.1])
      | releaseSlot => exact Or.inl (by rw [h.1]; rfl)
      | save ledger => exact Or.inl (by rw [h.1]; rfl)
      | acquireSlot => exact Or.inl (by rw [h.2.1]; rfl)
      | runEngine manifest workspace => exact Or.inl (by rw [h.2.1])
      | saveIdentity ledgerId payload => exact Or.inl (by rw [h.2.1]; rfl)
      | loadSettled ledgerId => exact Or.inl (by rw [h.2.1])
      | markSettled ledgerId k =>
          obtain ⟨now, hs, -⟩ := h
          exact Or.inl (by rw [hs]; rfl)
      | deadLetter ledgerId event reason =>
          obtain ⟨now, hs, -⟩ := h
          exact Or.inl (by rw [hs]; rfl)
      | acceptTask k =>
          obtain ⟨now, -, hs, -⟩ := h
          cases hrow : s.db.acceptedTask k with
          | some row => exact Or.inl (by rw [hs, acceptTask, hrow])
          | none =>
              rw [acceptTask, hrow] at hs
              by_cases hk : k = key
              · subst hk
                refine Or.inr (Or.inl ⟨rfl, ?_, ?_⟩)
                · rw [RelayState.status, hrow, Option.map_none]
                · simp [hs, RelayState.status]
              · exact Or.inl (by simp [hs, RelayState.status, Function.update_of_ne (Ne.symm hk)])
      | claimTask k =>
          obtain ⟨now, hanswer, hs, -⟩ := h
          by_cases hrow : (s.db.acceptedTask k).map (·.status) = some .accepted
          · rw [claimTask, if_pos hrow] at hs hanswer
            cases hanswer
            by_cases hk : k = key
            · subst hk
              exact Or.inr (Or.inr (Or.inl ⟨rfl, hrow, by simp [hs, RelayState.status]⟩))
            · exact Or.inl (by simp [hs, RelayState.status, Function.update_of_ne (Ne.symm hk)])
          · exact Or.inl (by rw [hs, claimTask, if_neg hrow])
      | settleTask k ok =>
          obtain ⟨now, hs, -⟩ := h
          by_cases hk : k = key
          · subst hk
            cases hrow : s.db.acceptedTask k with
            | none => exact Or.inl (by simp [hs, settleTask, RelayState.status, hrow])
            | some row =>
                refine Or.inr (Or.inr (Or.inr (Or.inl ⟨ok, rfl, ?_, ?_⟩)))
                · simp [RelayState.status, hrow]
                · simp [hs, settleTask, RelayState.status, hrow]
          · exact Or.inl (by
              simp [hs, settleTask, RelayState.status, Function.update_of_ne (Ne.symm hk)])
      | pruneSettled maxAgeS =>
          obtain ⟨cutoff, hs, -⟩ := h
          cases hrow : s.db.acceptedTask key with
          | none => exact Or.inl (by simp [hs, pruneSettled, RelayState.status, hrow])
          | some row =>
              by_cases hstale : row.stale cutoff = true
              · refine Or.inr (Or.inr (Or.inr (Or.inr ⟨?_, ?_⟩)))
                · rw [AcceptRow.stale, Bool.and_eq_true, Bool.or_eq_true, decide_eq_true_eq,
                    decide_eq_true_eq] at hstale
                  simpa [RelayState.status, hrow] using hstale.1
                · simp [hs, pruneSettled, RelayState.status, hrow, hstale]
              · exact Or.inl (by simp [hs, pruneSettled, RelayState.status, hrow, hstale])

omit [SqlText] in
/-- A claim that is won finds the task accepted. -/
lemma effect_claim {key : TaskKey} {s s' : RelayState} {jobs : List RelayJob}
    (h : (RelayOp.claimTask key).effect s (.ok true) s' jobs) :
    s.status key = some .accepted ∧ s'.status key = some .running := by
  obtain ⟨now, hanswer, hs, -⟩ := h
  by_cases hrow : (s.db.acceptedTask key).map (·.status) = some .accepted
  · rw [claimTask, if_pos hrow] at hs
    exact ⟨hrow, by simp [hs, RelayState.status]⟩
  · rw [claimTask, if_neg hrow] at hanswer
    cases hanswer

omit [SqlText] in
/-- A claim that is lost changes nothing. -/
lemma effect_claim_lost {key : TaskKey} {s s' : RelayState} {jobs : List RelayJob}
    (h : (RelayOp.claimTask key).effect s (.ok false) s' jobs) : s' = s := by
  obtain ⟨now, hanswer, hs, -⟩ := h
  by_cases hrow : (s.db.acceptedTask key).map (·.status) = some .accepted
  · rw [claimTask, if_pos hrow] at hanswer
    cases hanswer
  · rw [hs, claimTask, if_neg hrow]

omit [SqlText] in
/-- What `accept_task` answers. -/
lemma effect_accept {key : TaskKey} {s s' : RelayState} {jobs : List RelayJob}
    {decision : AcceptDecision} (h : (RelayOp.acceptTask key).effect s (.ok decision) s' jobs) :
    decision = .accept ↔ s.status key = none ∨ s.status key = some .accepted := by
  obtain ⟨now, hanswer, -, -⟩ := h
  rw [hanswer, acceptTask, RelayState.status]
  cases hrow : s.db.acceptedTask key with
  | none => simp
  | some row => by_cases hstatus : row.status = .accepted <;> simp [hstatus]

/-! ### One holder -/

/-- What a thread has claimed and not settled is `running`, and no other thread has claimed it. -/
structure OneHolder (P : RelayPool) : Prop where
  running : ∀ (i : ℕ) (t : RelayThread) (key : TaskKey), P.threads[i]? = some t → Holds t.past key →
    P.shared.status key = some .running
  unique : ∀ (i j : ℕ) (t t' : RelayThread) (key : TaskKey), P.threads[i]? = some t →
    P.threads[j]? = some t' → Holds t.past key →
    Holds t'.past key → i = j

variable {deps : ReceiverDeps} {P P' P₀ : RelayPool}
  {m : ThreadMove Raised RelayOp RelayOp.Res RelayJob}
  {trail : List RelayChange}

/-- A task that is held after a step was held before it and not settled, or has been claimed. -/
lemma holds_step (h : (relayPlatform deps).Step P m P') {j : ℕ}
    {t' : RelayThread} {key : TaskKey}
    (ht' : P'.threads[j]? = some t') (hholds : Holds t'.past key) :
    (∃ t, P.threads[j]? = some t ∧ Holds t.past key
        ∧ ∀ ok, m ≠ .call j ⟨.settleTask key ok, .ok ()⟩)
      ∨ m = .call j ⟨.claimTask key, .ok true⟩ := by
  rcases h.thread ht' with ⟨t, ht, -, ⟨hpast, -⟩ | ⟨op, next, out, rfl, -, hpast, -⟩⟩ |
    ⟨-, job, rfl, -⟩
  · rw [hpast] at hholds
    refine Or.inl ⟨t, ht, hholds, fun ok hm => ?_⟩
    -- a call of its own would have made the past of the thread longer
    subst hm
    cases h with
    | call hthread heffect =>
        have hj := (List.getElem?_eq_some_iff.mp hthread).1
        rw [List.getElem?_append_left (by rwa [List.length_set]), List.getElem?_set_self hj] at ht'
        rw [ht] at hthread
        cases hthread
        cases ht'
        exact absurd (congrArg List.length hpast) (by simp)
  · rw [hpast] at hholds
    obtain ⟨hclaim, hsettle⟩ := hholds
    rcases List.mem_append.mp hclaim with hin | hin
    · refine Or.inl ⟨t, ht, ⟨hin, fun ok hok => hsettle ok (List.mem_append_left _ hok)⟩, ?_⟩
      rintro ok hm
      injection hm with _ hx
      exact hsettle ok (List.mem_append_right _ (by rw [hx]; exact List.mem_singleton_self _))
    · rw [List.mem_singleton] at hin
      rw [hin]
      exact Or.inr rfl
  · exact absurd hholds.1 (List.not_mem_nil)

/-- What a step does to the row of a task. -/
lemma status_step (h : (relayPlatform deps).Step P m P') (key : TaskKey) :
    P'.shared.status key = P.shared.status key
      ∨ ∃ i x jobs, m = .call i x ∧ RelayOp.effect x.op P.shared x.out P'.shared jobs := by
  rcases h.shared with hsame | hrecover | ⟨i, op, out, jobs, rfl, heffect⟩
  · exact Or.inl (by rw [hsame])
  · exact Or.inl (by rw [hrecover]; rfl)
  · exact Or.inr ⟨i, ⟨op, out⟩, jobs, rfl, heffect⟩

/-- **A step keeps the one holder.** -/
theorem oneHolder_step (h : (relayPlatform deps).Step P m P')
    (hkept : Platform.Kept (fun _ => runOnce) P) (hP : OneHolder P) : OneHolder P' := by
  refine ⟨fun j t' key ht' hholds => ?_, fun i j t t' key ht ht' hi hj => ?_⟩
  · rcases holds_step h ht' hholds with ⟨t, ht, hbefore, hnot⟩ | rfl
    · have hrow := hP.running j t key ht hbefore
      rcases status_step h key with hsame | ⟨i, x, jobs, rfl, heffect⟩
      · rw [hsame, hrow]
      rcases effect_status heffect key with
        hsame | ⟨-, hnone, -⟩ | ⟨-, haccepted, -⟩ | ⟨ok, rfl, -, -⟩ | ⟨hended, -⟩
      · rw [hsame, hrow]
      · rw [hrow] at hnone
        cases hnone
      · rw [hrow] at haccepted
        cases haccepted
      · -- who settles holds, so it is the thread itself
        obtain ⟨t₁, ht₁, hallowed, -⟩ := h.allowed hkept
        obtain rfl := hP.unique i j t₁ t key ht₁ ht hallowed hbefore
        exact absurd rfl (hnot ok)
      · rw [hrow] at hended
        rcases hended with hended | hended
        · cases hended
        · cases hended
    · obtain ⟨jobs, heffect⟩ := h.call_effect
      exact (effect_claim heffect).2
  · rcases holds_step h ht hi with ⟨t₁, ht₁, hbefore₁, -⟩ | rfl
    · rcases holds_step h ht' hj with ⟨t₂, ht₂, hbefore₂, -⟩ | rfl
      · exact hP.unique i j t₁ t₂ key ht₁ ht₂ hbefore₁ hbefore₂
      · obtain ⟨jobs, heffect⟩ := h.call_effect
        have hrow := hP.running i t₁ key ht₁ hbefore₁
        rw [(effect_claim heffect).1] at hrow
        cases hrow
    · rcases holds_step h ht' hj with ⟨t₂, ht₂, hbefore₂, -⟩ | hm
      · obtain ⟨jobs, heffect⟩ := h.call_effect
        have hrow := hP.running j t₂ key ht₂ hbefore₂
        rw [(effect_claim heffect).1] at hrow
        cases hrow
      · injection hm with hij

/-! ### Runs -/

/-- A worker's last log line raises in this change. -/
def LateFailing (c : RelayChange) : Prop := ∃ i x, c.move = .call i x ∧ LateFailure x

/-- A claim of the task returns `True` in this change. -/
def Claims (c : RelayChange) (key : TaskKey) : Prop :=
  ∃ i, c.move = .call i ⟨.claimTask key, .ok true⟩

/-- The row of the task is deleted in this change. -/
def Deletes (c : RelayChange) (key : TaskKey) : Prop :=
  c.before.shared.status key ≠ none ∧ c.after.shared.status key = none

/-- A live thread runs the task: it has claimed it and not settled it yet. -/
def Running (P : RelayPool) (i : ℕ) (key : TaskKey) : Prop :=
  ∃ job past op next, P.threads[i]? = some ⟨job, past, some (.call op next)⟩ ∧ Holds past key

/-- Where no last log line raises, every thread keeps to the contract. -/
lemma kept_runOnce (h : (relayPlatform deps).Run P₀ trail P) (hstart : P₀.threads = [])
    (hlate : ∀ c ∈ trail, ¬ LateFailing c) : Platform.Kept (fun _ => runOnce) P := by
  refine h.meets (fun c hc i x t hm _ hfailure => hlate c hc ⟨i, x, hm, hfailure⟩)
    (meets_jobBody deps) ?_
  rw [Platform.Kept, hstart]
  exact fun t ht => absurd ht List.not_mem_nil

/-- Where no last log line raises, a task has one holder. -/
lemma oneHolder_run (h : (relayPlatform deps).Run P₀ trail P) (hstart : P₀.threads = [])
    (hlate : ∀ c ∈ trail, ¬ LateFailing c) : OneHolder P := by
  have hboth : Platform.Kept (fun _ => runOnce) P ∧ OneHolder P := by
    refine h.invariant (fun c => ¬ LateFailing c)
      (fun Q => Platform.Kept (fun _ => runOnce) Q ∧ OneHolder Q)
      (fun Q m Q' hstep hok hQ => ?_) hlate ⟨?_, ?_, ?_⟩
    · refine ⟨hstep.meets ?_ hQ.1 (meets_jobBody deps), oneHolder_step hstep hQ.1 hQ.2⟩
      exact fun i x t hm _ hfailure => hok ⟨i, x, hm, hfailure⟩
    · rw [Platform.Kept, hstart]
      exact fun t ht => absurd ht List.not_mem_nil
    · intro i t key ht
      rw [hstart] at ht
      cases ht
    · intro i j t t' key ht
      rw [hstart] at ht
      cases ht
  exact hboth.2

/-- A row is deleted in `done` or `failed` only. -/
lemma not_deletes_of_active {c : RelayChange}
    (h : (relayPlatform deps).Step c.before c.move c.after)
    {key : TaskKey} (hactive : c.before.shared.status key = some .accepted
      ∨ c.before.shared.status key = some .running) : ¬ Deletes c key := by
  rintro ⟨hbefore, hafter⟩
  rcases status_step h key with hsame | ⟨i, x, jobs, -, heffect⟩
  · exact hbefore (hsame ▸ hafter)
  rcases effect_status heffect key with
    hsame | ⟨-, -, hrow⟩ | ⟨-, -, hrow⟩ | ⟨ok, -, -, hrow⟩ | ⟨hended, -⟩
  · exact hbefore (hsame ▸ hafter)
  · rw [hafter] at hrow
    cases hrow
  · rw [hafter] at hrow
    cases hrow
  · rw [hafter] at hrow
    cases hrow
  · rcases hactive with hactive | hactive
    · rw [hactive] at hended
      rcases hended with hended | hended <;> cases hended
    · rw [hactive] at hended
      rcases hended with hended | hended <;> cases hended

/-- A task that is past `accepted` stays there until its row is deleted. -/
lemma claimed_run (h : (relayPlatform deps).Run P₀ trail P) {key : TaskKey}
    (hkeep : ∀ c ∈ trail, ¬ Deletes c key)
    (hpast : ∃ status, P₀.shared.status key = some status ∧ status ≠ .accepted) :
    ∃ status, P.shared.status key = some status ∧ status ≠ .accepted := by
  refine h.invariant (fun c => ¬ Deletes c key)
    (fun Q => ∃ status, Q.shared.status key = some status ∧ status ≠ .accepted)
    (fun Q m Q' hstep hok ⟨status, hstatus, hne⟩ => ?_) hkeep hpast
  rcases status_step hstep key with hsame | ⟨i, x, jobs, -, heffect⟩
  · exact ⟨status, hsame.trans hstatus, hne⟩
  rcases effect_status heffect key with
    hsame | ⟨-, hnone, -⟩ | ⟨-, -, hrow⟩ | ⟨ok, -, -, hrow⟩ | ⟨-, hnone⟩
  · exact ⟨status, hsame.trans hstatus, hne⟩
  · rw [hstatus] at hnone
    cases hnone
  · exact ⟨.running, hrow, by simp⟩
  · exact ⟨_, hrow, by cases ok <;> simp⟩
  · refine absurd ⟨?_, hnone⟩ hok
    dsimp only
    rw [hstatus]
    simp

/-- **At most one run per dispatched task.**  In every run in which no worker's last log line
raises, from any content of the store: two claims of a task that return `True` have a deletion of
its row between them, no two threads run it at once, its row is not deleted while it is accepted or
running, and `accept_task` answers `accept` exactly where the row is absent or still accepted. -/
theorem one_run_per_task (h : (relayPlatform deps).Run P₀ trail P) (hstart : P₀.threads = [])
    (hlate : ∀ c ∈ trail, ¬ LateFailing c) (key : TaskKey) :
    (∀ first c middle d last, trail = first ++ c :: (middle ++ d :: last) → Claims c key →
        Claims d key → ∃ e ∈ middle, Deletes e key)
      ∧ (∀ i j, Running P i key → Running P j key → i = j)
      ∧ (∀ c ∈ trail, c.before.shared.status key = some .accepted
          ∨ c.before.shared.status key = some .running → ¬ Deletes c key)
      ∧ ∀ c ∈ trail, ∀ i decision, c.move = .call i ⟨.acceptTask key, .ok decision⟩ →
          (decision = .accept ↔ c.before.shared.status key = none
            ∨ c.before.shared.status key = some .accepted) := by
  have hone := oneHolder_run h hstart hlate
  refine ⟨?_, ?_, ?_, ?_⟩
  · rintro first c middle d last rfl ⟨i, hc⟩ ⟨j, hd⟩
    by_contra hnone
    push Not at hnone
    obtain ⟨Q, -, hrest⟩ := Platform.run_append.mp h
    obtain ⟨-, hstepc, hrest⟩ := Platform.run_cons.mp hrest
    obtain ⟨R, hmiddle, hlast⟩ := Platform.run_append.mp hrest
    obtain ⟨-, hstepd, -⟩ := Platform.run_cons.mp hlast
    rw [hc] at hstepc
    rw [hd] at hstepd
    obtain ⟨_, hclaimed⟩ := hstepc.call_effect
    obtain ⟨_, hagain⟩ := hstepd.call_effect
    obtain ⟨status, hstatus, hne⟩ := claimed_run hmiddle hnone
      ⟨.running, (effect_claim hclaimed).2, by simp⟩
    rw [(effect_claim hagain).1, Option.some.injEq] at hstatus
    exact hne hstatus.symm
  · rintro i j ⟨_, _, _, _, hi, hholdsi⟩ ⟨_, _, _, _, hj, hholdsj⟩
    exact hone.unique i j _ _ key hi hj hholdsi hholdsj
  · intro c hc hactive
    obtain ⟨-, -, -, -, hstep⟩ := h.step_of_mem hc
    exact not_deletes_of_active hstep hactive
  · intro c hc i decision hm
    obtain ⟨-, -, -, -, hstep⟩ := h.step_of_mem hc
    rw [hm] at hstep
    obtain ⟨jobs, heffect⟩ := hstep.call_effect
    exact effect_accept heffect

end Runtime

/-! ### Two runs played -/

/-- The claim of the task has been won. -/
def wonClaim (key : TaskKey) : RelayExchange → Bool
  | ⟨.claimTask k, .ok won⟩ => won && k == key
  | _ => false

/-- The task has been settled. -/
def doneSettle (key : TaskKey) : RelayExchange → Bool
  | ⟨.settleTask k _, .ok _⟩ => k == key
  | _ => false

/-- The thread runs the task. -/
def runsTask (P : RelayPool) (i : ℕ) (key : TaskKey) : Bool :=
  match P.threads[i]? with
  | some ⟨_, past, some (.call _ _)⟩ => past.any (wonClaim key) && !past.any (doneSettle key)
  | _ => false

lemma running_of_runsTask {P : RelayPool} {i : ℕ} {key : TaskKey} (h : runsTask P i key = true) :
    Running P i key := by
  rw [runsTask] at h
  split at h
  · rename_i job past op next hthread
    rw [Bool.and_eq_true, Bool.not_eq_true'] at h
    obtain ⟨hclaim, hsettle⟩ := h
    refine ⟨job, past, op, next, hthread, ?_, fun ok hmem => ?_⟩
    · obtain ⟨x, hx, hwon⟩ := List.any_eq_true.mp hclaim
      unfold wonClaim at hwon
      split at hwon
      · rw [Bool.and_eq_true, beq_iff_eq] at hwon
        obtain ⟨rfl, rfl⟩ := hwon
        exact hx
      · cases hwon
    · rw [List.any_eq_false] at hsettle
      exact hsettle _ hmem (by simp [doneSettle])
  · cases h

/-- The last log line of a worker raises. -/
def lateFails (c : RelayChange) : Bool :=
  match c.move with
  | .call _ ⟨.log (.runDone _ _ _ _ _), .error e⟩ => e.isException
  | _ => false

lemma not_lateFailing {c : RelayChange} (h : lateFails c = false) : ¬ LateFailing c := by
  rintro ⟨i, x, hm, key, ledgerId, delivered, pending, ok, e, he, rfl⟩
  rw [lateFails, hm] at h
  dsimp only at h
  rw [he] at h
  cases h

section Example

attribute [local instance] cpython stringText

/-- Two requests for one task are accepted before either is claimed. -/
def twoRequests : List (Cue RelayJob RelayChoice) :=
  [.start (.postTask (oneTodoPayload "T1")), .start (.postTask (oneTodoPayload "T1")), .call 0 .ok,
    .call 1 .ok, .call 0 .ok, .call 1 .ok, .call 0 .ok, .call 1 .ok, .call 2 .ok, .call 3 .ok]

/-- Two requests for one task: the first worker to claim is the only one to run it. -/
theorem one_run_per_task_of_two : ∃ trail P, (relayPlatform scriptDeps).Run freshPool trail P
    ∧ Running P 2 (oneTodoKey "T1") ∧ ∀ j, Running P j (oneTodoKey "T1") → j = 2 := by
  have hplayed : ((relayAnswers scriptDeps).play freshPool twoRequests).any (fun r =>
      runsTask r.2 2 (oneTodoKey "T1") && r.1.all fun c => !lateFails c) = true := by decide +kernel
  obtain ⟨⟨trail, P⟩, hplay, hcheck⟩ := (Option.any_eq_true _ _).mp hplayed
  rw [Bool.and_eq_true, List.all_eq_true] at hcheck
  have hrun := AnswerBook.play_run _ hplay
  have hrunning := running_of_runsTask hcheck.1
  refine ⟨trail, P, hrun, hrunning, fun j hj => ?_⟩
  have hlate : ∀ c ∈ trail, ¬ LateFailing c :=
    fun c hc => not_lateFailing (by simpa using hcheck.2 c hc)
  exact (one_run_per_task hrun rfl hlate (oneTodoKey "T1")).2.1 j 2 hj hrunning

/-- A worker settles its task, the row is swept, and the task is dispatched and claimed again; then
the last log line of the first worker raises, and what settles the task as failed settles the second
run, which lets a third one start. -/
def settledTwice : List (Cue RelayJob RelayChoice) :=
  takenRequest 0 "T1" ++ runsUnanswered 1 ++ [.call 1 .ok] ++ sweepsAll 2 ++ takenRequest 3 "T1"
    ++ [.call 4 .ok, .call 1 (.raise .osError), .call 1 .ok] ++ sweepsAll 5 ++ takenRequest 6 "T1"
    ++ [.call 7 .ok]

/-- Two workers run one task at once. -/
theorem two_runs_per_task : ¬ ∀ (deps : ReceiverDeps) (P₀ P : RelayPool) (trail : List RelayChange),
    (relayPlatform deps).Run P₀ trail P → P₀.threads = [] →
      ∀ i j key, Running P i key → Running P j key → i = j := by
  intro hone
  have hplayed : ((relayAnswers scriptDeps).play freshPool settledTwice).any (fun r =>
      runsTask r.2 4 (oneTodoKey "T1") && runsTask r.2 7 (oneTodoKey "T1")) = true := by
    decide +kernel
  obtain ⟨⟨trail, P⟩, hplay, hcheck⟩ := (Option.any_eq_true _ _).mp hplayed
  rw [Bool.and_eq_true] at hcheck
  have hrun := AnswerBook.play_run _ hplay
  have heq := hone scriptDeps freshPool P trail hrun rfl 4 7 (oneTodoKey "T1")
    (running_of_runsTask hcheck.1) (running_of_runsTask hcheck.2)
  omega

end Example

end IplanRunner
