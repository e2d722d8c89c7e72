import IplanRunner.Foundation.Rationed
import IplanRunner.Receiver.Settled

/-!
The run slots of the receiver.

* `slotRation`: a slot is taken by a handler, handed to the worker it starts, and given back by the
  worker.
* `slotUse`: the contract of the jobs; `slotless_execute`: a task itself touches no slot.
* `Rationed`: no thread has more than one slot, and none owes one.
* `slots_accounted`: the free and the held slots never exceed the pool, and make it up where no
  thread is killed on its own; a `503` is answered when every slot is held.
-/

namespace IplanRunner

open Foundation

section Runtime

variable [PyRuntime] [SqlText]

/-! ### The slots of a thread -/

/-- What a call takes of the slots. -/
def slotTaken : RelayExchange → ℤ
  | ⟨.acquireSlot, .ok true⟩ => 1
  | ⟨.startWorker _, .ok ()⟩ => -1
  | ⟨.releaseSlot, .ok ()⟩ => -1
  | _ => 0

/-- What a job is given of the slots: a worker has the one of the handler that started it. -/
def slotGiven : RelayJob → ℤ
  | .execute _ => 1
  | _ => 0

omit [SqlText] in
/-- A slot is free, or taken by the call, or given to the worker it starts. -/
lemma slot_effect {x : RelayExchange} {s s' : RelayState} {jobs : List RelayJob}
    (h : x.op.effect s x.out s' jobs) :
    (s'.slots : ℤ) + slotTaken x + (jobs.map slotGiven).sum = s.slots := by
  have hsame : s'.slots = s.slots → slotTaken x = 0 → jobs = [] →
      (s'.slots : ℤ) + slotTaken x + (jobs.map slotGiven).sum = s.slots := by
    rintro hslots htaken rfl
    rw [hslots, htaken]
    simp
  obtain ⟨op, out⟩ := x
  cases out with
  | error e =>
      obtain ⟨-, rfl, rfl⟩ := h
      refine hsame rfl ?_ rfl
      cases op <;> rfl
  | ok answer =>
      cases op with
      | log notice => exact hsame (by rw [h.1]) rfl h.2
      | now => exact hsame (by rw [h.1]) rfl h.2
      | reply status body => exact hsame (by rw [h.1]) rfl h.2
      | rmtree path => exact hsame (by rw [h.1]) rfl h.2
      | makeParent path => exact hsame (by rw [h.1]) rfl h.2
      | clone url ref dest => exact hsame (by rw [h.1]) rfl h.2
      | post event => exact hsame (by rw [h.1]) rfl h.2
      | save ledger => exact hsame (by rw [h.1]) rfl h.2
      | runEngine manifest workspace => exact hsame (by rw [h.2.1]) rfl h.2.2
      | saveIdentity ledgerId payload => exact hsame (by rw [h.2.1]) rfl h.2.2
      | loadSettled ledgerId => exact hsame (by rw [h.2.1]) rfl h.2.2
      | acceptTask key =>
          obtain ⟨now, -, hs, hjobs⟩ := h
          exact hsame (by rw [hs]) rfl hjobs
      | claimTask key =>
          obtain ⟨now, -, hs, hjobs⟩ := h
          exact hsame (by rw [hs]) rfl hjobs
      | settleTask key ok =>
          obtain ⟨now, hs, hjobs⟩ := h
          exact hsame (by rw [hs]) rfl hjobs
      | markSettled ledgerId key =>
          obtain ⟨now, hs, hjobs⟩ := h
          exact hsame (by rw [hs]) rfl hjobs
      | deadLetter ledgerId event reason =>
          obtain ⟨now, hs, hjobs⟩ := h
          exact hsame (by rw [hs]) rfl hjobs
      | pruneSettled maxAgeS =>
          obtain ⟨cutoff, hs, hjobs⟩ := h
          exact hsame (by rw [hs]) rfl hjobs
      | acquireSlot =>
          obtain ⟨rfl, rfl, rfl⟩ := h
          by_cases hfree : 0 < s.slots
          · have htaken : slotTaken ⟨.acquireSlot, .ok (decide (0 < s.slots))⟩ = 1 := by
              rw [decide_eq_true hfree]
              rfl
            rw [htaken]
            simp only [List.map_nil, List.sum_nil]
            omega
          · have htaken : slotTaken ⟨.acquireSlot, .ok (decide (0 < s.slots))⟩ = 0 := by
              rw [decide_eq_false hfree]
              rfl
            rw [htaken]
            simp only [List.map_nil, List.sum_nil]
            omega
      | releaseSlot =>
          obtain ⟨rfl, rfl⟩ := h
          simp [slotTaken]
      | startWorker payload =>
          obtain ⟨rfl, rfl⟩ := h
          simp [slotTaken, slotGiven]

/-- The slots of a receiver are shared out among its handlers and workers. -/
def slotRation (deps : ReceiverDeps) : (relayPlatform deps).Ration where
  total := deps.maxParallel
  free s := s.slots
  given := slotGiven
  taken := slotTaken
  effect op _ out _ _ h := slot_effect (show (Exchange.mk op out : RelayExchange).op.effect _ _ _ _
    from h)
  arrives job h := by
    cases job with
    | execute payload => exact absurd rfl (h payload)
    | _ => rfl
  recover _ := rfl

/-! ### The contract -/

/-- A call that takes, gives or hands on no slot. -/
def RelayOp.slotless : RelayOp → Bool
  | .acquireSlot => false
  | .releaseSlot => false
  | .startWorker _ => false
  | _ => true

/-- What a job may call, by the slots it has: a handler takes one slot and hands it on, or answers
that there is none; a worker has its slot until it gives it back. -/
def slotUse (deps : ReceiverDeps) (job : RelayJob) : Contract Raised RelayOp RelayOp.Res where
  allowed past op := (∀ payload, job = .execute payload → (slotRation deps).balance job past = 1)
    ∧ match op with
      | .acquireSlot => (slotRation deps).balance job past = 0
      | .startWorker _ => (slotRation deps).balance job past = 1
      | .releaseSlot => (slotRation deps).balance job past = 1
      | .reply status _ => status = 503 → ⟨.acquireSlot, .ok false⟩ ∈ past
      | _ => True
  expected _ := True

variable {deps : ReceiverDeps} {job : RelayJob} {past : List RelayExchange}

omit [PyRuntime] [SqlText] in
lemma slotTaken_slotless {x : RelayExchange} (h : x.op.slotless = true) : slotTaken x = 0 := by
  obtain ⟨op, out⟩ := x
  cases op with
  | acquireSlot => cases h
  | releaseSlot => cases h
  | startWorker payload => cases h
  | _ => rfl

/-- Calls that touch no slot leave the balance as it is. -/
lemma balance_slotless {calls : List RelayExchange} (h : ∀ x ∈ calls, x.op.slotless = true) :
    (slotRation deps).balance job (past ++ calls) = (slotRation deps).balance job past := by
  induction calls generalizing past with
  | nil => rw [List.append_nil]
  | cons x calls ih =>
      have hx : (slotRation deps).taken x = 0 := slotTaken_slotless (h x List.mem_cons_self)
      rw [show past ++ x :: calls = (past ++ [x]) ++ calls by simp,
        ih fun y hy => h y (List.mem_cons_of_mem _ hy), Platform.Ration.balance_snoc, hx, add_zero]

/-- The calls of a worker but its last. -/
def RelayOp.ofTask : RelayOp → Bool
  | .reply _ _ => false
  | op => op.slotless

/-- **A task touches no slot**, whatever happens to it. -/
lemma slotless_execute (deps : ReceiverDeps) (payload : Dict) :
    (execute deps payload).Only fun op => op.ofTask = true := by
  refine only_pyLift_bind fun runId _ => only_pyLift_bind fun taskId _ => ?_
  refine only_pyLift_bind fun key _ => Routine.Only.bind (Routine.only_perform rfl) fun won => ?_
  have hworkspace : (provisionWorkspace payload deps.workspace runId taskId).Only
      fun op => op.ofTask = true := by
    refine (only_provisionWorkspace ..).mono fun op hop => ?_
    cases op with
    | rmtree | makeParent | clone => rfl
    | _ => exact hop.elim
  have hdrain : ∀ job, (drain job).Only fun op => op.ofTask = true := by
    intro job
    refine (only_drain job).mono fun op hop => ?_
    cases op with
    | now | post | loadSettled | markSettled | deadLetter => rfl
    | _ => exact hop.elim
  have hclean : (cleanUp key (clonedWorkspace deps payload runId taskId)).Only
      fun op => op.ofTask = true := by
    refine (only_cleanUp ..).mono fun op hop => ?_
    cases op with
    | rmtree | pruneSettled | log => rfl
    | _ => exact hop.elim
  split_ifs
  · refine Routine.Only.bind (Routine.only_perform rfl) fun _ => ?_
    refine Routine.Only.finallyDo (Routine.Only.handle ?_ fun e => ?_) hclean
    · refine Routine.Only.bind ?_ fun r => Routine.Only.bind (Routine.only_perform rfl) fun _ =>
        Routine.only_perform rfl
      refine Routine.Only.bind (only_pyLift _) fun _ => Routine.Only.bind hworkspace fun _ => ?_
      refine Routine.Only.bind (only_pyLift _) fun _ => ?_
      refine Routine.Only.bind (only_pyLift _) fun _ => ?_
      refine Routine.Only.bind (Routine.only_perform rfl) fun ledger => ?_
      refine Routine.Only.bind (Routine.only_perform rfl) fun _ => ?_
      refine Routine.Only.bind (Routine.only_perform rfl) fun identity => ?_
      exact Routine.Only.bind (hdrain _) fun report => Routine.only_done _
    · rw [settleFailed]
      split_ifs
      · exact Routine.Only.bind (Routine.only_perform rfl) fun _ => Routine.only_perform rfl
      · exact Routine.only_done _
  · exact Routine.only_perform rfl

omit [PyRuntime] [SqlText] in
lemma slotless_of_ofTask {op : RelayOp} (h : op.ofTask = true) : op.slotless = true := by
  cases op with
  | reply status body => cases h
  | _ => exact h

/-- A job that is no worker may make a call that has nothing to do with the slots. -/
lemma slotUse_of_ofTask {op : RelayOp} (hop : op.ofTask = true)
    (hworker : ∀ payload, job = .execute payload → (slotRation deps).balance job past = 1) :
    (slotUse deps job).allowed past op := by
  refine ⟨hworker, ?_⟩
  cases op with
  | acquireSlot => cases hop
  | releaseSlot => cases hop
  | startWorker payload => cases hop
  | reply status body => cases hop
  | _ => trivial

/-- A worker has its slot until its last call. -/
lemma meets_worker (payload : Dict) :
    (jobBody deps (.execute payload)).Meets (slotUse deps (.execute payload)) []
      fun _ _ => True := by
  have honly := slotless_execute deps payload
  have hone : ∀ calls : List RelayExchange, (∀ x ∈ calls, x.op.ofTask = true) →
      (slotRation deps).balance (.execute payload) ([] ++ calls) = 1 := by
    intro calls hcalls
    rw [balance_slotless fun x hx => slotless_of_ofTask (hcalls x hx)]
    rfl
  have hexecute : (execute deps payload).Meets (slotUse deps (.execute payload)) []
      fun past' _ => (slotRation deps).balance (.execute payload) past' = 1 := by
    refine (Routine.meets_of_comes fun calls op hcomes => ?_).mono ?_
    · obtain ⟨hop, hcalls⟩ := honly.comes hcomes
      exact slotUse_of_ofTask hop fun _ _ => hone calls hcalls
    · rintro past' out - ⟨calls, rfl, hdoes⟩
      exact hone _ (honly.does hdoes)
  refine hexecute.finallyDo fun past' out hbalance => ?_
  exact Routine.meets_perform.mpr ⟨⟨fun _ _ => hbalance, hbalance⟩,
    fun _ _ => ⟨trivial, fun _ _ => trivial⟩⟩

/-- A handler takes a slot and hands it on, or answers that there is none. -/
lemma meets_handler (payload : Dict) :
    (jobBody deps (.postTask payload)).Meets (slotUse deps (.postTask payload)) []
      fun _ _ => True := by
  have hno : ∀ {past : List RelayExchange}, ∀ p, RelayJob.postTask payload = .execute p →
      (slotRation deps).balance (.postTask payload) past = 1 := fun p heq => by cases heq
  have hlogged : ∀ {past : List RelayExchange} notice status body,
      (status = 503 → ⟨.acquireSlot, .ok false⟩ ∈ past) →
      (do invoke (.log notice); invoke (.reply status body) : Relay Unit).Meets
        (slotUse deps (.postTask payload)) past fun _ _ => True := by
    intro past notice status body hbusy
    refine ⟨⟨hno, trivial⟩, fun out _ => ?_⟩
    cases out with
    | error e => trivial
    | ok _ => exact ⟨⟨hno, fun h => List.mem_append_left _ (hbusy h)⟩, fun _ _ => trivial⟩
  change (postTask payload).Meets _ _ _
  rw [postTask]
  refine meets_pyLift_bind' fun runId _ => ?_
  dsimp only
  split_ifs
  · refine meets_pyLift_bind' fun key _ => ?_
    refine ⟨⟨hno, trivial⟩, fun decision _ => ?_⟩
    cases decision with
    | error e => trivial
    | ok decision =>
        change Routine.Meets _ (if decision = .replay then _ else _) _ _
        split_ifs
        · exact hlogged _ _ _ fun h => by cases h
        · refine ⟨⟨hno, rfl⟩, fun free _ => ?_⟩
          cases free with
          | error e => trivial
          | ok free =>
              cases free with
              | false => exact hlogged _ _ _ fun _ => by simp
              | true =>
                  refine ⟨⟨hno, rfl⟩, fun started _ => ?_⟩
                  cases started with
                  | error e => trivial
                  | ok _ => exact hlogged _ _ _ fun h => by cases h
  · exact ⟨⟨hno, fun h => by cases h⟩, fun _ _ => trivial⟩

/-- Every job keeps to its slots. -/
lemma meets_slotUse (job : RelayJob) :
    (jobBody deps job).Meets (slotUse deps job) [] fun _ _ => True := by
  have hother : (jobBody deps job).Only (fun op => op.ofTask = true) →
      (∀ payload, job ≠ .execute payload) →
      (jobBody deps job).Meets (slotUse deps job) [] fun _ _ => True := fun honly hjob =>
    (honly.meets fun _ op hop => slotUse_of_ofTask hop fun p heq => absurd heq (hjob p)).mono
      fun _ _ _ _ => trivial
  cases job with
  | postTask payload => exact meets_handler payload
  | execute payload => exact meets_worker payload
  | drain D =>
      refine hother (Routine.Only.bind ((only_drain D).mono fun op hop => ?_)
        fun _ => Routine.only_done _) (by simp)
      cases op with
      | now | post | loadSettled | markSettled | deadLetter => rfl
      | _ => exact hop.elim
  | sweep maxAgeS => exact hother (Routine.only_perform rfl) (by simp)

/-! ### Runs -/

variable {P P' P₀ : RelayPool} {m : ThreadMove Raised RelayOp RelayOp.Res RelayJob}
  {trail : List RelayChange}

/-- No thread has more than one slot, and none owes one. -/
def Rationed (deps : ReceiverDeps) (P : RelayPool) : Prop :=
  ∀ t ∈ P.threads, (slotRation deps).balance t.job t.past = 0
    ∨ (slotRation deps).balance t.job t.past = 1

lemma held_nonneg (hP : Rationed deps P) {t : RelayThread} (ht : t ∈ P.threads) :
    0 ≤ (slotRation deps).held t := by
  rw [Platform.Ration.held]
  split_ifs
  · rcases hP t ht with hzero | hone <;> omega
  · exact le_rfl

/-- A call that is allowed leaves the balance of its thread within bounds. -/
lemma slotUse_balance {x : RelayExchange} (h : (slotUse deps job).allowed past x.op)
    (hbalance : (slotRation deps).balance job past = 0 ∨ (slotRation deps).balance job past = 1) :
    (slotRation deps).balance job (past ++ [x]) = 0
      ∨ (slotRation deps).balance job (past ++ [x]) = 1 := by
  have hsnoc := (slotRation deps).balance_snoc job past x
  have hkept : slotTaken x = 0 → (slotRation deps).balance job (past ++ [x]) = 0
      ∨ (slotRation deps).balance job (past ++ [x]) = 1 := by
    intro hzero
    rwa [hsnoc, show (slotRation deps).taken x = 0 from hzero, add_zero]
  obtain ⟨op, out⟩ := x
  cases out with
  | error e => exact hkept (by cases op <;> rfl)
  | ok answer =>
      cases op with
      | acquireSlot =>
          have hzero : (slotRation deps).balance job past = 0 := h.2
          cases answer with
          | false => exact hkept rfl
          | true =>
              rw [hsnoc, hzero]
              exact Or.inr rfl
      | startWorker payload =>
          have hone : (slotRation deps).balance job past = 1 := h.2
          rw [hsnoc, hone]
          exact Or.inl rfl
      | releaseSlot =>
          have hone : (slotRation deps).balance job past = 1 := h.2
          rw [hsnoc, hone]
          exact Or.inl rfl
      | _ => exact hkept rfl

/-- A step keeps the threads within their slots. -/
lemma rationed_step (h : (relayPlatform deps).Step P m P')
    (hkept : Platform.Kept (slotUse deps) P) (hP : Rationed deps P) : Rationed deps P' := by
  intro t' ht'
  obtain ⟨j, hj⟩ := List.mem_iff_getElem?.mp ht'
  rcases h.thread hj with
    ⟨t, ht, hjob, ⟨hpast, -⟩ | ⟨op, next, out, rfl, -, hpast, -⟩⟩ | ⟨-, job, rfl, -⟩
  · rw [hjob, hpast]
    exact hP t (List.mem_of_getElem? ht)
  · obtain ⟨t₀, ht₀, hallowed, -⟩ := h.allowed hkept
    obtain rfl : t = t₀ := Option.some.inj (ht.symm.trans ht₀)
    rw [hjob, hpast]
    exact slotUse_balance hallowed (hP t (List.mem_of_getElem? ht))
  · cases job with
    | execute payload => exact Or.inr rfl
    | _ => exact Or.inl rfl

/-- A worker that goes on has its slot. -/
lemma worker_balance (hkept : Platform.Kept (slotUse deps) P) {t : RelayThread}
    (ht : t ∈ P.threads) {payload : Dict} (hjob : t.job = .execute payload) {op : RelayOp}
    {next : Except Raised op.Res → Relay Unit} (hleft : t.left = some (.call op next)) :
    (slotRation deps).held t = 1 := by
  have hmeets := hkept t ht _ hleft
  rw [Platform.Ration.held, hleft]
  exact hmeets.1.1 payload hjob

/-- The threads keep within their slots, and the free and the held slots within the pool. -/
lemma slots_run (h : (relayPlatform deps).Run P₀ trail P) (hstart : P₀.threads = [])
    (hslots : P₀.shared.slots = deps.maxParallel) :
    Platform.Kept (slotUse deps) P ∧ Rationed deps P
      ∧ (slotRation deps).account P ≤ deps.maxParallel := by
  refine h.invariant (fun _ => True)
    (fun Q => Platform.Kept (slotUse deps) Q ∧ Rationed deps Q
      ∧ (slotRation deps).account Q ≤ deps.maxParallel) (fun Q m Q' hstep _ hQ => ?_)
    (fun _ _ => trivial) ⟨?_, ?_, ?_⟩
  · obtain ⟨hkept, hrationed, haccount⟩ := hQ
    refine ⟨hstep.meets (fun _ _ _ _ _ => trivial) hkept meets_slotUse,
      rationed_step hstep hkept hrationed, ?_⟩
    rcases (slotRation deps).step hstep with
      hsame | hwhole | ⟨i, t, -, ht, hlost⟩
    · omega
    · exact hwhole.le
    · have hheld : 0 ≤ (slotRation deps).held t := held_nonneg hrationed (List.mem_of_getElem? ht)
      omega
  · rw [Platform.Kept, hstart]
    exact fun t ht => absurd ht List.not_mem_nil
  · rw [Rationed, hstart]
    exact fun t ht => absurd ht List.not_mem_nil
  · rw [Platform.Ration.account, hstart]
    change (P₀.shared.slots : ℤ) + 0 ≤ _
    omega

/-- The thread is a worker that goes on. -/
def atWork (t : RelayThread) : Bool :=
  match t.job, t.left with
  | .execute _, some (.call _ _) => true
  | _, _ => false

lemma held_atWork (hkept : Platform.Kept (slotUse deps) P) {t : RelayThread} (ht : t ∈ P.threads)
    (hwork : atWork t = true) : (slotRation deps).held t = 1 := by
  rw [atWork] at hwork
  split at hwork
  · rename_i payload op next hjob hleft
    exact worker_balance hkept ht hjob hleft
  · cases hwork

omit [PyRuntime] [SqlText] in
/-- A list has at most as many elements of a kind as its weights make up. -/
lemma length_filter_le_sum {α : Type} {l : List α} {kind : α → Bool} {weight : α → ℤ}
    (hweight : ∀ a ∈ l, 0 ≤ weight a) (hkind : ∀ a ∈ l, kind a = true → weight a = 1) :
    ((l.filter kind).length : ℤ) ≤ (l.map weight).sum := by
  induction l with
  | nil => exact le_rfl
  | cons a l ih =>
      have hrest := ih (fun b hb => hweight b (List.mem_cons_of_mem _ hb))
        fun b hb => hkind b (List.mem_cons_of_mem _ hb)
      rw [List.map_cons, List.sum_cons]
      cases ha : kind a with
      | false =>
          have hpos := hweight a List.mem_cons_self
          rw [List.filter_cons_of_neg (by simp [ha])]
          omega
      | true =>
          have hone := hkind a List.mem_cons_self ha
          rw [List.filter_cons_of_pos ha, List.length_cons]
          push_cast
          omega

/-- **The run slots are accounted for.**  In every run of a receiver, whatever the order of its
threads, the answers and the crashes: the free and the held slots are at most `max_parallel`, hence
so are the workers at work; and where no thread is killed on its own they make up `max_parallel`,
and who answers `503` has asked for a slot when every slot was held. -/
theorem slots_accounted (h : (relayPlatform deps).Run P₀ trail P) (hstart : P₀.threads = [])
    (hslots : P₀.shared.slots = deps.maxParallel) :
    (P.shared.slots : ℤ) + (P.threads.map (slotRation deps).held).sum ≤ deps.maxParallel
      ∧ (P.threads.filter atWork).length ≤ deps.maxParallel
      ∧ ((∀ c ∈ trail, ∀ i, c.move ≠ .kill i) →
        (P.shared.slots : ℤ) + (P.threads.map (slotRation deps).held).sum = deps.maxParallel
        ∧ ∀ c ∈ trail, ∀ i body out, c.move = .call i ⟨.reply 503 body, out⟩ →
          ∃ c' ∈ trail, c'.move = .call i ⟨.acquireSlot, .ok false⟩
            ∧ (c'.before.threads.map (slotRation deps).held).sum = deps.maxParallel) := by
  obtain ⟨hkept, hrationed, haccount⟩ := slots_run h hstart hslots
  have hwhole : (slotRation deps).account P₀ = (slotRation deps).total := by
    rw [Platform.Ration.account, hstart]
    change (P₀.shared.slots : ℤ) + 0 = deps.maxParallel
    omega
  refine ⟨haccount, ?_, fun hkill => ⟨(slotRation deps).account_eq h hwhole hkill, ?_⟩⟩
  · have hcount : ((P.threads.filter atWork).length : ℤ)
        ≤ (P.threads.map (slotRation deps).held).sum :=
      length_filter_le_sum (fun t ht => held_nonneg hrationed ht)
        fun t ht hwork => held_atWork hkept ht hwork
    have hfree : (P.shared.slots : ℤ) + (P.threads.map (slotRation deps).held).sum
      ≤ deps.maxParallel := haccount
    omega
  · intro c hc i body out hm
    obtain ⟨front, rest, htrail, hrun, hstep⟩ := h.step_of_mem hc
    obtain ⟨hkept', -, -⟩ := slots_run hrun hstart hslots
    rw [hm] at hstep
    obtain ⟨t, ht, ⟨-, hbusy⟩, -⟩ := hstep.allowed hkept'
    obtain ⟨c', hc', hm'⟩ := hrun.made hstart ht (hbusy rfl)
    obtain ⟨front', rest', hfront, hrun', hstep'⟩ := hrun.step_of_mem hc'
    refine ⟨c', ?_, hm', ?_⟩
    · rw [htrail]
      exact List.mem_append_left _ hc'
    · have hquiet : ∀ d ∈ front', ∀ i, d.move ≠ .kill i := by
        intro d hd
        refine hkill d ?_
        rw [htrail, hfront]
        exact List.mem_append_left _ (List.mem_append_left _ hd)
      have hfull : (c'.before.shared.slots : ℤ)
          + (c'.before.threads.map (slotRation deps).held).sum = deps.maxParallel :=
        (slotRation deps).account_eq hrun' hwhole hquiet
      rw [hm'] at hstep'
      obtain ⟨jobs, hanswer, -, -⟩ := hstep'.call_effect
      have hnone : c'.before.shared.slots = 0 := by simpa using hanswer
      rw [hnone] at hfull
      simpa using hfull

end Runtime

section Example

attribute [local instance] cpython stringText

/-- A receiver with one slot. -/
def oneSlot : ReceiverDeps := { scriptDeps with maxParallel := 1 }

/-- The first request is taken, the second finds the slot held. -/
def secondRefused : List (Cue RelayJob RelayChoice) :=
  takenRequest 0 "T1" ++ [.start (.postTask (oneTodoPayload "T2")), .call 2 .ok, .call 2 .ok,
    .call 2 .ok, .call 2 .ok]

/-- A thread is killed on its own in this change. -/
def kills (c : RelayChange) : Bool :=
  match c.move with
  | .kill _ => true
  | _ => false

/-- The thread that answers with this status. -/
def repliesWith (status : ℕ) (c : RelayChange) : Option ℕ :=
  match c.move with
  | .call i ⟨.reply answer _, _⟩ => if answer = status then some i else none
  | _ => none

lemma repliesWith_eq_some {status : ℕ} {c : RelayChange} {i : ℕ}
    (h : repliesWith status c = some i) :
    ∃ body out, c.move = .call i ⟨.reply status body, out⟩ := by
  rw [repliesWith] at h
  split at h
  · rename_i answer body out hm
    split_ifs at h with heq
    cases h
    subst heq
    exact ⟨body, out, hm⟩
  · cases h

/-- A receiver with one slot refuses the second request while the first one's worker holds it. -/
theorem slots_accounted_of_one : ∃ (trail : List RelayChange) (P : RelayPool),
    (relayPlatform oneSlot).Run ⟨⟨.empty, fun _ => none, 1⟩, []⟩ trail P
      ∧ (P.threads.filter atWork).length ≤ 1 ∧ ∃ c ∈ trail,
        (c.before.threads.map (slotRation oneSlot).held).sum = 1 := by
  have hplayed : ((relayAnswers oneSlot).play ⟨⟨.empty, fun _ => none, 1⟩, []⟩ secondRefused).any
      (fun r => r.1.all (fun c => !kills c)
        && r.1.any fun c => repliesWith 503 c == some 2) = true := by
    decide +kernel
  obtain ⟨⟨trail, P⟩, hplay, hcheck⟩ := (Option.any_eq_true _ _).mp hplayed
  obtain ⟨hkills, hrefuses⟩ := (Bool.and_eq_true _ _).mp hcheck
  have hrun := AnswerBook.play_run _ hplay
  obtain ⟨-, hworkers, hwhole⟩ := slots_accounted hrun rfl rfl
  obtain ⟨c, hc, hrefused⟩ := List.any_eq_true.mp hrefuses
  obtain ⟨body, out, hm⟩ := repliesWith_eq_some (beq_iff_eq.mp hrefused)
  have hquiet : ∀ c ∈ trail, ∀ i, c.move ≠ .kill i := by
    intro c hc i hkill
    have hnot := List.all_eq_true.mp hkills c hc
    rw [kills, hkill] at hnot
    cases hnot
  obtain ⟨c', hc', -, hfull⟩ := (hwhole hquiet).2 c hc 2 body out hm
  exact ⟨trail, P, hrun, hworkers, c', hc', hfull⟩

end Example

end IplanRunner
