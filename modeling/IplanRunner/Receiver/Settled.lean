import IplanRunner.Foundation.PosixPath
import IplanRunner.Receiver.OneRun

/-!
Every claim of a dispatched task is settled.

* `Breaks`: a trusted call raises, or something that is no `Exception` is raised.
* `orderly_runAndDrain`: otherwise what a worker tries raises `Exception`s only, and is caught.
* `drainReturned_iff`: the drain of a worker, found in its calls.
* `execute_does`: a worker loses its claim and stops, or settles what it has claimed once.
* `cloneDest_steps`: where the clone of a task lies.
* `rowSettled_of_made`: the row of a settled task; `every_claim_settled` puts the parts together.
-/

namespace IplanRunner

open Foundation

/-! ### What is trusted -/

/-- The logger, and the calls that write the row of a task. -/
def RelayOp.trusted : RelayOp → Bool
  | .log _ => true
  | .acceptTask _ => true
  | .claimTask _ => true
  | .settleTask _ _ => true
  | _ => false

/-- The call raises though it is trusted, or raises what is no `Exception`. -/
def Breaks (x : RelayExchange) : Prop :=
  ∃ e, x.out = .error e ∧ (x.op.trusted = true ∨ e.isException = false)

/-- A trusted call raises, or something that is no `Exception` is raised, in this change. -/
def Breaking (c : RelayChange) : Prop := ∃ i x, c.move = .call i x ∧ Breaks x

/-- What may be raised where nothing breaks. -/
def Fair (x : RelayExchange) : Prop :=
  ∀ e, x.out = .error e → x.op.mayRaise = true ∧ x.op.trusted = false ∧ e.isException = true

/-- Every call is allowed, and every answer is fair. -/
def fairly : Contract Raised RelayOp RelayOp.Res where
  allowed _ _ := True
  expected := Fair

/-- A routine that raises `Exception`s only, where the answers are fair. -/
def Orderly {α : Type} (p : Relay α) : Prop :=
  ∀ past, p.Meets fairly past fun _ out => ∀ e, out = .error e → e.isException = true

lemma orderly_pyLift {α : Type} (x : Except PyErr α) : Orderly (pyLift x) := by
  intro past
  cases x with
  | ok a => exact fun e he => by cases he
  | error e' => exact fun e he => by cases he; rfl

lemma orderly_invoke (op : RelayOp) : Orderly (invoke op) :=
  fun _ => ⟨trivial, fun _ hfair e he => (hfair e he).2.2⟩

lemma orderly_pure {α : Type} (a : α) : Orderly (pure a) := fun _ e he => by cases he

lemma Orderly.bind {α β : Type} {p : Relay α} {f : α → Relay β} (hp : Orderly p)
    (hf : ∀ a, Orderly (f a)) : Orderly (p >>= f) :=
  fun past => (hp past).bind (fun past' a _ => hf a past') fun _ e he e' heq => by
    cases heq
    exact he e rfl

lemma Orderly.resume {α β : Type} {p : Relay α} {f : Except Raised α → Relay β} (hp : Orderly p)
    (hok : ∀ a, Orderly (f (.ok a))) (herror : ∀ e, e.isException = true → Orderly (f (.error e))) :
    Orderly (p.resume f) := by
  intro past
  rw [Routine.meets_resume]
  refine (hp past).mono fun past' out _ hout => ?_
  cases out with
  | ok a => exact hok a past'
  | error e => exact herror e (hout e rfl) past'

lemma orderly_raise {α : Type} {e : Raised} (he : e.isException = true) :
    Orderly (.done (.error e) : Relay α) := fun _ e' heq => by
  cases heq
  exact he

lemma orderly_deliverFrom (event : Dict) (left : ℕ) : Orderly (deliverFrom event left) := by
  induction left with
  | zero =>
      refine (orderly_invoke _).resume (fun r => orderly_pure _) fun e he => ?_
      refine orderly_raise ?_
      split_ifs
      · rfl
      · exact he
  | succ left ih =>
      refine (orderly_invoke _).resume (fun r => ?_) fun e he => ?_
      · dsimp only
        split_ifs
        · exact ih
        · exact orderly_pure _
      · dsimp only
        split_ifs
        · exact ih
        · exact orderly_raise he

section Runtime

variable [PyRuntime]

lemma orderly_deliverOnce (job : DrainJob) (now : ℤ) (event : Dict) :
    Orderly (deliverOnce job now event) := by
  refine Orderly.bind ?_ fun r => orderly_pyLift _
  rw [deliver]
  split_ifs
  · exact orderly_raise rfl
  · exact orderly_deliverFrom event _

lemma orderly_deliverWithRefresh (job : DrainJob) (now : ℤ) (event : Dict) :
    Orderly (deliverWithRefresh job now event) := by
  refine (orderly_deliverOnce job now event).bind fun outcome => ?_
  split_ifs
  · refine (orderly_deliverOnce job now event).bind fun again => ?_
    split_ifs
    · exact orderly_pure _
    · exact orderly_pure _
  · exact orderly_pure _

lemma orderly_drain (job : DrainJob) : Orderly (drain job) := by
  have hfrom : ∀ now settled events report, Orderly (drainFrom job now settled events report) := by
    intro now settled events
    induction events with
    | nil => exact fun report => orderly_pure _
    | cons event rest ih =>
        intro report
        rw [drainFrom]
        split_ifs
        · exact ih report
        · refine (orderly_deliverWithRefresh job now event).bind fun outcome => ?_
          split
          · exact (orderly_invoke _).bind fun _ => ih _
          · exact (orderly_invoke _).bind fun _ => ih _
          · exact orderly_pure _
          · exact orderly_pure _
  refine Orderly.bind ?_ fun stamp => (orderly_pyLift _).bind fun events =>
    (orderly_invoke _).bind fun settled => hfrom stamp settled events _
  rw [DrainJob.stamp]
  split
  · exact orderly_pure _
  · exact orderly_invoke _

lemma orderly_provisionWorkspace (payload : Dict) (root : String) (runId taskId : Val) :
    Orderly (provisionWorkspace payload root runId taskId) := by
  refine (orderly_pyLift _).bind fun repository => ?_
  split
  · refine (orderly_pyLift _).bind fun dest => ?_
    refine (orderly_invoke _).bind fun _ => ?_
    refine (orderly_invoke _).bind fun _ => ?_
    refine (orderly_pyLift _).bind fun url => ?_
    refine (orderly_pyLift _).bind fun ref => ?_
    exact (orderly_invoke _).bind fun _ => orderly_pure _
  · exact orderly_pure _

/-- What a worker tries raises `Exception`s only. -/
lemma orderly_runAndDrain (deps : ReceiverDeps) (payload : Dict) (runId taskId : Val) :
    Orderly (runAndDrain deps payload runId taskId) := by
  refine (orderly_pyLift _).bind fun _ => ?_
  refine (orderly_provisionWorkspace payload deps.workspace runId taskId).bind fun workspace => ?_
  refine (orderly_pyLift _).bind fun adapted => ?_
  refine (orderly_pyLift _).bind fun manifest => ?_
  refine (orderly_invoke _).bind fun ledger => ?_
  refine (orderly_invoke _).bind fun _ => ?_
  refine (orderly_invoke _).bind fun identity => ?_
  exact (orderly_drain _).bind fun report => orderly_pure _

/-! ### The drain of a worker -/

/-- The call saves a ledger. -/
def RelayOp.saves : RelayOp → Bool
  | .save _ => true
  | _ => false

/-- A routine that saves no ledger. -/
abbrev Saveless {α : Type} (p : Relay α) : Prop := p.Only fun op => op.saves = false

/-- The calls of a worker hold its drain, behind the save and the identity, and the drain returned
the report. -/
def DrainReturned (deps : ReceiverDeps) (payload : Dict) (past : List RelayExchange)
    (report : DrainReport) : Prop :=
  ∃ before ledger identity drained after,
    past = before ++ ⟨.save ledger, .ok ()⟩
        :: ⟨.saveIdentity ledger.control.ledgerId payload, .ok identity⟩ :: (drained ++ after)
      ∧ (drain (workerDrain deps ledger identity)).Does drained (.ok report)

/-- The end of `runAndDrain`. -/
def saveAndDrain (deps : ReceiverDeps) (payload : Dict) (ledger : Ledger) :
    Relay (Ledger × DrainReport) := do
  invoke (.save ledger)
  let identity ← savedIdentity ledger.control.ledgerId payload
  let report ← drain (workerDrain deps ledger identity)
  return (ledger, report)

variable {deps : ReceiverDeps} {payload : Dict} {runId taskId : Val} {ledger : Ledger}
  {report : DrainReport} {calls : List RelayExchange} {out : Except Raised (Ledger × DrainReport)}

lemma saveless_drain (job : DrainJob) : Saveless (drain job) := by
  refine (only_drain job).mono fun op hop => ?_
  cases op <;> first | exact rfl | exact hop.elim

omit [PyRuntime] in
lemma saveless_pyLift {α : Type} (x : Except PyErr α) : Saveless (pyLift x) := only_pyLift x

/-- The end of a run begins with its only save. -/
lemma saveAndDrain_calls (h : (saveAndDrain deps payload ledger).Does calls out) :
    ∃ r rest, calls = ⟨.save ledger, r⟩ :: rest ∧ ∀ x ∈ rest, x.op.saves = false := by
  obtain ⟨r, rest, rfl, hrest⟩ := h
  refine ⟨r, rest, rfl, ?_⟩
  cases r with
  | error e =>
      obtain ⟨rfl, -⟩ := hrest
      exact fun x hx => absurd hx List.not_mem_nil
  | ok _ =>
      have honly : Saveless (do
          let identity ← savedIdentity ledger.control.ledgerId payload
          let report ← drain (workerDrain deps ledger identity)
          return (ledger, report)) := by
        refine Routine.Only.bind (Routine.only_perform rfl) fun identity => ?_
        exact Routine.Only.bind (saveless_drain _) fun report => Routine.only_done _
      exact honly.does hrest

/-- The calls of an end that returned hold its drain. -/
lemma drained_of_saveAndDrain {ledger' : Ledger}
    (h : (saveAndDrain deps payload ledger).Does calls (.ok (ledger', report))) :
    ledger' = ledger ∧ ∃ identity drained, calls = ⟨.save ledger, .ok ()⟩
        :: ⟨.saveIdentity ledger.control.ledgerId payload, .ok identity⟩ :: drained
      ∧ (drain (workerDrain deps ledger identity)).Does drained (.ok report) := by
  obtain ⟨first, rest, _, rfl, hsave, hrest⟩ := Routine.does_bind_ok.mp h
  obtain ⟨second, drained, identity, rfl, hidentity, hrest⟩ := Routine.does_bind_ok.mp hrest
  obtain ⟨drained, last, report', rfl, hdrain, hlast⟩ := Routine.does_bind_ok.mp hrest
  obtain ⟨rfl, heq⟩ := hlast
  cases heq
  obtain rfl := Routine.does_perform.mp hsave
  obtain rfl := Routine.does_perform.mp hidentity
  exact ⟨rfl, identity, drained, by simp, hdrain⟩

/-- Calls of an end that begin with a drain's are those of an end that returned. -/
lemma saveAndDrain_of_drained {ledger' : Ledger} {identity : Dict}
    {tail drained after : List RelayExchange}
    (h : (saveAndDrain deps payload ledger).Does calls out)
    (heq : calls ++ tail = ⟨.save ledger', .ok ()⟩
      :: ⟨.saveIdentity ledger'.control.ledgerId payload, .ok identity⟩ :: (drained ++ after))
    (hdrain : (drain (workerDrain deps ledger' identity)).Does drained (.ok report)) :
    out = .ok (ledger', report) := by
  obtain ⟨r, rest, rfl, hrest⟩ := h
  rw [List.cons_append, List.cons.injEq] at heq
  obtain ⟨hsave, heq⟩ := heq
  cases hsave
  obtain ⟨r, rest, rfl, hrest⟩ := hrest
  rw [List.cons_append, List.cons.injEq] at heq
  obtain ⟨hidentity, heq⟩ := heq
  cases hidentity
  change (drain (workerDrain deps ledger identity) >>= fun report => pure (ledger, report)).Does
    rest out at hrest
  rcases Routine.does_bind.mp hrest with
    ⟨e, hraised, rfl⟩ | ⟨first, last, report', rfl, hfirst, hlast⟩
  · obtain ⟨-, hout⟩ := hraised.unique hdrain heq
    cases hout
  · rw [List.append_assoc] at heq
    obtain ⟨-, hout⟩ := hfirst.unique hdrain heq
    cases hout
    exact hlast.2

/-- What a worker tries ends before its save, or goes on with it. -/
lemma runAndDrain_does (h : (runAndDrain deps payload runId taskId).Does calls out) :
    (∀ x ∈ calls, x.op.saves = false) ∧ (∃ e, out = .error e)
      ∨ ∃ before ledger rest, calls = before ++ rest ∧ (∀ x ∈ before, x.op.saves = false)
        ∧ (saveAndDrain deps payload ledger).Does rest out := by
  have hprepare : Saveless (do
      let _ ← pyLift (clonedWorkspace deps payload runId taskId)
      let workspace ← provisionWorkspace payload deps.workspace runId taskId
      let adapted ← pyLift (adaptDispatchedTask payload workspace)
      let manifest ← pyLift (ingestTaskPayloadDict adapted)
      runEngine manifest.toManifest workspace) := by
    have hworkspace : Saveless (provisionWorkspace payload deps.workspace runId taskId) := by
      refine (only_provisionWorkspace ..).mono fun op hop => ?_
      cases op <;> first | exact rfl | exact hop.elim
    refine Routine.Only.bind (saveless_pyLift _) fun _ => ?_
    refine Routine.Only.bind hworkspace fun workspace => ?_
    refine Routine.Only.bind (saveless_pyLift _) fun adapted => ?_
    exact Routine.Only.bind (saveless_pyLift _) fun manifest => Routine.only_perform rfl
  have hassoc : runAndDrain deps payload runId taskId = (do
      let _ ← pyLift (clonedWorkspace deps payload runId taskId)
      let workspace ← provisionWorkspace payload deps.workspace runId taskId
      let adapted ← pyLift (adaptDispatchedTask payload workspace)
      let manifest ← pyLift (ingestTaskPayloadDict adapted)
      runEngine manifest.toManifest workspace) >>= saveAndDrain deps payload := by
    simp only [Routine.bind_assoc]
    rfl
  rw [hassoc] at h
  rcases Routine.does_bind.mp h with ⟨e, hraised, rfl⟩ | ⟨before, rest, ledger, rfl, hfirst, hrest⟩
  · exact Or.inl ⟨hprepare.does hraised, e, rfl⟩
  · exact Or.inr ⟨before, ledger, rest, rfl, hprepare.does hfirst, hrest⟩

/-- **A worker's drain returned a report exactly when what the worker tried returned with it.** -/
lemma drainReturned_iff (first last : List RelayExchange)
    (h : (runAndDrain deps payload runId taskId).Does calls out)
    (hfirst : ∀ x ∈ first, x.op.saves = false) (hlast : ∀ x ∈ last, x.op.saves = false) :
    DrainReturned deps payload (first ++ (calls ++ last)) report
      ↔ ∃ ledger, out = .ok (ledger, report) := by
  constructor
  · rintro ⟨before, ledger', identity, drained, after, heq, hdrain⟩
    rcases runAndDrain_does h with ⟨hcalls, -⟩ | ⟨start, ledger, rest, rfl, hstart, hrest⟩
    · -- a drain stands behind a save, and there is none
      have hmem : (⟨.save ledger', .ok ()⟩ : RelayExchange) ∈ first ++ (calls ++ last) := by
        rw [heq]
        simp
      rcases List.mem_append.mp hmem with hin | hin
      · cases hfirst _ hin
      · rcases List.mem_append.mp hin with hin | hin
        · cases hcalls _ hin
        · cases hlast _ hin
    · obtain ⟨r, more, rfl, hmore⟩ := saveAndDrain_calls hrest
      -- the save of the one list is the save of the other
      have hsplit : (first ++ start) ++ ⟨.save ledger, r⟩ :: (more ++ last)
          = before ++ ⟨.save ledger', .ok ()⟩
            :: ⟨.saveIdentity ledger'.control.ledgerId payload, .ok identity⟩
            :: (drained ++ after) := by simpa using heq
      have hnot : ∀ {xs ys : List RelayExchange}, (∀ x ∈ xs, x.op.saves = false) →
          (∀ x ∈ ys, x.op.saves = false) → ⟨.save ledger', .ok ()⟩ ∉ xs ++ ys := by
        intro xs ys hxs hys hmem
        rcases List.mem_append.mp hmem with hin | hin
        · cases hxs _ hin
        · cases hys _ hin
      obtain ⟨-, hsave, hsame⟩ := (List.append_cons_inj_of_notMem (hnot hfirst hstart)
        (hnot hmore hlast)).mp hsplit
      have htail : (⟨.save ledger, r⟩ :: more) ++ last = ⟨.save ledger', .ok ()⟩
          :: ⟨.saveIdentity ledger'.control.ledgerId payload, .ok identity⟩
          :: (drained ++ after) := by rw [List.cons_append, hsave, hsame]
      exact ⟨ledger', saveAndDrain_of_drained hrest htail hdrain⟩
  · rintro ⟨ledger', rfl⟩
    rcases runAndDrain_does h with ⟨-, e, he⟩ | ⟨start, ledger, rest, rfl, -, hrest⟩
    · cases he
    · obtain ⟨rfl, identity, drained, rfl, hdrain⟩ := drained_of_saveAndDrain hrest
      exact ⟨first ++ start, ledger', identity, drained, last, by simp, hdrain⟩

/-! ### The calls of a worker -/

/-- The call settles a task. -/
def RelayOp.settles : RelayOp → Bool
  | .settleTask _ _ => true
  | _ => false

omit [PyRuntime] in
lemma not_settles_of_quiet {calls : List RelayExchange} (h : ∀ x ∈ calls, x.op.quiet = true) :
    calls.filter (fun x => x.op.settles) = [] := by
  rw [List.filter_eq_nil_iff]
  intro x hx hsettles
  have hquiet := h x hx
  obtain ⟨op, out⟩ := x
  cases op with
  | settleTask key ok => cases hquiet
  | _ => cases hsettles

omit [PyRuntime] in
/-- A trusted call returns. -/
lemma returned_of_fair (hfair : ∀ x ∈ calls, Fair x) {op : RelayOp} {r : Except Raised op.Res}
    (hmem : ⟨op, r⟩ ∈ calls) (htrusted : op.trusted = true) : ∃ a, r = .ok a := by
  cases r with
  | ok a => exact ⟨a, rfl⟩
  | error e =>
      have hnot := (hfair _ hmem e rfl).2.1
      rw [htrusted] at hnot
      cases hnot

/-- What a worker tries returned, and its drain was not halted. -/
def runOk : Except Raised (Ledger × DrainReport) → Bool
  | .ok (_, report) => report.ok
  | .error _ => false

omit [PyRuntime] in
lemma runOk_iff (out : Except Raised (Ledger × DrainReport)) :
    runOk out = true ↔ ∃ report, (∃ ledger, out = .ok (ledger, report)) ∧ report.ok = true := by
  cases out with
  | error e =>
      constructor
      · intro h
        cases h
      · rintro ⟨report, ⟨ledger, h⟩, -⟩
        cases h
  | ok r =>
      constructor
      · exact fun h => ⟨r.2, ⟨r.1, rfl⟩, h⟩
      · rintro ⟨report, ⟨ledger, h⟩, hok⟩
        cases h
        exact hok

omit [PyRuntime] in
lemma saveless_cleanUp (key : TaskKey) (cloned : Except PyErr (Option String)) :
    Saveless (cleanUp key cloned) := by
  refine (only_cleanUp key cloned).mono fun op hop => ?_
  cases op <;> first | exact rfl | exact hop.elim

/-- Where nothing breaks, a worker settles its task behind what it has tried, and logs it. -/
lemma settling_does {key : TaskKey} {ended : Except Raised Unit}
    (h : ((runClaimed deps payload runId taskId key).handle (settleFailed key)).Does calls ended)
    (hfair : ∀ x ∈ calls, Fair x) : ended = .ok () ∧ ∃ tried notice out,
      calls = tried ++ [⟨.settleTask key (runOk out), .ok ()⟩, ⟨.log notice, .ok ()⟩]
        ∧ (runAndDrain deps payload runId taskId).Does tried out := by
  rcases Routine.does_handle.mp h with ⟨_, hclaimed, rfl⟩ | ⟨first, rest, e, rfl, hclaimed, hfail⟩
  · obtain ⟨tried, rest, ⟨ledger, report⟩, rfl, htried, hrest⟩ := Routine.does_bind_ok.mp hclaimed
    obtain ⟨settled, logged, _, rfl, hsettle, hlog⟩ := Routine.does_bind_ok.mp hrest
    obtain rfl := Routine.does_perform.mp hsettle
    obtain rfl := Routine.does_perform.mp hlog
    exact ⟨rfl, tried, _, .ok (ledger, report), rfl, htried⟩
  · have htriedfair : ∀ x ∈ first, Fair x := fun x hx => hfair x (List.mem_append_left _ hx)
    rcases Routine.does_bind.mp hclaimed with
      ⟨e, hraised, he⟩ | ⟨tried, last, ⟨ledger, report⟩, rfl, -, hlast⟩
    · cases he
      have hexception : e.isException = true :=
        (orderly_runAndDrain deps payload runId taskId []).does hraised htriedfair e rfl
      rw [settleFailed, if_pos hexception] at hfail
      obtain ⟨r, last, rfl, hlast⟩ := hfail
      obtain ⟨_, rfl⟩ := returned_of_fair hfair (List.mem_append_right _ List.mem_cons_self) rfl
      obtain ⟨r, none, rfl, rfl, rfl⟩ := hlast
      obtain ⟨_, rfl⟩ := returned_of_fair hfair (List.mem_append_right _
        (List.mem_cons_of_mem _ List.mem_cons_self)) rfl
      exact ⟨rfl, first, _, .error e, rfl, hraised⟩
    · -- behind what was tried, only trusted calls are made
      obtain ⟨r, last, rfl, hlast⟩ := hlast
      obtain ⟨_, rfl⟩ := returned_of_fair htriedfair
        (List.mem_append_right _ List.mem_cons_self) rfl
      obtain ⟨r, none, rfl, rfl, hend⟩ := hlast
      obtain ⟨_, rfl⟩ := returned_of_fair htriedfair (List.mem_append_right _
        (List.mem_cons_of_mem _ List.mem_cons_self)) rfl
      cases hend

omit [PyRuntime] in
/-- Where nothing breaks, the removal of the clone and the sweep return. -/
lemma cleanUp_does {key : TaskKey} {cloned : Except PyErr (Option String)}
    {ended : Except Raised Unit} (h : (cleanUp key cloned).Does calls ended)
    (hfair : ∀ x ∈ calls, Fair x) : ended = .ok () := by
  have hprune : ∀ {calls : List RelayExchange}, (∀ x ∈ calls, Fair x) →
      ((invoke (.pruneSettled none)).handle fun e =>
        if e.isException then invoke (.log (.pruneSkip key.1 e)) else .raise e).Does calls ended →
      ended = .ok () := by
    intro calls hfair h
    rcases Routine.does_handle.mp h with ⟨_, -, rfl⟩ | ⟨first, rest, e, rfl, hfirst, hrest⟩
    · rfl
    · obtain rfl := Routine.does_perform.mp hfirst
      have hexception := (hfair _ List.mem_cons_self e rfl).2.2
      rw [if_pos hexception] at hrest
      obtain rfl := Routine.does_perform.mp hrest
      exact (returned_of_fair hfair (List.mem_append_right _ List.mem_cons_self) rfl).choose_spec
  cases cloned with
  | error e => exact hprune hfair h
  | ok path =>
      cases path with
      | none => exact hprune hfair h
      | some path =>
          rcases Routine.does_bind.mp h with ⟨e, hremove, rfl⟩ | ⟨first, rest, _, rfl, -, hrest⟩
          · obtain rfl := Routine.does_perform.mp hremove
            cases (hfair _ List.mem_cons_self e rfl).1
          · exact hprune (fun x hx => hfair x (List.mem_append_right _ hx)) hrest

variable [SqlText]

/-- The worker has lost its claim, logged that and handed its slot back: these are all its calls. -/
def LostClaim (past : List RelayExchange) (key : TaskKey) : Prop :=
  past = [⟨.claimTask key, .ok false⟩, ⟨.log (.claimLost key), .ok ()⟩, ⟨.releaseSlot, .ok ()⟩]

/-- The worker has won its claim and settled the task once, as `done` exactly when its drain
returned a report that is `ok`. -/
structure SettlesAs (deps : ReceiverDeps) (payload : Dict) (key : TaskKey)
    (past : List RelayExchange) (ok : Bool) : Prop where
  claims : ⟨.claimTask key, .ok true⟩ ∈ past
  once : past.filter (fun x => x.op.settles) = [⟨.settleTask key ok, .ok ()⟩]
  ok_iff : ok = true ↔ ∃ report, DrainReturned deps payload past report ∧ report.ok = true

/-- **Where nothing breaks, a worker returns, and loses its claim or settles its task once.** -/
theorem execute_does {key : TaskKey} {past : List RelayExchange} {ended : Except Raised Unit}
    (hrun : (Val.dict payload).item "run_id" = .ok runId)
    (htask : (Val.dict payload).item "task_id" = .ok taskId)
    (hkey : taskKey runId taskId = .ok key)
    (h : (jobBody deps (.execute payload)).Does past ended) (hfair : ∀ x ∈ past, Fair x) :
    ended = .ok ()
      ∧ (LostClaim past key ∨ ∃ ok, SettlesAs deps payload key past ok) := by
  obtain ⟨calls, freed, out, freeEnd, rfl, hcalls, hfreed, rfl⟩ := Routine.does_finallyDo.mp h
  obtain rfl := Routine.does_perform.mp hfreed
  have hfree : freeEnd = .ok () := by
    cases freeEnd with
    | ok _ => rfl
    | error e =>
        have hraise := (hfair ⟨.releaseSlot, .error e⟩ (by simp) e rfl).1
        cases hraise
  subst hfree
  have hcallsfair : ∀ x ∈ calls, Fair x := fun x hx => hfair x (List.mem_append_left _ hx)
  rw [execute, hrun, htask] at hcalls
  change (pyLift (taskKey runId taskId) >>= _).Does calls out at hcalls
  rw [hkey] at hcalls
  obtain ⟨claimed, rest, rfl, hrest⟩ := hcalls
  obtain ⟨won, rfl⟩ := returned_of_fair hcallsfair List.mem_cons_self rfl
  cases won with
  | false =>
      obtain ⟨r, none, rfl, rfl, rfl⟩ := hrest
      obtain ⟨_, rfl⟩ := returned_of_fair hcallsfair
        (List.mem_cons_of_mem _ List.mem_cons_self) rfl
      exact ⟨rfl, Or.inl rfl⟩
  | true =>
      obtain ⟨started, rest, rfl, hrest⟩ := hrest
      obtain ⟨_, rfl⟩ := returned_of_fair hcallsfair
        (List.mem_cons_of_mem _ List.mem_cons_self) rfl
      change (((runClaimed deps payload runId taskId key).handle (settleFailed key)).finallyDo
        (cleanUp key (clonedWorkspace deps payload runId taskId))).Does rest out at hrest
      obtain ⟨body, last, outcome, lastEnd, rfl, hbody, hlast, rfl⟩ :=
        Routine.does_finallyDo.mp hrest
      have hrestfair : ∀ x ∈ body ++ last, Fair x := fun x hx =>
        hcallsfair x (List.mem_cons_of_mem _ (List.mem_cons_of_mem _ hx))
      obtain ⟨rfl, tried, notice, result, rfl, htried⟩ := settling_does hbody fun x hx =>
        hrestfair x (List.mem_append_left _ hx)
      obtain rfl := cleanUp_does hlast fun x hx => hrestfair x (List.mem_append_right _ hx)
      have hlastquiet := (quiet_cleanUp key _).does hlast
      have htriedquiet := (quiet_runAndDrain deps payload runId taskId).does htried
      have hparts : ⟨.claimTask key, .ok true⟩ :: ⟨.log (.runStart key), .ok ()⟩
          :: (tried ++ [⟨.settleTask key (runOk result), .ok ()⟩, ⟨.log notice, .ok ()⟩] ++ last)
            ++ [⟨.releaseSlot, .ok ()⟩]
          = ([⟨.claimTask key, .ok true⟩, ⟨.log (.runStart key), .ok ()⟩] : List RelayExchange)
            ++ (tried ++ ([⟨.settleTask key (runOk result), .ok ()⟩, ⟨.log notice, .ok ()⟩]
              ++ (last ++ [⟨.releaseSlot, .ok ()⟩]))) := by simp
      rw [hparts]
      refine ⟨rfl, Or.inr ⟨runOk result, by simp, ?_, ?_⟩⟩
      · rw [List.filter_append, List.filter_append, List.filter_append, List.filter_append,
          not_settles_of_quiet htriedquiet, not_settles_of_quiet hlastquiet]
        rfl
      · have hlastsaves : ∀ x ∈ [(⟨.settleTask key (runOk result), .ok ()⟩ : RelayExchange),
            ⟨.log notice, .ok ()⟩] ++ (last ++ [⟨.releaseSlot, .ok ()⟩]), x.op.saves = false := by
          intro x hx
          rcases List.mem_append.mp hx with hx | hx
          · rcases List.mem_pair.mp hx with rfl | rfl <;> rfl
          rcases List.mem_append.mp hx with hx | hx
          · exact (saveless_cleanUp key _).does hlast x hx
          · rw [List.mem_singleton.mp hx]
            rfl
        rw [runOk_iff]
        refine exists_congr fun report => and_congr_left fun _ => ?_
        refine (drainReturned_iff _ _ htried (fun x hx => ?_) hlastsaves).symm
        rcases List.mem_pair.mp hx with rfl | rfl <;> rfl

omit [SqlText] in
lemma cloneDest_of_cloned {path : String}
    (h : clonedWorkspace deps payload runId taskId = .ok (some path)) :
    (∃ repo, repositoryOf payload = .ok (.dict repo))
      ∧ cloneDest deps.workspace runId taskId = .ok path := by
  obtain ⟨repository, hrepository, h⟩ := except_bind_eq_ok.mp h
  split at h
  · rename_i repo
    obtain ⟨dest, hdest, heq⟩ := except_bind_eq_ok.mp h
    cases heq
    exact ⟨⟨repo, hrepository⟩, hdest⟩
  · cases h

/-- What a worker may call: it removes the clone of its task only, and starts no thread. -/
def workerCalls (deps : ReceiverDeps) (payload : Dict) : RelayOp → Prop
  | .rmtree path => ∃ runId taskId, (Val.dict payload).item "run_id" = .ok runId
      ∧ (Val.dict payload).item "task_id" = .ok taskId
      ∧ (∃ repo, repositoryOf payload = .ok (.dict repo))
      ∧ cloneDest deps.workspace runId taskId = .ok path
  | .startWorker _ => False
  | _ => True

/-- The directory a call removes, makes room for or clones into. -/
def RelayOp.directory : RelayOp → Option String
  | .rmtree path => some path
  | .makeParent path => some path
  | .clone _ _ dest => some dest
  | _ => none

/-- What a worker calls, with what it knows where it touches a directory. -/
lemma only_execute_of {deps : ReceiverDeps} {payload : Dict} {kind : RelayOp → Prop}
    (hquiet : ∀ op, op.directory = none → (∀ payload, op ≠ .startWorker payload) → kind op)
    (hdirectory : ∀ op path runId taskId, op.directory = some path →
      (Val.dict payload).item "run_id" = .ok runId →
      (Val.dict payload).item "task_id" = .ok taskId →
      (∀ p, op = .rmtree p → ∃ repo, repositoryOf payload = .ok (.dict repo)) →
      cloneDest deps.workspace runId taskId = .ok path → kind op) :
    (execute deps payload).Only kind := by
  refine only_pyLift_bind fun runId hrun => only_pyLift_bind fun taskId htask => ?_
  refine only_pyLift_bind fun key _ => ?_
  refine Routine.Only.bind (Routine.only_perform (hquiet _ rfl (by simp))) fun won => ?_
  have hworkspace : (provisionWorkspace payload deps.workspace runId taskId).Only kind := by
    refine (only_provisionWorkspace ..).mono fun op hop => ?_
    cases op with
    | rmtree path =>
        exact hdirectory _ path runId taskId rfl hrun htask (fun _ _ => hop.1) hop.2
    | makeParent path =>
        exact hdirectory _ path runId taskId rfl hrun htask (fun _ h => by cases h) hop
    | clone url ref path =>
        exact hdirectory _ path runId taskId rfl hrun htask (fun _ h => by cases h) hop
    | _ => exact hop.elim
  have hdrain : ∀ job, (drain job).Only kind := by
    intro job
    refine (only_drain job).mono fun op hop => ?_
    cases op with
    | now | post | loadSettled | markSettled | deadLetter => exact hquiet _ rfl (by simp)
    | _ => exact hop.elim
  have hclean : (cleanUp key (clonedWorkspace deps payload runId taskId)).Only kind := by
    refine (only_cleanUp ..).mono fun op hop => ?_
    cases op with
    | rmtree path =>
        obtain ⟨hrepo, hdest⟩ := cloneDest_of_cloned hop
        exact hdirectory _ path runId taskId rfl hrun htask (fun _ _ => hrepo) hdest
    | pruneSettled maxAgeS => exact hquiet _ rfl (by simp)
    | log notice => exact hquiet _ rfl (by simp)
    | _ => exact hop.elim
  split_ifs
  · refine Routine.Only.bind (Routine.only_perform (hquiet _ rfl (by simp))) fun _ => ?_
    refine Routine.Only.finallyDo (Routine.Only.handle ?_ fun e => ?_) hclean
    · refine Routine.Only.bind ?_ fun r =>
        Routine.Only.bind (Routine.only_perform (hquiet _ rfl (by simp))) fun _ =>
          Routine.only_perform (hquiet _ rfl (by simp))
      refine Routine.Only.bind (only_pyLift _) fun _ => ?_
      refine Routine.Only.bind hworkspace fun workspace => ?_
      refine Routine.Only.bind (only_pyLift _) fun adapted => ?_
      refine Routine.Only.bind (only_pyLift _) fun manifest => ?_
      refine Routine.Only.bind (Routine.only_perform (hquiet _ rfl (by simp))) fun ledger => ?_
      refine Routine.Only.bind (Routine.only_perform (hquiet _ rfl (by simp))) fun _ => ?_
      refine Routine.Only.bind (Routine.only_perform (hquiet _ rfl (by simp))) fun identity => ?_
      exact Routine.Only.bind (hdrain _) fun report => Routine.only_done _
    · rw [settleFailed]
      split_ifs
      · exact Routine.Only.bind (Routine.only_perform (hquiet _ rfl (by simp))) fun _ =>
          Routine.only_perform (hquiet _ rfl (by simp))
      · exact Routine.only_done _
  · exact Routine.only_perform (hquiet _ rfl (by simp))

lemma only_execute (deps : ReceiverDeps) (payload : Dict) :
    (execute deps payload).Only (workerCalls deps payload) := by
  refine only_execute_of (fun op hnone hstart => ?_)
    fun op path runId taskId hdir hrun htask hrepo hdest => ?_
  · cases op with
    | rmtree path => cases hnone
    | startWorker payload => exact absurd rfl (hstart payload)
    | _ => trivial
  · cases op with
    | rmtree p =>
        cases hdir
        exact ⟨runId, taskId, hrun, htask, hrepo _ rfl, hdest⟩
    | startWorker payload => cases hdir
    | _ => trivial

/-! ### The directory of a clone -/

omit [SqlText] in
/-- A slug is the name of a directory entry. -/
lemma slug_name {v : Val} {text : String} (h : slug v = .ok text) :
    ∃ n : Name, text.toList = n.val := by
  cases v with
  | str component =>
      rw [slug] at h
      dsimp only at h
      split_ifs at h with hunsafe
      cases h
      rw [not_or, not_or] at hunsafe
      obtain ⟨hempty, hdot, hup⟩ := hunsafe
      have hne : ∀ {t : String} {l : List Char}, String.ofList l ≠ t → l ≠ t.toList := by
        rintro t l hl rfl
        exact hl (String.ofList_toList)
      refine ⟨⟨_, hne hempty, hne hdot, hne hup, ?_⟩, String.toList_ofList⟩
      intro hslash
      obtain ⟨c, -, hc⟩ := List.mem_map.mp hslash
      split_ifs at hc with hsafe
      · subst hc
        exact absurd hsafe (by decide)
      · cases hc
  | _ => cases h

omit [SqlText] in
/-- **The clone of a task lies two levels below the workspace root**, in a directory named by the
run's slug and the task's. -/
theorem cloneDest_steps {root path : String} {runId taskId : Val}
    (h : cloneDest root runId taskId = .ok path) :
    ∃ run task : Name, slug runId = .ok (String.ofList run.val)
      ∧ slug taskId = .ok (String.ofList task.val)
      ∧ stepsOf path.toList = stepsOf root.toList ++ [.down run, .down task] := by
  obtain ⟨run, hrun, h⟩ := except_bind_eq_ok.mp h
  obtain ⟨task, htask, h⟩ := except_bind_eq_ok.mp h
  cases h
  obtain ⟨n, hn⟩ := slug_name hrun
  obtain ⟨m, hm⟩ := slug_name htask
  refine ⟨n, m, ?_, ?_, ?_⟩
  · rw [hrun, ← hn, String.ofList_toList]
  · rw [htask, ← hm, String.ofList_toList]
  · have htext : (root ++ "/" ++ run ++ "/" ++ task).toList
        = root.toList ++ '/' :: (n.val ++ '/' :: m.val) := by
      simp [← hn, ← hm]
    change stepsOf (root ++ "/" ++ run ++ "/" ++ task).toList = _
    rw [htext, stepsOf_append_cons, stepsOf_append_cons, stepsOf_name, stepsOf_name]
    rfl

/-- The path is that of the clone of an object repository: the directory named by the slugs of the
two ids, two levels below the workspace root. -/
def CloneOf (deps : ReceiverDeps) (payload : Dict) (path : String) : Prop :=
  (∃ repo, repositoryOf payload = .ok (.dict repo))
    ∧ ∃ runId taskId, (Val.dict payload).item "run_id" = .ok runId
      ∧ (Val.dict payload).item "task_id" = .ok taskId
      ∧ ∃ run task : Name, slug runId = .ok (String.ofList run.val)
        ∧ slug taskId = .ok (String.ofList task.val)
        ∧ stepsOf path.toList = stepsOf deps.workspace.toList ++ [.down run, .down task]

/-! ### The door -/

omit [PyRuntime] [SqlText] in
/-- The rule for a computation without calls whose exceptions end the routine. -/
lemma meets_pyLift_bind' {α β : Type} {C : Contract Raised RelayOp RelayOp.Res}
    {past : List RelayExchange} {x : Except PyErr α} {f : α → Relay β}
    (hok : ∀ a, x = .ok a → (f a).Meets C past fun _ _ => True) :
    (pyLift x >>= f).Meets C past fun _ _ => True := by
  cases x with
  | ok a => exact hok a rfl
  | error e => trivial

/-- What the door knows of a payload it hands to a worker: it has accepted the task under its
key. -/
def PassedDoor (payload : Dict) : Prop :=
  ∃ runId taskId key, (Val.dict payload).item "run_id" = .ok runId
    ∧ (Val.dict payload).item "task_id" = .ok taskId ∧ taskKey runId taskId = .ok key

/-- A worker is started by a handler that has accepted its task. -/
def admits : Contract Raised RelayOp RelayOp.Res where
  allowed _ op := ∀ payload, op = .startWorker payload → PassedDoor payload
  expected _ := True

omit [PyRuntime] in
/-- The handler starts a worker behind its checks. -/
lemma meets_postTask (payload : Dict) :
    (postTask payload).Meets admits [] fun _ _ => True := by
  have hother : ∀ {p : Relay Unit} {past : List RelayExchange},
      (p.Only fun op => ∀ payload, op ≠ .startWorker payload) →
      p.Meets admits past fun _ _ => True := by
    intro p past hp
    refine (hp.meets fun _ op hop payload heq => absurd heq (hop payload)).mono ?_
    exact fun _ _ _ _ => trivial
  have hlogged : ∀ notice status body, (do
      invoke (.log notice); invoke (.reply status body) : Relay Unit).Only
        fun op => ∀ payload, op ≠ .startWorker payload := by
    intro notice status body
    refine Routine.Only.bind (Routine.only_perform fun _ => by simp) fun _ => ?_
    exact Routine.only_perform fun _ => by simp
  rw [postTask]
  refine meets_pyLift_bind' fun runId hrun => ?_
  dsimp only
  split_ifs with htask
  · have hitem : (Val.dict payload).item "task_id" = .ok (payload.get "task_id") := by
      refine Val.item_of_get rfl fun hnone => ?_
      rw [hnone] at htask
      cases htask
    refine meets_pyLift_bind' fun key hkey => ?_
    refine ⟨fun p hp => (by cases hp), fun decision _ => ?_⟩
    cases decision with
    | error e => trivial
    | ok decision =>
        change Routine.Meets admits (if decision = .replay then _ else _) _ _
        split_ifs
        · exact hother (hlogged ..)
        · refine ⟨fun p hp => (by cases hp), fun free _ => ?_⟩
          cases free with
          | error e => trivial
          | ok free =>
              cases free with
              | false => exact hother (hlogged ..)
              | true =>
                  refine ⟨fun p hp => ?_, fun started _ => ?_⟩
                  · cases hp
                    exact ⟨runId, _, key, hrun, hitem, hkey⟩
                  · cases started with
                    | error e => trivial
                    | ok _ => exact hother (hlogged ..)
  · exact hother (Routine.only_perform fun _ => by simp)

/-- Every thread starts workers for what the door has accepted only. -/
lemma meets_jobBody_admits (job : RelayJob) :
    (jobBody deps job).Meets admits [] fun _ _ => True := by
  have hother : ∀ {p : Relay Unit}, (p.Only fun op => ∀ payload, op ≠ .startWorker payload) →
      p.Meets admits [] fun _ _ => True := fun hp =>
    (hp.meets fun _ op hop payload heq => absurd heq (hop payload)).mono fun _ _ _ _ => trivial
  cases job with
  | postTask payload => exact meets_postTask payload
  | execute payload =>
      refine hother (Routine.Only.finallyDo ?_ (Routine.only_perform fun _ => by simp))
      refine (only_execute deps payload).mono ?_
      rintro op hop payload rfl
      exact hop
  | drain job =>
      refine hother (Routine.Only.bind ((only_drain job).mono ?_) fun _ => Routine.only_done _)
      rintro op hop payload rfl
      exact hop
  | sweep maxAgeS => exact hother (Routine.only_perform fun _ => by simp)

omit [SqlText] in
/-- Only `startWorker` starts a worker. -/
lemma effect_starts {x : RelayExchange} {s s' : RelayState} {jobs : List RelayJob}
    (h : x.op.effect s x.out s' jobs) {payload : Dict} (hin : .execute payload ∈ jobs) :
    x.op = .startWorker payload := by
  obtain ⟨op, out⟩ := x
  cases out with
  | error e =>
      rw [h.2.2] at hin
      cases hin
  | ok answer =>
      cases op with
      | acceptTask key =>
          obtain ⟨now, -, -, rfl⟩ := h
          cases hin
      | claimTask key =>
          obtain ⟨now, -, -, rfl⟩ := h
          cases hin
      | _ => simp_all [RelayOp.effect, RelayOp.returns]

/-! ### In a run -/

variable {P₀ P : RelayPool} {trail : List RelayChange}

/-- Every worker has been handed its payload by the door. -/
lemma passedDoor_run (h : (relayPlatform deps).Run P₀ trail P) (hstart : P₀.threads = [])
    {t : RelayThread} (ht : t ∈ P.threads) (hjob : t.job = .execute payload) :
    PassedDoor payload := by
  have hboth : Platform.Kept (fun _ => admits) P
      ∧ ∀ t ∈ P.threads, ∀ payload, t.job = .execute payload → PassedDoor payload := by
    refine h.invariant (fun _ => True) (fun Q => Platform.Kept (fun _ => admits) Q
      ∧ ∀ t ∈ Q.threads, ∀ payload, t.job = .execute payload → PassedDoor payload)
      (fun Q m Q' hstep _ hQ => ?_) (fun _ _ => trivial) ?_
    · refine ⟨hstep.meets (fun _ _ _ _ _ => trivial) hQ.1 meets_jobBody_admits, ?_⟩
      intro t' ht' payload hjob
      obtain ⟨j, hj⟩ := List.mem_iff_getElem?.mp ht'
      rcases hstep.thread hj with ⟨t, ht, hsame, -⟩ | ⟨-, job, rfl,
        rfl | ⟨i, x, jobs, rfl, heffect, hin⟩⟩
      · exact hQ.2 t (List.mem_of_getElem? ht) payload (hsame ▸ hjob)
      · cases hstep with
        | start harrives => exact absurd hjob (harrives payload)
      · obtain ⟨t, -, hallowed, -⟩ := hstep.allowed hQ.1
        obtain rfl : job = .execute payload := hjob
        exact hallowed payload (effect_starts heffect hin)
    · rw [Platform.Kept, hstart]
      exact ⟨fun t ht => absurd ht List.not_mem_nil, fun t ht => absurd ht List.not_mem_nil⟩
  exact hboth.2 t ht payload hjob

/-- The terminal status of a task. -/
def settledAs (ok : Bool) : AcceptStatus := if ok then .done else .failed

/-- **A settled task stays settled until its row is deleted**: no other worker holds it. -/
lemma settled_stays (h : (relayPlatform deps).Run P₀ trail P) {key : TaskKey} {ok : Bool}
    (hlate : ∀ c ∈ trail, ¬ LateFailing c) (hkeep : ∀ c ∈ trail, ¬ Deletes c key)
    (hkept : Platform.Kept (fun _ => runOnce) P₀)
    (hfree : ∀ t ∈ P₀.threads, ¬ Holds t.past key)
    (hstatus : P₀.shared.status key = some (settledAs ok)) :
    P.shared.status key = some (settledAs ok) := by
  have hended : settledAs ok ≠ .accepted := by cases ok <;> simp [settledAs]
  have hall := h.invariant (fun c => ¬ LateFailing c ∧ ¬ Deletes c key)
    (fun Q => Platform.Kept (fun _ => runOnce) Q ∧ (∀ t ∈ Q.threads, ¬ Holds t.past key)
      ∧ Q.shared.status key = some (settledAs ok))
    (fun Q m Q' hstep hgood hQ => ?_) (fun c hc => ⟨hlate c hc, hkeep c hc⟩)
    ⟨hkept, hfree, hstatus⟩
  · exact hall.2.2
  obtain ⟨hkept, hfree, hstatus⟩ := hQ
  refine ⟨hstep.meets (fun i x t hm _ hfailure => hgood.1 ⟨i, x, hm, hfailure⟩) hkept
    (meets_jobBody deps), ?_, ?_⟩
  · intro t' ht' hholds
    obtain ⟨j, hj⟩ := List.mem_iff_getElem?.mp ht'
    rcases holds_step hstep hj hholds with ⟨t, ht, hbefore, -⟩ | rfl
    · exact hfree t (List.mem_of_getElem? ht) hbefore
    · obtain ⟨jobs, heffect⟩ := hstep.call_effect
      rw [(effect_claim heffect).1, Option.some.injEq] at hstatus
      exact hended hstatus.symm
  · rcases status_step hstep key with hsame | ⟨i, x, jobs, rfl, heffect⟩
    · rw [hsame, hstatus]
    rcases effect_status heffect key with
      hsame | ⟨-, hnone, -⟩ | ⟨-, haccepted, -⟩ | ⟨ok', rfl, -, -⟩ | ⟨-, hnone⟩
    · rw [hsame, hstatus]
    · rw [hstatus] at hnone
      cases hnone
    · rw [hstatus, Option.some.injEq] at haccepted
      exact absurd haccepted hended
    · obtain ⟨t, ht, hholds, -⟩ := hstep.allowed hkept
      exact absurd hholds (hfree t (List.mem_of_getElem? ht))
    · refine absurd ⟨?_, hnone⟩ hgood.2
      dsimp only
      rw [hstatus]
      simp

/-- The thread settles the task in one change of the run, which takes its row from `running` to the
terminal status; the row keeps it until it is deleted. -/
def RowSettled (trail : List RelayChange) (P : RelayPool) (i : ℕ) (key : TaskKey) (ok : Bool) :
    Prop :=
  ∃ before c after, trail = before ++ c :: after
    ∧ c.move = .call i ⟨.settleTask key ok, .ok ()⟩
    ∧ c.before.shared.status key = some .running ∧ c.after.shared.status key = some (settledAs ok)
    ∧ ((∀ d ∈ after, ¬ Deletes d key) → P.shared.status key = some (settledAs ok))

lemma rowSettled_of_made (h : (relayPlatform deps).Run P₀ trail P) (hstart : P₀.threads = [])
    (hlate : ∀ c ∈ trail, ¬ LateFailing c) {c : RelayChange} (hc : c ∈ trail) {i : ℕ}
      {key : TaskKey}
    {ok : Bool} (hm : c.move = .call i ⟨.settleTask key ok, .ok ()⟩) :
    RowSettled trail P i key ok := by
  obtain ⟨before, after, rfl⟩ := List.append_of_mem hc
  obtain ⟨Q, hbefore, hrest⟩ := Platform.run_append.mp h
  obtain ⟨rfl, hstep, hafter⟩ := Platform.run_cons.mp hrest
  have hlatebefore : ∀ c ∈ before, ¬ LateFailing c :=
    fun d hd => hlate d (List.mem_append_left _ hd)
  have hone := oneHolder_run hbefore hstart hlatebefore
  have hkept := kept_runOnce hbefore hstart hlatebefore
  rw [hm] at hstep
  obtain ⟨t, ht, hholds, -⟩ := hstep.allowed hkept
  have hrunning := hone.running i t key ht hholds
  obtain ⟨jobs, now, hs, -⟩ := hstep.call_effect
  have hsettled : c.after.shared.status key = some (settledAs ok) := by
    rw [RelayState.status] at hrunning ⊢
    rw [hs]
    obtain ⟨row, hrow, -⟩ := Option.map_eq_some_iff.mp hrunning
    simp [settleTask, hrow, settledAs]
  refine ⟨before, c, after, rfl, hm, hrunning, hsettled, fun hkeep => ?_⟩
  refine settled_stays hafter (fun d hd => hlate d ?_) hkeep ?_ ?_ hsettled
  · exact List.mem_append_right _ (List.mem_cons_of_mem _ hd)
  · refine hstep.meets (fun j x t' hmove _ hfailure => ?_) hkept (meets_jobBody deps)
    cases hmove
    obtain ⟨_, _, _, _, _, _, _, heq⟩ := hfailure
    cases heq
  · intro t' ht' hholds'
    obtain ⟨j, hj⟩ := List.mem_iff_getElem?.mp ht'
    rcases holds_step hstep hj hholds' with ⟨u, hu, hu', hnot⟩ | heq
    · obtain rfl := hone.unique i j t u key ht hu hholds hu'
      exact hnot ok rfl
    · injection heq with _ heq
      cases heq

/-- **Every claim is settled.**  In every run of the receiver in which the logger and the calls on a
task's row do not raise, and nothing but `Exception`s is raised otherwise: a worker that has ended
returned; if it lost its claim, it changed nothing; if it won it, it settled the row once, as `done`
exactly when its drain returned a report that is `ok`; and what it removed is a directory two levels
below the workspace root, for an object repository. -/
theorem every_claim_settled (h : (relayPlatform deps).Run P₀ trail P) (hstart : P₀.threads = [])
    (hsound : ∀ c ∈ trail, ¬ Breaking c) {i : ℕ} {past : List RelayExchange}
    {ended : Except Raised Unit}
    (hi : P.threads[i]? = some ⟨.execute payload, past, some (.done ended)⟩) :
    ended = .ok ()
      ∧ (∃ key, LostClaim past key ∧ (∀ c ∈ trail, ∀ x, c.move = .call i x →
            x.op = .releaseSlot ∨ c.after.shared = c.before.shared)
          ∨ ∃ ok, SettlesAs deps payload key past ok ∧ RowSettled trail P i key ok)
      ∧ ∀ path out, ⟨.rmtree path, out⟩ ∈ past → CloneOf deps payload path := by
  have hlate : ∀ c ∈ trail, ¬ LateFailing c := by
    rintro c hc ⟨j, x, hm, key, ledgerId, delivered, pending, ok, e, -, rfl⟩
    exact hsound c hc ⟨j, _, hm, e, rfl, Or.inl rfl⟩
  have hfair : ∀ x ∈ past, Fair x := by
    intro x hx e he
    obtain ⟨c, hc, hm⟩ := h.made hstart hi hx
    have hunbroken : ¬ Breaks x := fun hbreak => hsound c hc ⟨i, x, hm, hbreak⟩
    obtain ⟨-, -, -, -, hstep⟩ := h.step_of_mem hc
    rw [hm] at hstep
    obtain ⟨jobs, heffect⟩ := hstep.call_effect
    rw [he] at heffect
    refine ⟨heffect.1, ?_, ?_⟩
    · exact Bool.eq_false_iff.mpr fun htrusted => hunbroken ⟨e, he, Or.inl htrusted⟩
    · exact Bool.of_not_eq_false fun hexception => hunbroken ⟨e, he, Or.inr hexception⟩
  obtain ⟨runId, taskId, key, hrun, htask, hkey⟩ :=
    passedDoor_run h hstart (List.mem_of_getElem? hi) rfl
  have hdoes := h.does hstart (List.mem_of_getElem? hi) rfl
  obtain ⟨hended, hends⟩ := execute_does hrun htask hkey hdoes hfair
  refine ⟨hended, ⟨key, hends.imp (fun hlost => ⟨hlost, ?_⟩) ?_⟩, fun path out hin => ?_⟩
  · intro c hc x hm
    have hx := h.recorded hc hm hi
    obtain ⟨-, -, -, -, hstep⟩ := h.step_of_mem hc
    rw [hm] at hstep
    obtain ⟨jobs, heffect⟩ := hstep.call_effect
    rw [hlost] at hx
    rcases List.mem_cons.mp hx with rfl | hx
    · exact Or.inr (effect_claim_lost heffect)
    rcases List.mem_pair.mp hx with rfl | rfl
    · exact Or.inr heffect.1
    · exact Or.inl rfl
  · rintro ⟨ok, hsettles⟩
    have hmem : (⟨.settleTask key ok, .ok ()⟩ : RelayExchange) ∈ past := by
      refine List.mem_of_mem_filter (p := fun x => x.op.settles) ?_
      rw [hsettles.once]
      exact List.mem_singleton_self _
    obtain ⟨c, hc, hm⟩ := h.made hstart hi hmem
    exact ⟨ok, hsettles, rowSettled_of_made h hstart hlate hc hm⟩
  · have honly : (jobBody deps (.execute payload)).Only fun op =>
        workerCalls deps payload op ∨ op = .releaseSlot :=
      Routine.Only.finallyDo ((only_execute deps payload).mono fun _ => Or.inl)
        (Routine.only_perform (Or.inr rfl))
    rcases honly.does hdoes _ hin with ⟨runId, taskId, hrun, htask, hrepo, hdest⟩ | heq
    · exact ⟨hrepo, runId, taskId, hrun, htask, cloneDest_steps hdest⟩
    · cases heq

end Runtime

/-! ### A run played -/

/-- The worker has ended. -/
def workerEnded (P : RelayPool) (i : ℕ) : Bool :=
  match P.threads[i]? with
  | some ⟨.execute _, _, some (.done _)⟩ => true
  | _ => false

lemma ended_of_workerEnded {P : RelayPool} {i : ℕ} (h : workerEnded P i = true) :
    ∃ payload past ended, P.threads[i]? = some ⟨.execute payload, past, some (.done ended)⟩ := by
  rw [workerEnded] at h
  split at h
  · rename_i payload past ended hthread
    exact ⟨payload, past, ended, hthread⟩
  · cases h

/-- A trusted call raises, or something that is no `Exception` is raised. -/
def breaksIn (c : RelayChange) : Bool :=
  match c.move with
  | .call _ ⟨op, .error e⟩ => op.trusted || !e.isException
  | _ => false

lemma not_breaking {c : RelayChange} (h : breaksIn c = false) : ¬ Breaking c := by
  rintro ⟨i, ⟨op, out⟩, hm, e, hout, hbreak⟩
  obtain rfl : out = .error e := hout
  rw [breaksIn, hm] at h
  dsimp only at h
  rw [Bool.or_eq_false_iff, Bool.not_eq_false'] at h
  rcases hbreak with hbreak | hbreak
  · rw [h.1] at hbreak
    cases hbreak
  · rw [h.2] at hbreak
    cases hbreak

section Example

attribute [local instance] cpython stringText

/-- A dispatched task with an object repository, of a run whose id climbs. -/
def climbingPayload : Dict :=
  (Dict.set (oneTodoPayload "T1") "run_id" (.str "../..")).set "context_package"
    (.dict [("repository", .dict [("url", .str "https://h/r"), ("base_ref", .str "main")])])

/-- The clone of the repository fails; the worker settles its task, cleans up and ends. -/
def failedClone : List (Cue RelayJob RelayChoice) :=
  [.start (.postTask climbingPayload)] ++ List.replicate 3 (.call 0 .ok)
    ++ List.replicate 4 (.call 1 .ok) ++ [.call 1 (.raise .osError)]
      ++ List.replicate 5 (.call 1 .ok)

/-- The clone is all that is removed, though the run's id climbs. -/
theorem every_claim_settled_of_clone : ∃ trail P payload past, ∃ ended : Except Raised Unit,
    (relayPlatform scriptDeps).Run freshPool trail P
      ∧ P.threads[1]? = some ⟨.execute payload, past, some (.done ended)⟩ ∧ ended = .ok ()
      ∧ ∀ path out, ⟨.rmtree path, out⟩ ∈ past → CloneOf scriptDeps payload path := by
  have hplayed : ((relayAnswers scriptDeps).play freshPool failedClone).any (fun r =>
      workerEnded r.2 1 && r.1.all fun c => !breaksIn c) = true := by decide +kernel
  obtain ⟨⟨trail, P⟩, hplay, hcheck⟩ := (Option.any_eq_true _ _).mp hplayed
  rw [Bool.and_eq_true, List.all_eq_true] at hcheck
  have hrun := AnswerBook.play_run _ hplay
  obtain ⟨payload, past, ended, hi⟩ := ended_of_workerEnded hcheck.1
  have hsound : ∀ c ∈ trail, ¬ Breaking c := fun c hc => not_breaking (by simpa using hcheck.2 c hc)
  obtain ⟨hended, -, hremoved⟩ := every_claim_settled hrun rfl hsound hi
  exact ⟨trail, P, payload, past, ended, hrun, hi, hended, hremoved⟩

end Example

end IplanRunner
