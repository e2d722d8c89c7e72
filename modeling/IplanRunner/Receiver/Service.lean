import IplanRunner.Relay.Worker

/-!
The receiver of dispatched tasks (`receiver/service.py`, and the part of `_Handler.do_POST` of
`receiver/http.py` behind the door's checks).

* `slug`, `provisionWorkspace`: the workspace of a task.
* `execute`: a task is claimed, run, drained and settled, and its clone removed.
* `postTask`, `relayPlatform`: a request is accepted and its worker started; the threads of a store.
-/

namespace IplanRunner

open Foundation

/-- What a text column keeps of a bound value; `none` where the driver refuses the value. -/
class SqlText where
  column : Val → Option String

/-- `ReceiverDeps`, with the size of the run pool. -/
structure ReceiverDeps where
  workspace : String
  maxRetries : ℕ
  key : String
  keyId : Option String
  maxParallel : ℕ

/-! ### The workspace -/

/-- A character `_UNSAFE` does not match. -/
def safeChar (c : Char) : Bool :=
  decide (c.toNat < 128) && c.isAlphanum || c == '.' || c == '_' || c == '-'

section Runtime

variable [PyRuntime]

/-- `_slug`. -/
def slug : Val → Except PyErr String
  | .str component =>
      let text := String.ofList (component.toList.map fun c => if safeChar c then c else '_')
      if text = "" ∨ text = "." ∨ text = ".." then
        let shown := PyRuntime.repr (.str component)
        .error (.valueError s!"unsafe path component: {shown}")
      else .ok text
  | _ => .error .typeError

/-- `str(Path(root) / _slug(run_id) / _slug(task_id))`, for a root without a trailing slash. -/
def cloneDest (root : String) (runId taskId : Val) : Except PyErr String := do
  let run ← slug runId
  let task ← slug taskId
  return s!"{root}/{run}/{task}"

/-- `(payload.get("context_package") or {}).get("repository")`. -/
def repositoryOf (payload : Dict) : Except PyErr Val :=
  ((payload.get "context_package").orElse (.dict [])).get "repository"

/-- `cloned_workspace`, once it has been computed. -/
def clonedWorkspace (deps : ReceiverDeps) (payload : Dict) (runId taskId : Val) :
    Except PyErr (Option String) := do
  match ← repositoryOf payload with
  | .dict _ => return some (← cloneDest deps.workspace runId taskId)
  | _ => return none

/-- `provision_workspace`. -/
def provisionWorkspace (payload : Dict) (root : String) (runId taskId : Val) : Relay String := do
  match ← pyLift (repositoryOf payload) with
  | .dict repo =>
      let dest ← pyLift (cloneDest root runId taskId)
      invoke (.rmtree dest)
      invoke (.makeParent dest)
      let url ← pyLift ((Val.dict repo).item "url")
      let ref ← pyLift ((Val.dict repo).item "base_ref")
      invoke (.clone url ref dest)
      return dest
  | _ => return root

/-! ### The worker -/

/-- `deps.engine.run(...)`. -/
def runEngine (manifest : Manifest) (workspace : String) : Relay Ledger :=
  invoke (.runEngine manifest workspace)

/-- `store.save_identity(store_dir, ledger_id, payload)`. -/
def savedIdentity (ledgerId : String) (payload : Dict) : Relay Dict :=
  invoke (.saveIdentity ledgerId payload)

/-- The arguments of the worker's drain. -/
def workerDrain (deps : ReceiverDeps) (ledger : Ledger) (identity : Dict) : DrainJob where
  ledger := ledger.toDoc
  identity := identity
  ledgerId := ledger.control.ledgerId
  key := deps.key
  keyId := deps.keyId
  maxRetries := deps.maxRetries
  now := none
  maxAgeS := defaultMaxAgeS

/-- What `execute` tries, up to the end of the drain. -/
def runAndDrain (deps : ReceiverDeps) (payload : Dict) (runId taskId : Val) :
    Relay (Ledger × DrainReport) := do
  let _ ← pyLift (clonedWorkspace deps payload runId taskId)
  let workspace ← provisionWorkspace payload deps.workspace runId taskId
  let adapted ← pyLift (adaptDispatchedTask payload workspace)
  let manifest ← pyLift (ingestTaskPayloadDict adapted)
  let ledger ← runEngine manifest.toManifest workspace
  invoke (.save ledger)
  let identity ← savedIdentity ledger.control.ledgerId payload
  let report ← drain (workerDrain deps ledger identity)
  return (ledger, report)

/-- What `execute` tries, once the task is claimed. -/
def runClaimed (deps : ReceiverDeps) (payload : Dict) (runId taskId : Val) (key : TaskKey) :
    Relay Unit := do
  let (ledger, report) ← runAndDrain deps payload runId taskId
  invoke (.settleTask key report.ok)
  invoke (.log (.runDone key ledger.control.ledgerId report.delivered.length report.pending.length
    report.ok))

/-- `except Exception as exc` of `execute`. -/
def settleFailed (key : TaskKey) (e : Raised) : Relay Unit :=
  if e.isException then do
    invoke (.settleTask key false)
    invoke (.log (.error key e))
  else .raise e

/-- `finally` of `execute`. -/
def cleanUp (key : TaskKey) (cloned : Except PyErr (Option String)) : Relay Unit := do
  match cloned with
  | .ok (some path) => invoke (.rmtree path)
  | _ => pure ()
  (invoke (.pruneSettled none)).handle fun e =>
    if e.isException then invoke (.log (.pruneSkip key.1 e)) else .raise e

/-- `store.claim_task(store_dir, run_id, task_id)`. -/
def claim (key : TaskKey) : Relay Bool := invoke (.claimTask key)

variable [SqlText]

/-- The key under which the store keeps a task. -/
def taskKey (runId taskId : Val) : Except PyErr TaskKey :=
  match SqlText.column runId, SqlText.column taskId with
  | some run, some task => .ok (run, task)
  | _, _ => .error (.other "ProgrammingError")

/-- `execute`. -/
def execute (deps : ReceiverDeps) (payload : Dict) : Relay Unit := do
  let runId ← pyLift ((Val.dict payload).item "run_id")
  let taskId ← pyLift ((Val.dict payload).item "task_id")
  let key ← pyLift (taskKey runId taskId)
  if ← claim key then
    invoke (.log (.runStart key))
    ((runClaimed deps payload runId taskId key).handle (settleFailed key)).finallyDo
      (cleanUp key (clonedWorkspace deps payload runId taskId))
  else invoke (.log (.claimLost key))

/-! ### The handler -/

/-- `store.accept_task(store_dir, run_id, task_id)`. -/
def acceptOf (key : TaskKey) : Relay AcceptDecision := invoke (.acceptTask key)

/-- `server.slots.acquire(blocking=False)`. -/
def acquired : Relay Bool := invoke .acquireSlot

/-- The body of the two `202` replies. -/
def taskReply (runId taskId : Val) (status : String) : Dict :=
  [("task_id", taskId), ("run_id", runId), ("status", .str status)]

/-- The end of `_Handler.do_POST`, for a payload without findings. -/
def postTask (payload : Dict) : Relay Unit := do
  let runId ← pyLift ((Val.dict payload).item "run_id")
  let taskId := payload.get "task_id"
  if taskId.truthy then
    let key ← pyLift (taskKey runId taskId)
    let decision ← acceptOf key
    if decision = .replay then
      invoke (.log (.replay key))
      invoke (.reply 202 (taskReply runId taskId "duplicate"))
    else if ← acquired then
      invoke (.startWorker payload)
      invoke (.log (.accepted key))
      invoke (.reply 202 (taskReply runId taskId "accepted"))
    else
      invoke (.log (.receiverBusy key))
      invoke (.reply 503 [("reason", .str "receiver_busy")])
  else
    invoke (.reply 400
      [("reason", .str "schema_invalid"), ("detail", .str "task payload missing task_id")])

/-! ### The platform -/

/-- The threads over a store. -/
abbrev RelayPool : Type := Pool Raised RelayOp RelayOp.Res RelayState RelayJob

/-- A thread over a store. -/
abbrev RelayThread : Type := Thread Raised RelayOp RelayOp.Res RelayJob

/-- A change of a run over a store. -/
abbrev RelayChange : Type := Change Raised RelayOp RelayOp.Res RelayState RelayJob

/-- The body of a job: a worker hands its slot back, however its task ends. -/
def jobBody (deps : ReceiverDeps) : RelayJob → Relay Unit
  | .postTask payload => postTask payload
  | .execute payload => (execute deps payload).finallyDo (invoke .releaseSlot)
  | .drain job => do
      let _ ← drain job
      return ()
  | .sweep maxAgeS => invoke (.pruneSettled maxAgeS)

/-- The threads over one store: requests, drains and sweeps come from outside, workers are started
by the handlers, and a restart loses every thread and has all slots free. -/
def relayPlatform (deps : ReceiverDeps) :
    Platform Raised RelayOp RelayOp.Res RelayState RelayJob where
  body := jobBody deps
  arrives job := ∀ payload, job ≠ .execute payload
  effect := RelayOp.effect
  recover s := { s with slots := deps.maxParallel }

/-! ### The calls of a handler and of a worker -/

/-- What `provision_workspace` calls: everything is done to the clone of an object repository. -/
def workspaceCalls (payload : Dict) (root : String) (runId taskId : Val) : RelayOp → Prop
  | .rmtree path => (∃ repo, repositoryOf payload = .ok (.dict repo))
      ∧ cloneDest root runId taskId = .ok path
  | .makeParent path => cloneDest root runId taskId = .ok path
  | .clone _ _ path => cloneDest root runId taskId = .ok path
  | _ => False

/-- What the part under `finally` calls. -/
def cleanCalls (cloned : Except PyErr (Option String)) : RelayOp → Prop
  | .rmtree path => cloned = .ok (some path)
  | .pruneSettled _ => True
  | .log _ => True
  | _ => False

/-- What a handler calls behind the door. -/
def handlerCalls : RelayOp → Prop
  | .acceptTask _ => True
  | .acquireSlot => True
  | .startWorker _ => True
  | .log _ => True
  | .reply _ _ => True
  | _ => False

omit [PyRuntime] in
lemma only_postTask (payload : Dict) : (postTask payload).Only handlerCalls := by
  refine Routine.Only.bind (only_pyLift _) fun runId => ?_
  dsimp only
  split_ifs
  · refine Routine.Only.bind (only_pyLift _) fun key => ?_
    refine Routine.Only.bind (Routine.only_perform trivial) fun decision => ?_
    split_ifs
    · exact Routine.Only.bind (Routine.only_perform trivial) fun _ => Routine.only_perform trivial
    · refine Routine.Only.bind (Routine.only_perform trivial) fun free => ?_
      split_ifs
      · refine Routine.Only.bind (Routine.only_perform trivial) fun _ => ?_
        exact Routine.Only.bind (Routine.only_perform trivial) fun _ => Routine.only_perform trivial
      · exact Routine.Only.bind (Routine.only_perform trivial) fun _ => Routine.only_perform trivial
  · exact Routine.only_perform trivial

omit [SqlText] in
lemma only_provisionWorkspace (payload : Dict) (root : String) (runId taskId : Val) :
    (provisionWorkspace payload root runId taskId).Only
      (workspaceCalls payload root runId taskId) := by
  refine only_pyLift_bind fun repository hrepository => ?_
  split
  · rename_i repo
    refine only_pyLift_bind fun dest hdest => ?_
    refine Routine.Only.bind (Routine.only_perform ⟨⟨repo, hrepository⟩, hdest⟩) fun _ => ?_
    refine Routine.Only.bind (Routine.only_perform hdest) fun _ => ?_
    refine Routine.Only.bind (only_pyLift _) fun url => ?_
    refine Routine.Only.bind (only_pyLift _) fun ref => ?_
    exact Routine.Only.bind (Routine.only_perform hdest) fun _ => Routine.only_done _
  · exact Routine.only_done _

omit [PyRuntime] [SqlText] in
lemma only_cleanUp (key : TaskKey) (cloned : Except PyErr (Option String)) :
    (cleanUp key cloned).Only (cleanCalls cloned) := by
  have hprune : ((invoke (.pruneSettled none)).handle fun e =>
      if e.isException then invoke (.log (.pruneSkip key.1 e)) else .raise e).Only
        (cleanCalls cloned) := by
    refine Routine.Only.handle (Routine.only_perform trivial) fun e => ?_
    split_ifs
    · exact Routine.only_perform trivial
    · exact Routine.only_done _
  cases cloned with
  | error e => exact hprune
  | ok path =>
      cases path with
      | none => exact hprune
      | some path => exact Routine.Only.bind (Routine.only_perform rfl) fun _ => hprune

end Runtime

end IplanRunner
