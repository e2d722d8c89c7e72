import IplanRunner.Orchestrator.Loop

/-!
Operator decisions (`orchestrator/control.py`, `security/authz.py`).

* `authorize`: the role table.
* `resolveBlocker`: the decision on a blocker.  Only `"override"` touches blockers and tasks.
-/

namespace IplanRunner

open Foundation

/-- An actor: who decides, and the role it is given. -/
structure Actor where
  id : Val
  role : Option String
  deriving DecidableEq

/-- `_ROLE_ACTIONS`. -/
def roleActions : List (String × List String) :=
  [("agent", ["run", "record", "edit"]),
    ("operator", ["run", "record", "edit", "land", "approve", "override"])]

/-- The verdict of `authorize`: the reason of a denial, when there is one. -/
def authorize (actor : Actor) (action : String) : Except String Unit :=
  match actor.role.bind fun role => roleActions.lookup role with
  | none => .error "AUTHZ.UNKNOWN_ROLE"
  | some actions => if action ∈ actions then .ok () else .error "AUTHZ.ROLE_FORBIDDEN"

/-- The first open blocker with an id. -/
def Ledger.blocker? (L : Ledger) (blockerId : String) : Option Blocker :=
  L.blockers.find? (·.blockerId == blockerId)

/-- What an override of `b` does: every blocker with its id goes, the task of `b` is reset. -/
def Ledger.override (L : Ledger) (b : Blocker) : Ledger :=
  { L with
    blockers := L.blockers.filter (·.blockerId != b.blockerId)
    taskLedger := L.taskLedger.map fun e =>
      if e.named b.taskId then { e with status := .pending, blockedReason := none } else e }

variable [PyRuntime]

/-- The `resolution` event of a decision. -/
def resolutionEvent (scope : Dict) (subject : Val) (atTime : String) : EventBody where
  kind := .resolution
  subjectId := subject
  atTime := .str atTime
  touchedPaths := .list []
  clientId := scope.get "client_id"
  projectId := scope.get "project_id"

/-- The entry of `resolutions` and the event a decision leaves. -/
def Ledger.recordResolution (L : Ledger) (r : Resolution) (subject : Val) : Ledger :=
  { L with
    resolutions := L.resolutions ++ [r]
    executionLog :=
      appendEvent L.executionLog (resolutionEvent L.isolationScope subject r.atTime) }

/-- `resolve_blocker`. -/
def resolveBlocker (L : Ledger) (blockerId decision : String) (actor : Actor) (atTime : String) :
    Except PyErr Ledger :=
  match authorize actor (if decision = "override" then "override" else "approve") with
  | .error reason => .error (.permissionError s!"authz denied {decision}: {reason}")
  | .ok () =>
      let resolution : Resolution := ⟨blockerId, decision, actor.id, atTime⟩
      match L.blocker? blockerId with
      | none => .ok (L.recordResolution resolution .none)
      | some b =>
          let resolved := if decision = "override" then L.override b else L
          .ok (resolved.recordResolution resolution (.str b.taskId))

end IplanRunner
