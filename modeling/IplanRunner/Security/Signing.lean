import IplanRunner.Foundation.Calls
import IplanRunner.Ledger.Store

/-!
The authenticated ledger (`security/signing.py`).

* `canonical`, `signEvent`, `verifyLedger`: the functions of the module, on arbitrary documents.
* `signLog`, `Ledger.sign`: `sign_ledger` on a log of documents and on the log of a ledger.  An
  event without a JSON text raises, and the signatures before it stay.
-/

namespace IplanRunner

open Foundation

/-- `{k: v for k, v in event.items() if k != "signature"}`. -/
def unsigned : Val → Except PyErr Val
  | .dict kvs => .ok (.dict (Dict.erase kvs "signature"))
  | _ => .error .attributeError

variable [PyRuntime]

/-- `_canonical`. -/
def canonical (event : Val) : Except PyErr String := do
  PyRuntime.jsonDumps (← unsigned event)

/-- `sign_event`. -/
def signEvent (event : Val) (key : String) : Except PyErr String := do
  return "hmac-sha256:" ++ PyRuntime.hmacSha256 key (← canonical event)

/-- `event["signature"] = sign_event(event, key)`. -/
def addSignature (key : String) : Val → Except PyErr Val
  | .dict kvs => do return .dict (Dict.set kvs "signature" (.str (← signEvent (.dict kvs) key)))
  | _ => .error .attributeError

/-- `sign_ledger`, on the documents of the log. -/
def signLog (key : String) (log : List Val) : Except PyErr Unit × List Val :=
  updateEach (addSignature key) log

omit [PyRuntime] in
/-- `hmac.compare_digest(a, b)`, where `b` is a string of ASCII characters: so has `a` to be. -/
def compareDigest (a : Val) (b : String) : Except PyErr Bool :=
  match a with
  | .str s => if s.toList.all (·.toNat < 128) then .ok (s == b) else .error .typeError
  | _ => .error .typeError

/-- The pass of the loop of `verify_ledger`. -/
def signatureOk (key : String) (event : Val) : Except PyErr Bool := do
  let signature ← event.get "signature"
  if signature = .none then return false
  compareDigest signature (← signEvent event key)

/-- The loop of `verify_ledger`: stops at the first event whose signature does not match. -/
def signaturesOk (key : String) : List Val → Except PyErr Bool
  | [] => .ok true
  | event :: rest => do if ← signatureOk key event then signaturesOk key rest else return false

/-- `verify_ledger`, on the documents of the log. -/
def verifyLedger (log : List Val) (key : String) : Except PyErr Bool := do
  if !(← verifyChain log) then return false
  signaturesOk key log

/-! ### The log of a ledger -/

/-- `event["signature"] = sign_event(event, key)`, for a logged event. -/
def Event.sign (key : String) (e : Event) : Except PyErr Event := do
  return { e with signature := some (.str (← signEvent e.toVal key)) }

/-- `sign_ledger`. -/
def Ledger.sign (key : String) (L : Ledger) : Except PyErr Unit × Ledger :=
  ((updateEach (Event.sign key) L.executionLog).1,
    { L with executionLog := (updateEach (Event.sign key) L.executionLog).2 })

end IplanRunner
