import IplanRunner.Foundation.Python
import IplanRunner.Validation.Base

/-!
The validation of a task payload (`validation/payload_rules.py`).

* `executorIdMatches`, `cloneUrlOk`: the two patterns, read off by hand.
* `repositoryFindings`, `validatePayload`: the findings on a payload.  A section of another shape
  raises, as `.get` does.
-/

namespace IplanRunner

open Foundation

/-- `_REQUIRED_IDS`. -/
def requiredIds : List String := ["org_id", "project_id", "run_id", "step_id", "executor_id"]

/-- `[a-z2-7]`. -/
def executorIdChar (c : Char) : Bool := 'a' ≤ c && c ≤ 'z' || '2' ≤ c && c ≤ '7'

/-- `_EXECUTOR_ID.match(text)`: the `$` of the pattern also stands before a final line feed. -/
def executorIdMatches (text : String) : Bool :=
  let rest := text.toList.drop 5
  let tail := rest.dropWhile executorIdChar
  text.toList.take 5 == "exec:".toList && 16 ≤ (rest.takeWhile executorIdChar).length
    && (tail == [] || tail == ['\n'])

/-- `isinstance(executor_id, str) and _EXECUTOR_ID.match(executor_id)`. -/
def isExecutorId : Val → Bool
  | .str text => executorIdMatches text
  | _ => false

/-- `_REPOSITORY_FIELDS`. -/
def repositoryFields : List String := ["url", "default_branch", "base_ref"]

/-- `_SAFE_CLONE_SCHEMES`. -/
def safeCloneSchemes : List String := ["https", "ssh"]

/-- `[A-Za-z0-9+.\-]`. -/
def schemeChar (c : Char) : Bool := c.isAlphanum || c == '+' || c == '.' || c == '-'

/-- `_URL_SCHEME.match(url)`: the scheme, which is all up to the first colon, and what follows the
slashes. -/
def urlScheme (url : String) : Option (String × String) :=
  let scheme := url.toList.takeWhile schemeChar
  let tail := url.toList.dropWhile schemeChar
  if scheme.head?.any Char.isAlpha && ['/', '/'].isPrefixOf (tail.drop 1)
      && tail.head? == some ':' then
    some (String.ofList scheme, String.ofList (tail.drop 3))
  else none

/-- `_clone_url_ok`, where `exempt` are the schemes `IOPS_INSECURE_CLONE_SCHEMES` adds. -/
def cloneUrlOk (exempt : List String) (url : String) : Bool :=
  match urlScheme url with
  | none => false
  | some (text, rest) =>
      let scheme := text.toLower
      if scheme ∉ safeCloneSchemes ++ exempt then false
      else scheme ∉ safeCloneSchemes || (rest != "" && rest.toList.head? != some '/')

/-- `isinstance(v, str) and v`. -/
def isText : Val → Bool
  | .str s => s != ""
  | _ => false

/-- `v.startswith("-")`, of a text. -/
def leadingDash : Val → Bool
  | .str s => s.toList.head? == some '-'
  | _ => false

/-- `_clone_url_ok(v)`, of a text. -/
def cloneTextOk (exempt : List String) : Val → Bool
  | .str url => cloneUrlOk exempt url
  | _ => false

/-- What `validate_payload` finds on the repository of a context: only an object is looked at. -/
def repositoryFindings (exempt : List String) : Val → List Finding
  | .dict repository =>
      if !repositoryFields.all fun f => isText (Dict.get repository f) then
        [finding .remotePayloadRepositoryShape
          "context_package.repository object missing url/default_branch/base_ref"]
      else
        (if !cloneTextOk exempt (Dict.get repository "url") then
          [finding .remotePayloadRepositoryUrlScheme
            "context_package.repository.url scheme not in the clone allow-list (https/ssh)"]
        else [])
        ++ if ["base_ref", "default_branch"].any fun f => leadingDash (Dict.get repository f) then
          [finding .remotePayloadRepositoryRef
            "context_package.repository base_ref/default_branch must not start with '-'"]
        else []
  | _ => []

/-- `validate_payload`. -/
def validatePayload (exempt : List String) (payload : Dict) : Except PyErr (List Finding) := do
  let ids := if requiredIds.any fun k => !(payload.get k).truthy then
    [finding .remotePayloadIdsMissing "task payload missing a required identity field"] else []
  let executorId := payload.get "executor_id"
  let format := if executorId.truthy && !isExecutorId executorId then
    [finding .remotePayloadExecutorIdFormat "executor_id is not the canonical exec: hash form"]
    else []
  let workOrder := (payload.get "work_order").orElse (.dict [])
  let todos := (← workOrder.get "todos").orElse (.list [])
  let noTodos := if !todos.truthy then
    [finding .remotePayloadNoTodos "task payload work_order has no todos"] else []
  let context := payload.get "context_package"
  let contextFindings :=
    if !context.truthy then
      [finding .remotePayloadContextMissing "task payload missing context_package"]
    else
      match context with
      | .dict kvs => repositoryFindings exempt (Dict.get kvs "repository")
      | _ => []
  return ids ++ format ++ noTodos ++ contextFindings

end IplanRunner
