import IplanRunner.Orchestrator.Landing

/-!
Landing over an arbitrary ledger document (`land` in `orchestrator/loop.py`, `append_event` in
`ledger/store.py`).

* `Document.recordVcs`, `Document.appendEvent`, `Document.requireLanding`: what a landing writes; a
  statement that raises leaves what the ones before it have written.
* `Document.land`: on a clean tree only the gate is run.
* `Recording`: the ledger before and after a landing that recorded a commit; `Branched`: before and
  after one that could not.
* `recordCommit_ok`, `recordCommit_of_prepared`: which of the two it is.
-/

namespace IplanRunner

open Foundation

namespace Document

section Runtime

variable [PyRuntime]

/-! ### The statements of `land` -/

/-- The paths of the `file_edited` events, sorted. -/
def landedPaths (log : List Val) : Except PyErr (List Val) := do
  sortedSet (← collect (fun e => do
    if (← e.item "event_type").pyEq (.str "file_edited") then
      (← e.get "touched_paths" (.list [])).iter
    else return []) log)

/-- The `commit` event of a landing, `_event(scope, "commit", "LANDING", at, touched)`. -/
def landingEvent (scope : Val) (atTime : String) (touched : List Val) : Except PyErr Dict := do
  let clientId ← scope.get "client_id"
  let projectId ← scope.get "project_id"
  return [("event_type", .str "commit"), ("subject_id", .str "LANDING"), ("at", .str atTime),
    ("touched_paths", .list touched), ("client_id", clientId), ("project_id", projectId)]

/-- The commit a landing records. -/
def commitDict (sha message atTime : String) (touched : List Val) : Dict :=
  [("sha", .str sha), ("message", .str message), ("at", .str atTime),
    ("touched_paths", .list touched)]

/-- `vcs["branch"] = branch` and `vcs.setdefault("commits", []).append(...)`, on
`ledger.setdefault("vcs", {})`. -/
def recordVcs (branch : String) (commit doc : Dict) : Except PyErr Unit × Dict :=
  match (doc.lookup "vcs").getD (.dict []) with
  | .dict vcs =>
      let named := Dict.set vcs "branch" (.str branch)
      match (named.lookup "commits").getD (.list []) with
      | .list commits =>
          (.ok (), Dict.set doc "vcs"
            (.dict (Dict.set named "commits" (.list (commits ++ [.dict commit])))))
      | _ => (.error .attributeError, Dict.set doc "vcs" (.dict named))
  | _ => (.error .typeError, doc)

/-- `str(log[-1]["event_hash"]) if log else None`. -/
def previousHash (log : List Val) : Except PyErr (Option String) :=
  match log.getLast? with
  | some last => do return some (← last.item "event_hash").pyStr
  | none => .ok none

/-- `new_event` before its hash is set. -/
def numberedEvent (sequence : ℤ) (previous : Option String) (event : Dict) : Dict :=
  Dict.set (Dict.set event "sequence" (.int sequence)) "previous_event_hash" (optStr previous)

/-- The event `append_event` makes. -/
def chainedEvent (log : List Val) (event : Dict) : Except PyErr Dict := do
  let previous ← previousHash log
  let newEvent := numberedEvent (log.length + 1) previous event
  let eventType ← (Val.dict newEvent).item "event_type"
  let subjectId ← (Val.dict newEvent).item "subject_id"
  let atTime ← (Val.dict newEvent).item "at"
  return Dict.set newEvent "event_hash" (.str (computeEventHash (log.length + 1) previous
    eventType.pyStr subjectId.pyStr atTime.pyStr))

/-- `append_event`. -/
def appendEvent (event doc : Dict) : Except PyErr Unit × Dict :=
  match (doc.lookup "execution_log").getD (.list []) with
  | .list log =>
      match chainedEvent log event with
      | .ok e => (.ok (), Dict.set doc "execution_log" (.list (log ++ [.dict e])))
      | .error err => (.error err, Dict.set doc "execution_log" (.list log))
  | _ => (.error .attributeError, doc)

/-- `ledger["ledger_control"]["requires_landing"] = True`. -/
def requireLanding (doc : Dict) : Except PyErr Unit × Dict :=
  match doc.lookup "ledger_control" with
  | some (.dict control) =>
      (.ok (), Dict.set doc "ledger_control"
        (.dict (Dict.set control "requires_landing" (.bool true))))
  | some _ => (.error .typeError, doc)
  | none => (.error (.keyError "ledger_control"), doc)

/-! ### The function -/

variable {W : Type} (repo : Repo W) (clock : W → String × W)

/-- A `git` call, on the world. -/
def git {α : Type} (call : W → Except PyErr α × W) : Call PyErr (Dict × W) α := fun s =>
  ((call s.2).1, (s.1, (call s.2).2))

/-- A statement that changes the ledger. -/
def write (f : Dict → Except PyErr Unit × Dict) : Call PyErr (Dict × W) Unit := fun s =>
  ((f s.1).1, ((f s.1).2, s.2))

/-- `clock()`. -/
def now : Call PyErr (Dict × W) String := fun s => (.ok (clock s.2).1, (s.1, (clock s.2).2))

/-- `ledger[key]`. -/
def memberOf (key : String) : Call PyErr (Dict × W) Val := fun s => ((Val.dict s.1).item key, s)

/-- What `land` does with the commit `git` has made. -/
def recordCommit (branch message sha : String) : Call PyErr (Dict × W) Unit := do
  let atTime ← now clock
  let scope ← memberOf "isolation_scope"
  let log ← Call.ofExcept (← memberOf "execution_log").iter
  let touched ← Call.ofExcept (landedPaths log)
  write (recordVcs branch (commitDict sha message atTime touched))
  let event ← Call.ofExcept (landingEvent scope atTime touched)
  write (appendEvent event)
  write requireLanding

/-- The commit of `land`, when the tree has changed. -/
def commitChanges (branch message : String) : Call PyErr (Dict × W) Unit := do
  if ← git repo.hasChanges then
    let sha ← git (repo.commitAll branch message)
    recordCommit clock branch message sha

/-- `run_gate(ledger, gate or default_gate())`. -/
def judge (gate : Option Gate) : Call PyErr (Dict × W) GateResult := fun s =>
  (runGate (.dict s.1) (gate.getD defaultGate), s)

/-- `land`. -/
def land (branch message : String) (gate : Option Gate) : Call PyErr (Dict × W) GateResult := do
  commitChanges repo clock branch message
  judge gate

/-- What `git` says of a landing: the sha of the commit, nothing on a clean tree. -/
def committing (branch message : String) (w : W) : Except PyErr (Option String) := do
  if ← (repo.hasChanges w).1 then
    return some (← (repo.commitAll branch message (repo.hasChanges w).2).1)
  return none

/-! ### What a landing leaves -/

/-- A ledger before and after a landing that has recorded its commit. -/
structure Recording (doc doc' : Dict) (branch sha : String) where
  message : String
  atTime : String
  scope : Val
  log : List Val
  touched : List Val
  vcs : Dict
  commits : List Val
  control : Dict
  body : Dict
  event : Dict
  scope_eq : doc.lookup "isolation_scope" = some scope
  log_eq : doc.lookup "execution_log" = some (.list log)
  touched_eq : landedPaths log = .ok touched
  vcs_eq : (doc.lookup "vcs").getD (.dict []) = .dict vcs
  commits_eq : (vcs.lookup "commits").getD (.list []) = .list commits
  body_eq : landingEvent scope atTime touched = .ok body
  event_eq : chainedEvent log body = .ok event
  control_eq : doc.lookup "ledger_control" = some (.dict control)
  after : doc' = Dict.set (Dict.set (Dict.set doc "vcs"
      (.dict (Dict.set (Dict.set vcs "branch" (.str branch)) "commits"
        (.list (commits ++ [.dict (commitDict sha message atTime touched)])))))
      "execution_log" (.list (log ++ [.dict event])))
      "ledger_control" (.dict (Dict.set control "requires_landing" (.bool true)))

omit [PyRuntime] in
lemma memberOf_eq_ok {key : String} {s s' : Dict × W} {v : Val} :
    memberOf key s = (.ok v, s') ↔ s.1.lookup key = some v ∧ s' = s := by
  rw [memberOf, Val.item]
  cases s.1.lookup key <;> simp [eq_comm]

omit [PyRuntime] in
lemma write_ok {f : Dict → Except PyErr Unit × Dict} {s s' : Dict × W}
    (h : write f s = (.ok (), s')) : f s.1 = (.ok (), s'.1) ∧ s'.2 = s.2 := by
  obtain ⟨hok, hs⟩ := Prod.ext_iff.mp h
  obtain ⟨hdoc, hworld⟩ := Prod.ext_iff.mp hs
  exact ⟨Prod.ext_iff.mpr ⟨hok, hdoc⟩, hworld.symm⟩

omit [PyRuntime] in
lemma recordVcs_ok {branch : String} {commit doc doc' : Dict}
    (h : recordVcs branch commit doc = (.ok (), doc')) :
    ∃ vcs commits, (doc.lookup "vcs").getD (.dict []) = .dict vcs
      ∧ (vcs.lookup "commits").getD (.list []) = .list commits
      ∧ doc' = Dict.set doc "vcs" (.dict (Dict.set (Dict.set vcs "branch" (.str branch)) "commits"
        (.list (commits ++ [.dict commit])))) := by
  unfold recordVcs at h
  split at h
  · rename_i vcs hvcs
    dsimp only at h
    rw [Dict.lookup_set_of_ne vcs (by decide)] at h
    split at h
    · rename_i commits hcommits
      exact ⟨vcs, commits, hvcs, hcommits, (Prod.ext_iff.mp h).2.symm⟩
    · cases h
  · cases h

lemma appendEvent_ok {event doc doc' : Dict} (h : appendEvent event doc = (.ok (), doc')) :
    ∃ log e, (doc.lookup "execution_log").getD (.list []) = .list log
      ∧ chainedEvent log event = .ok e
      ∧ doc' = Dict.set doc "execution_log" (.list (log ++ [.dict e])) := by
  rw [appendEvent] at h
  split at h
  · rename_i log hlog
    split at h
    · rename_i e he
      exact ⟨log, e, hlog, he, (Prod.ext_iff.mp h).2.symm⟩
    · cases h
  · cases h

omit [PyRuntime] in
lemma requireLanding_ok {doc doc' : Dict} (h : requireLanding doc = (.ok (), doc')) :
    ∃ control, doc.lookup "ledger_control" = some (.dict control)
      ∧ doc' = Dict.set doc "ledger_control"
        (.dict (Dict.set control "requires_landing" (.bool true))) := by
  rw [requireLanding] at h
  split at h
  · rename_i control hcontrol
    exact ⟨control, hcontrol, (Prod.ext_iff.mp h).2.symm⟩
  · cases h
  · cases h

/-- A landing that returns after its commit has recorded it. -/
lemma recordCommit_ok {branch message sha : String} {doc : Dict} {w : W} {s' : Dict × W}
    (h : recordCommit clock branch message sha (doc, w) = (.ok (), s')) :
    Nonempty (Recording doc s'.1 branch sha) := by
  rw [recordCommit] at h
  obtain ⟨atTime, s₂, hnow, h⟩ := Call.bind_eq_ok.mp h
  obtain ⟨scope, s₃, hscope, h⟩ := Call.bind_eq_ok.mp h
  obtain ⟨raw, s₄, hraw, h⟩ := Call.bind_eq_ok.mp h
  obtain ⟨log, s₅, hlog, h⟩ := Call.bind_eq_ok.mp h
  obtain ⟨touched, s₆, htouched, h⟩ := Call.bind_eq_ok.mp h
  obtain ⟨⟨⟩, s₇, hvcs, h⟩ := Call.bind_eq_ok.mp h
  obtain ⟨body, s₈, hbody, h⟩ := Call.bind_eq_ok.mp h
  obtain ⟨⟨⟩, s₉, happend, hcontrol⟩ := Call.bind_eq_ok.mp h
  have hs₂ : s₂.1 = doc := (Prod.ext_iff.mp (Prod.ext_iff.mp hnow).2).1.symm
  obtain ⟨hscope, rfl⟩ := memberOf_eq_ok.mp hscope
  obtain ⟨hraw, rfl⟩ := memberOf_eq_ok.mp hraw
  rw [Call.ofExcept_apply, Prod.mk.injEq] at hlog htouched hbody
  obtain ⟨hlog, rfl⟩ := hlog
  obtain ⟨htouched, rfl⟩ := htouched
  obtain ⟨hbody, rfl⟩ := hbody
  obtain ⟨vcs, commits, hvcs, hcommits, hdoc⟩ := recordVcs_ok (write_ok hvcs).1
  obtain ⟨log', event, hlog', hevent, hdoc'⟩ := appendEvent_ok (write_ok happend).1
  obtain ⟨control, hcontrol, hdoc''⟩ := requireLanding_ok (write_ok hcontrol).1
  rw [hs₂] at hscope hraw hvcs hdoc
  rw [hdoc, Dict.lookup_set_of_ne doc (by decide), hraw, Option.getD_some] at hlog'
  subst hlog'
  obtain rfl : log' = log := Except.ok.inj hlog
  rw [hdoc', Dict.lookup_set_of_ne _ (by decide), hdoc,
    Dict.lookup_set_of_ne doc (by decide)] at hcontrol
  rw [hdoc', hdoc] at hdoc''
  exact ⟨_, _, scope, log', touched, vcs, commits, control, body, event, hscope, hraw,
    htouched, hvcs, hcommits, hbody, hevent, hcontrol, hdoc''⟩

/-- The `vcs` section of the template, or none: a dictionary whose commits are a list. -/
def VcsListed (doc : Dict) : Prop :=
  ∃ vcs commits, (doc.lookup "vcs").getD (.dict []) = .dict vcs
    ∧ (vcs.lookup "commits").getD (.list []) = .list commits

/-- A ledger before and after a landing that found no list to put its commit in: the branch is
named, and nothing else. -/
structure Branched (doc doc' : Dict) (branch : String) where
  vcs : Dict
  vcs_eq : (doc.lookup "vcs").getD (.dict []) = .dict vcs
  after : doc' = Dict.set doc "vcs" (.dict (Dict.set vcs "branch" (.str branch)))

/-- A ledger every statement of a landing but the one on `vcs` goes through on. -/
structure Prepared (doc : Dict) where
  scope : Val
  log : List Val
  touched : List Val
  control : Dict
  scope_eq : doc.lookup "isolation_scope" = some scope
  log_eq : doc.lookup "execution_log" = some (.list log)
  touched_eq : landedPaths log = .ok touched
  control_eq : doc.lookup "ledger_control" = some (.dict control)
  body : ∀ atTime, Returns (landingEvent scope atTime touched)
  event : ∀ atTime body, landingEvent scope atTime touched = .ok body →
    Returns (chainedEvent log body)

omit [PyRuntime] in
/-- `vcs` is written when it has the form of the template. -/
lemma recordVcs_cases (branch : String) (commit doc : Dict) :
    (∃ commits doc', recordVcs branch commit doc = (.ok (), doc')
      ∧ doc' = Dict.set doc "vcs" (.dict commits))
    ∨ ¬ VcsListed doc ∧ ∃ e doc', recordVcs branch commit doc = (.error e, doc')
      ∧ (doc' = doc ∨ Nonempty (Branched doc doc' branch)) := by
  unfold recordVcs VcsListed
  split
  · rename_i vcs hvcs
    dsimp only
    rw [Dict.lookup_set_of_ne vcs (by decide)]
    split
    · exact .inl ⟨_, _, rfl, rfl⟩
    · rename_i hcommits
      refine .inr ⟨?_, _, _, rfl, .inr ⟨vcs, hvcs, rfl⟩⟩
      rintro ⟨vcs', commits, hvcs', hlist⟩
      obtain rfl : vcs = vcs' := Val.dict.inj (hvcs.symm.trans hvcs')
      exact hcommits commits hlist
  · rename_i hvcs
    refine .inr ⟨?_, _, _, rfl, .inl rfl⟩
    rintro ⟨vcs, -, hdict, -⟩
    exact hvcs vcs hdict

/-- **A prepared ledger gets its commit recorded**, unless its `vcs` section is of another form. -/
theorem recordCommit_of_prepared {doc : Dict} (p : Prepared doc) (branch message sha : String)
    (w : W) :
    (∃ s', recordCommit clock branch message sha (doc, w) = (.ok (), s')
      ∧ Nonempty (Recording doc s'.1 branch sha))
    ∨ ¬ VcsListed doc ∧ ∃ e s', recordCommit clock branch message sha (doc, w) = (.error e, s')
      ∧ (s'.1 = doc ∨ Nonempty (Branched doc s'.1 branch)) := by
  obtain ⟨atTime, w', hnow⟩ : ∃ atTime w', now clock (doc, w) = (.ok atTime, (doc, w')) :=
    ⟨_, _, rfl⟩
  have hscope : memberOf "isolation_scope" (doc, w') = (.ok p.scope, (doc, w')) :=
    memberOf_eq_ok.mpr ⟨p.scope_eq, rfl⟩
  have hraw : memberOf "execution_log" (doc, w') = (.ok (.list p.log), (doc, w')) :=
    memberOf_eq_ok.mpr ⟨p.log_eq, rfl⟩
  obtain ⟨body, hbody⟩ := p.body atTime
  obtain ⟨event, hevent⟩ := p.event atTime body hbody
  -- what the statements before the one on `vcs` come to
  have hrun : recordCommit clock branch message sha (doc, w) =
      (do write (recordVcs branch (commitDict sha message atTime p.touched))
          let event ← Call.ofExcept (landingEvent p.scope atTime p.touched)
          write (appendEvent event)
          write requireLanding : Call PyErr (Dict × W) Unit) (doc, w') := by
    rw [recordCommit, Call.bind_ok hnow, Call.bind_ok hscope, Call.bind_ok hraw,
      Call.bind_ok (Call.ofExcept_apply (Val.list p.log).iter _), p.touched_eq,
      Call.bind_ok (Call.ofExcept_apply (.ok p.touched) _)]
  rcases recordVcs_cases branch (commitDict sha message atTime p.touched) doc with
    ⟨commits, doc', hvcs, hdoc⟩ | ⟨hform, e, doc', hvcs, hdoc⟩
  · left
    have hwrite : write (recordVcs branch (commitDict sha message atTime p.touched)) (doc, w')
        = (.ok (), (doc', w')) := by
      rw [write, hvcs]
    have happend : write (appendEvent body) (doc', w')
        = (.ok (), (Dict.set doc' "execution_log" (.list (p.log ++ [.dict event])), w')) := by
      rw [write, appendEvent, hdoc, Dict.lookup_set_of_ne doc (by decide), p.log_eq]
      dsimp only [Option.getD_some]
      rw [hevent]
    have hcontrol : ∃ s', write requireLanding
        (Dict.set doc' "execution_log" (.list (p.log ++ [.dict event])), w') = (.ok (), s') := by
      rw [write, requireLanding, Dict.lookup_set_of_ne _ (by decide), hdoc,
        Dict.lookup_set_of_ne doc (by decide), p.control_eq]
      exact ⟨_, rfl⟩
    obtain ⟨s', hcontrol⟩ := hcontrol
    have hok : recordCommit clock branch message sha (doc, w) = (.ok (), s') := by
      rw [hrun, Call.bind_ok hwrite, hbody, Call.bind_ok (Call.ofExcept_apply (.ok body) _),
        Call.bind_ok happend, hcontrol]
    exact ⟨s', hok, recordCommit_ok clock hok⟩
  · right
    have hwrite : write (recordVcs branch (commitDict sha message atTime p.touched)) (doc, w')
        = (.error e, (doc', w')) := by
      rw [write, hvcs]
    exact ⟨hform, e, (doc', w'), by rw [hrun, Call.bind_error hwrite], hdoc⟩

end Runtime

end Document

end IplanRunner
