import IplanRunner.Runs.AppendOnly
import IplanRunner.Runs.Contained

/-!
Which plan a resume goes on with.

* `BoundTo`: the manifest is accepted, and it is the one the ledger was made of.
* `Idles`: the loop leaves the ledger alone; `driveLoop_idles` and `idles_of_driveLoop` say when.
* `Balks`: a resume that raises without having changed anything.
* `keepsToPlan_iff`: a resume keeps to the plan of its ledger exactly when it is bound to it, or
  balks.
-/

namespace IplanRunner

open Foundation

section Runtime

variable [PyRuntime]

/-! ### The plan of a ledger -/

/-- The manifest passes validation, and its id, version and checksum are those of the ledger. -/
structure BoundTo (L : Ledger) (manifest : Manifest) : Prop where
  accepted : manifest.Accepted
  source : manifest.control.sourceIplan.pyEq L.control.sourceIplan = true
  version : manifest.control.sourceIplanVersion.pyEq L.control.sourceIplanVersion = true
  checksum : manifest.control.sourceIplanChecksum.pyEq L.control.sourceIplanChecksum = true

variable {W : Type} (h : Host W) (cfg : RunConfig)

/-- A resume executes a task only for a manifest the ledger is bound to; otherwise it raises, and
not for want of a task, with the ledger as it was. -/
structure KeepsToPlan (manifest : Manifest) (w : W) (L : Ledger) : Prop where
  executes : (∃ t, Effect.execute t ∈ (resume h cfg manifest ⟨L, w, []⟩).2.effects) →
    BoundTo L manifest
  refuses : ¬ BoundTo L manifest →
    (∃ e, (resume h cfg manifest ⟨L, w, []⟩).1 = .error e
      ∧ ∀ t ∈ nodeIds manifest.taskGraph, e = .keyError t → (L.task? t).isSome)
    ∧ (resume h cfg manifest ⟨L, w, []⟩).2.ledger = L

/-! ### A loop without effect -/

/-- The loop goes past completed and committed tasks only, to its end or to a checkpoint that stops
it; named last is the state it ends in. -/
inductive Idles (graph : List TaskNode) (L : Ledger) :
    List String → List String → W → RunState → Prop
  | finished {completed : List String} {w : W} : Idles graph L [] completed w .completed
  | skip {taskId : String} {rest completed : List String} {w : W} {state : RunState} :
      L.Done taskId → Idles graph L rest (taskId :: completed) w state →
      Idles graph L (taskId :: rest) completed w state
  | paused {taskId : String} {rest completed : List String} {w : W} :
      (L.task? taskId).isSome → ¬ L.Done taskId → (h.control w).1 = .paused →
      Idles graph L (taskId :: rest) completed w .paused
  | aborted {taskId : String} {rest completed : List String} {w : W} :
      (L.task? taskId).isSome → ¬ L.Done taskId → (h.control w).1 = .aborted →
      Idles graph L (taskId :: rest) completed w .aborted
  | committed {taskId : String} {rest completed : List String} {w : W} {state : RunState}
      {node : TaskNode} :
      (L.task? taskId).isSome → ¬ L.Done taskId → (h.control w).1 = .running →
      lastNode graph taskId = some node → DepsMet node completed →
      alreadyCommitted L (executeKey taskId) = true →
      Idles graph L rest completed (h.control w).2 state →
      Idles graph L (taskId :: rest) completed w state

variable {h cfg} {graph : List TaskNode}

/-- A committed task is left alone. -/
lemma turn_committed {node : TaskNode} {taskId : String} {completed : List String} {s : Session W}
    (hnode : lastNode graph taskId = some node) (hsome : (s.ledger.task? taskId).isSome)
    (hnot : ¬ s.ledger.Done taskId) (hmet : DepsMet node completed)
    (hcommitted : alreadyCommitted s.ledger (executeKey taskId) = true) :
    turn h cfg node taskId completed s = (.ok completed, s) := by
  have hid := lastNode_pyStr hnode
  have hif : (node.dependsOn.all fun d => decide (d.pyStr ∈ completed)) = true := by
    simpa [DepsMet] using hmet
  obtain ⟨e, he⟩ := Option.isSome_iff_exists.mp hsome
  have hrun : runTask h cfg node s = (.ok (), s) := by
    rw [runTask, hid, Loop.bind_ledger, if_pos hcommitted]
    rfl
  rw [turn, if_pos hif, Call.bind_ok hrun, Call.bind_ok (taskStatus_apply he),
    if_neg fun hst => hnot ⟨e, he, hst⟩]
  rfl

/-- Any other turn logs an event. -/
lemma turn_logs {node : TaskNode} {taskId : String} {completed : List String} {L : Ledger}
    {r : Except PyErr Unit} {δ : Delta} {fx : List Effect}
    (hturn : Turn h cfg node taskId completed L r δ fx)
    (hidle : ¬ (DepsMet node completed ∧ alreadyCommitted L (executeKey taskId) = true)) :
    δ.events ≠ [] := by
  cases hturn with
  | unmet _ => simp [blockDelta]
  | ran hmet hrun =>
      cases hrun with
      | committed hc => exact absurd ⟨hmet, hc⟩ hidle
      | conflict _ _ => simp [blockDelta]
      | crashed _ _ _ _ => simp [crashDelta]
      | succeeded => simp [successDelta]
      | failed _ _ _ _ _ => simp [failureDelta]

/-- **An idle loop** ends in its state, and changes neither the ledger nor anything outside. -/
lemma driveLoop_idles {order completed : List String} {L : Ledger} {w : W} {state : RunState}
    (hidles : Idles h graph L order completed w state) (fx : List Effect) :
    ∃ w', driveLoop h cfg graph order completed ⟨L, w, fx⟩ = (.ok state, ⟨L, w', fx⟩) := by
  induction hidles with
  | finished => exact ⟨_, rfl⟩
  | skip hdone _ ih =>
      rw [driveLoop_done hdone]
      exact ih
  | paused hsome hnot hctl => exact ⟨_, driveLoop_paused hsome hnot hctl⟩
  | aborted hsome hnot hctl => exact ⟨_, driveLoop_aborted hsome hnot hctl⟩
  | committed hsome hnot hctl hnode hmet hcommitted _ ih =>
      rw [driveLoop_turn hsome hnot hctl hnode,
        Call.bind_ok (turn_committed hnode hsome hnot hmet hcommitted)]
      exact ih

/-- The loop appends to the log. -/
lemma driveLoop_appends (order completed : List String) (s : Session W) :
    Appends s.ledger.executionLog
      (driveLoop h cfg graph order completed s).2.ledger.executionLog := by
  obtain ⟨r, L', fx, w, hrun, hexec⟩ := driveLoop_spec h cfg graph order completed s
  rw [hexec]
  exact hrun.appends

/-- **A loop that logs nothing** idles, or raises at a task the ledger does not know. -/
lemma idles_of_driveLoop {order completed : List String} {s s' : Session W}
    {r : Except PyErr RunState} (hexec : driveLoop h cfg graph order completed s = (r, s'))
    (hlog : ¬ s.ledger.executionLog.length < s'.ledger.executionLog.length)
    (horder : ∀ t ∈ order, t ∈ nodeIds graph) :
    (∀ state, r = .ok state → Idles h graph s.ledger order completed s.world state)
      ∧ ∀ e, r = .error e → ∃ t ∈ order, e = .keyError t ∧ s.ledger.task? t = none := by
  induction order generalizing completed s with
  | nil =>
      rw [driveLoop] at hexec
      obtain rfl := (Prod.mk.inj hexec).1
      exact ⟨fun state hstate => (by cases hstate; exact .finished), fun e he => (by cases he)⟩
  | cons taskId rest ih =>
      have hrest : ∀ t ∈ rest, t ∈ nodeIds graph := fun t ht => horder t (List.mem_cons_of_mem _ ht)
      by_cases hdone : s.ledger.Done taskId
      · rw [driveLoop_done hdone] at hexec
        obtain ⟨hok, herror⟩ := ih hexec hlog hrest
        refine ⟨fun state hstate => .skip hdone (hok state hstate), fun e he => ?_⟩
        obtain ⟨t, ht, hkey⟩ := herror e he
        exact ⟨t, List.mem_cons_of_mem _ ht, hkey⟩
      · cases hentry : s.ledger.task? taskId with
        | none =>
            rw [driveLoop_unknown hentry] at hexec
            obtain rfl := (Prod.mk.inj hexec).1
            refine ⟨fun state hstate => (by cases hstate), fun e he => ?_⟩
            cases he
            exact ⟨taskId, List.mem_cons_self, rfl, hentry⟩
        | some entry =>
            have hsome : (s.ledger.task? taskId).isSome := by rw [hentry]; rfl
            cases hctl : (h.control s.world).1 with
            | paused =>
                rw [driveLoop_paused hsome hdone hctl] at hexec
                obtain rfl := (Prod.mk.inj hexec).1
                exact ⟨fun state hstate => (by cases hstate; exact .paused hsome hdone hctl),
                  fun e he => (by cases he)⟩
            | aborted =>
                rw [driveLoop_aborted hsome hdone hctl] at hexec
                obtain rfl := (Prod.mk.inj hexec).1
                exact ⟨fun state hstate => (by cases hstate; exact .aborted hsome hdone hctl),
                  fun e he => (by cases he)⟩
            | running =>
                obtain ⟨node, hnode⟩ := Option.isSome_iff_exists.mp
                  ((lastNode_isSome graph taskId).mpr (horder taskId List.mem_cons_self))
                rw [driveLoop_turn hsome hdone hctl hnode] at hexec
                by_cases hidle : DepsMet node completed
                    ∧ alreadyCommitted s.ledger (executeKey taskId) = true
                · have hturn : turn h cfg node taskId completed
                      { s with world := (h.control s.world).2 }
                        = (.ok completed, { s with world := (h.control s.world).2 }) :=
                    turn_committed hnode hsome hdone hidle.1 hidle.2
                  rw [Call.bind_ok hturn] at hexec
                  obtain ⟨hok, herror⟩ := ih hexec hlog hrest
                  refine ⟨fun state hstate => .committed hsome hdone hctl hnode hidle.1 hidle.2
                    (hok state hstate), fun e he => ?_⟩
                  obtain ⟨t, ht, hkey⟩ := herror e he
                  exact ⟨t, List.mem_cons_of_mem _ ht, hkey⟩
                · -- the turn logs an event, and what follows takes none away
                  refine absurd ?_ hlog
                  obtain ⟨r₁, δ, fx, w, hturn, hexec₁⟩ := turn_spec h cfg node taskId completed
                    { s with world := (h.control s.world).2 } (lastNode_pyStr hnode) hsome
                  have hgrown : s.ledger.executionLog.length
                      < (s.ledger.apply taskId δ).executionLog.length := by
                    have hbodies := congrArg List.length (bodies_apply s.ledger taskId δ)
                    rw [Ledger.bodies, Ledger.bodies, List.length_append, List.length_map,
                      List.length_map] at hbodies
                    have hpos := List.length_pos_iff.mpr (turn_logs hturn hidle)
                    omega
                  cases r₁ with
                  | error e =>
                      rw [Call.bind_error hexec₁] at hexec
                      rw [← (Prod.mk.inj hexec).2]
                      exact hgrown
                  | ok u =>
                      rw [Call.bind_ok hexec₁] at hexec
                      have hafter := @driveLoop_appends _ _ h cfg graph rest
                        (addDone (s.ledger.apply taskId δ) taskId completed)
                        ⟨s.ledger.apply taskId δ, w, s.effects ++ fx⟩
                      rw [hexec] at hafter
                      obtain ⟨fresh, hfresh, -⟩ := hafter.unsigned
                      rw [hfresh, List.length_append]
                      exact Nat.lt_add_right _ hgrown

/-! ### A resume without effect -/

variable {manifest : Manifest} {w : W} {L : Ledger}

/-- A resume of a graph that cannot be ordered. -/
lemma resume_unordered {e : PyErr} (horder : topoOrder manifest.taskGraph = .error e) :
    resume h cfg manifest ⟨L, w, []⟩ = (.error e, ⟨L.setRunState .running, w, []⟩) := by
  have hresume : resume h cfg manifest ⟨L, w, []⟩
      = drive h cfg manifest (completedIds L) ⟨L.setRunState .running, w, []⟩ := rfl
  have hofe : (Call.ofExcept (.error e) : Loop W (List String)) ⟨L.setRunState .running, w, []⟩
      = (.error e, ⟨L.setRunState .running, w, []⟩) := rfl
  rw [hresume, drive, horder, Call.bind_error hofe]

/-- A resume is its loop, on the ledger set to running; an ended loop is followed by the gate. -/
lemma resume_ordered {order : List String} (horder : topoOrder manifest.taskGraph = .ok order)
    {r : Except PyErr RunState} {s' : Session W}
    (hloop : driveLoop h cfg manifest.taskGraph order (completedIds L)
      ⟨L.setRunState .running, w, []⟩ = (r, s')) :
    (∀ e, r = .error e → resume h cfg manifest ⟨L, w, []⟩ = (.error e, s'))
      ∧ ∀ state, r = .ok state → resume h cfg manifest ⟨L, w, []⟩
        = ((runGate (reconcile (s'.ledger.setRunState state)).toDoc cfg.gate).map
            (⟨reconcile (s'.ledger.setRunState state), ·⟩),
          { s' with ledger := reconcile (s'.ledger.setRunState state) }) := by
  have hresume : resume h cfg manifest ⟨L, w, []⟩
      = drive h cfg manifest (completedIds L) ⟨L.setRunState .running, w, []⟩ := rfl
  have hofe : (Call.ofExcept (.ok order) : Loop W (List String)) ⟨L.setRunState .running, w, []⟩
      = (.ok order, ⟨L.setRunState .running, w, []⟩) := rfl
  rw [hresume, drive, horder, Call.bind_ok hofe]
  refine ⟨fun e he => ?_, fun state hstate => ?_⟩
  · rw [he] at hloop
    rw [Call.bind_error hloop]
  · rw [hstate] at hloop
    rw [Call.bind_ok hloop]
    cases hg : runGate (reconcile (s'.ledger.setRunState state)).toDoc cfg.gate <;>
      simp [Call.bind_apply, Loop.update, Loop.ledger, hg, Except.map]

variable (h cfg) in
/-- A resume that raises without having changed the ledger: at a graph that cannot be ordered, the
ledger being in the state of a running one, or in the gate, behind a loop that idles, the ledger
being in the state it ends in and reconciled. -/
inductive Balks (manifest : Manifest) (w : W) (L : Ledger) : Prop where
  | unordered {e : PyErr} :
      topoOrder manifest.taskGraph = .error e → L.control.runState = .running → Balks manifest w L
  | gated {order : List String} {e : PyErr} :
      topoOrder manifest.taskGraph = .ok order →
      Idles h manifest.taskGraph (L.setRunState .running) order (completedIds L) w
        L.control.runState →
      reconcile L = L → runGate L.toDoc cfg.gate = .error e →
      (∀ t ∈ nodeIds manifest.taskGraph, e = .keyError t → (L.task? t).isSome) →
      Balks manifest w L

omit [PyRuntime] in
lemma Ledger.setRunState_self (L : Ledger) : L.setRunState L.control.runState = L := rfl

/-- A resume that balks raises, and calls no executor. -/
lemma Balks.resume (hbalks : Balks h cfg manifest w L) :
    (∃ e, (resume h cfg manifest ⟨L, w, []⟩).1 = .error e
      ∧ ∀ t ∈ nodeIds manifest.taskGraph, e = .keyError t → (L.task? t).isSome)
    ∧ (resume h cfg manifest ⟨L, w, []⟩).2.ledger = L
    ∧ (resume h cfg manifest ⟨L, w, []⟩).2.effects = [] := by
  cases hbalks with
  | @unordered e horder hstate =>
      rw [resume_unordered horder]
      have htype : e = .typeError := by
        rw [topoOrder] at horder
        split at horder
        · cases horder
        · exact (Except.error.inj horder).symm
      refine ⟨⟨e, rfl, fun t _ he => ?_⟩, ?_, rfl⟩
      · rw [htype] at he
        cases he
      · rw [← hstate]
        exact L.setRunState_self
  | @gated order e horder hidles hrec hgate hknown =>
      obtain ⟨w', hloop⟩ := @driveLoop_idles _ _ _ cfg _ _ _ _ _ _ hidles []
      have hend := (resume_ordered horder hloop).2 _ rfl
      have hsame : reconcile ((L.setRunState .running).setRunState L.control.runState) = L := hrec
      rw [hsame, hgate] at hend
      rw [hend]
      exact ⟨⟨e, rfl, hknown⟩, rfl, rfl⟩

/-- **A resume that raises without having changed the ledger**, and not for want of a task,
balks. -/
lemma balks_of_resume {e : PyErr} (hraised : (resume h cfg manifest ⟨L, w, []⟩).1 = .error e)
    (hknown : ∀ t ∈ nodeIds manifest.taskGraph, e = .keyError t → (L.task? t).isSome)
    (hsame : (resume h cfg manifest ⟨L, w, []⟩).2.ledger = L) : Balks h cfg manifest w L := by
  cases horder : topoOrder manifest.taskGraph with
  | error e' =>
      rw [resume_unordered horder] at hsame
      exact .unordered horder (congrArg (·.control.runState) hsame).symm
  | ok order =>
      obtain ⟨r, s', hloop⟩ : ∃ r s', driveLoop h cfg manifest.taskGraph order (completedIds L)
          ⟨L.setRunState .running, w, []⟩ = (r, s') := ⟨_, _, rfl⟩
      obtain ⟨herror, hended⟩ := resume_ordered horder hloop
      have hids : ∀ t ∈ order, t ∈ nodeIds manifest.taskGraph := fun t ht =>
        (topoOrder_perm horder).mem_iff.mp ht
      have hlog : s'.ledger.executionLog = L.executionLog := by
        cases r with
        | error e' =>
            rw [herror e' rfl] at hsame
            exact congrArg (·.executionLog) hsame
        | ok state =>
            rw [hended state rfl] at hsame
            exact congrArg (·.executionLog) hsame
      obtain ⟨hidles, hmissing⟩ := idles_of_driveLoop hloop
        (by rw [hlog]; exact lt_irrefl _) hids
      cases r with
      | error e' =>
          -- the loop raised: at a task of the graph the ledger does not know
          obtain ⟨t, ht, hkey, hnone⟩ := hmissing e' rfl
          rw [herror e' rfl] at hraised
          have hsome := hknown t (hids t ht) ((Except.error.inj hraised).symm.trans hkey)
          have hnone : L.task? t = none := hnone
          rw [hnone] at hsome
          cases hsome
      | ok state =>
          have hloopIdles := hidles state rfl
          obtain ⟨w', hidle⟩ := @driveLoop_idles _ _ _ cfg _ _ _ _ _ _ hloopIdles []
          have hs' : s' = ⟨L.setRunState .running, w', []⟩ :=
            (Prod.mk.inj (hloop.symm.trans hidle)).2
          rw [hended state rfl, hs'] at hraised hsame
          have hrec : reconcile (L.setRunState state) = L := hsame
          have hstate : L.control.runState = state := by
            rw [← hrec, reconcile_runState]
            rfl
          subst hstate
          rw [L.setRunState_self] at hrec
          have hgate : runGate L.toDoc cfg.gate = .error e := by
            have hmapped : (runGate (reconcile L).toDoc cfg.gate).map (⟨reconcile L, ·⟩)
              = (Except.error e : Except PyErr RunResult) := hraised
            rw [hrec] at hmapped
            cases hg : runGate L.toDoc cfg.gate with
            | error e' =>
                rw [hg] at hmapped
                rw [Except.error.inj hmapped]
            | ok g =>
                rw [hg] at hmapped
                cases hmapped
          exact .gated horder hloopIdles hrec hgate hknown

/-- **A resume keeps to the plan of its ledger** exactly when it is given a manifest that passes
validation and is the one the ledger was made of, or when it balks: nothing it does looks at the
manifest's control data. -/
theorem keepsToPlan_iff {W : Type} (h : Host W) (cfg : RunConfig) (manifest : Manifest) (w : W)
    (L : Ledger) :
    KeepsToPlan h cfg manifest w L ↔ BoundTo L manifest ∨ Balks h cfg manifest w L := by
  constructor
  · rintro ⟨-, hrefuses⟩
    by_cases hbound : BoundTo L manifest
    · exact .inl hbound
    · obtain ⟨⟨e, hraised, hknown⟩, hsame⟩ := hrefuses hbound
      exact .inr (balks_of_resume hraised hknown hsame)
  · rintro (hbound | hbalks)
    · exact ⟨fun _ => hbound, fun hnot => absurd hbound hnot⟩
    · obtain ⟨hraised, hsame, heffects⟩ := hbalks.resume
      refine ⟨fun ⟨t, ht⟩ => ?_, fun _ => ⟨hraised, hsame⟩⟩
      rw [heffects] at ht
      cases ht

end Runtime

section Example

attribute [local instance] cpython

/-- The tasks `T1` and `T2`, in version `1.0.0` of their plan. -/
private def firstVersion : Manifest := scriptManifest [("T1", []), ("T2", [])]

/-- The same tasks in version `2.0.0`. -/
private def secondVersion : Manifest :=
  { firstVersion with
    control := { firstVersion.control with sourceIplanVersion := .str "2.0.0" } }

/-- The ledger of a run of the first version that is paused behind `T1`. -/
private def pausedBehind : Option Ledger :=
  playRun (fun _ _ => true) firstVersion [] [.running, .paused] []

/-- **A resume with another plan**: a run of version `1.0.0` is paused behind `T1`, and a resume
with version `2.0.0` runs `T2`. -/
theorem resumed_otherwise :
    ∃ (L : Ledger), Reached (fun _ => True) (fun _ _ => True) L
      ∧ L.control.runState = .paused ∧ L.control.sourceIplanVersion = .str "1.0.0"
      ∧ (resume (mockHost [] scriptNow) scriptConfig secondVersion
          ⟨L, .fresh [], []⟩).2.effects = [.execute "T2"]
      ∧ ¬ KeepsToPlan (mockHost [] scriptNow) scriptConfig secondVersion (.fresh []) L := by
  obtain ⟨L, hL, hchecks⟩ : ∃ L, pausedBehind = some L ∧ decide (L.control.runState = .paused
      ∧ L.control.sourceIplanVersion = .str "1.0.0"
      ∧ (driveSession (mockHost [] scriptNow) scriptConfig secondVersion (completedIds L)
        ⟨L.setRunState .running, .fresh [], []⟩).2.effects = [.execute "T2"]
      ∧ secondVersion.control.sourceIplanVersion.pyEq L.control.sourceIplanVersion = false)
      = true := by
    refine (Option.any_eq_true _ _).mp ?_
    decide +kernel
  obtain ⟨hstate, hversion, heffects, hother⟩ := of_decide_eq_true hchecks
  have hreached : Reached (fun _ => True) (fun _ _ => True) L :=
    (@playRun_reached _ (fun _ => True) _ _ trivial (scriptManifest_roots _) _ _ _ _ hL).mono
      (fun _ h => h) fun _ _ _ => trivial
  have heffects : (resume (mockHost [] scriptNow) scriptConfig secondVersion
      ⟨L, .fresh [], []⟩).2.effects = [.execute "T2"] := by
    rw [resume_snd]
    exact heffects
  refine ⟨L, hreached, hstate, hversion, heffects, fun ⟨hexecutes, _⟩ => ?_⟩
  have hbound := hexecutes ⟨"T2", by rw [heffects]; exact List.mem_singleton_self _⟩
  rw [hbound.version] at hother
  cases hother

end Example

end IplanRunner
