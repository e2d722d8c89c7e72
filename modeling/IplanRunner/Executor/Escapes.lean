import IplanRunner.Executor.Api
import IplanRunner.Executor.HostRuntime

/-!
When an executor raises instead of reporting a failure.

* `ActionEscapes`, `CheckEscapes`: an action or a check that cannot be read, or whose effector
  raises what is not caught.
* `SpecEscapes`, `ScriptedEscapes`, `ApiEscapes`: the loop comes to one, or what goes before it
  raises.
* `scriptedExecute_raises_iff`, `apiExecute_raises_iff`: these are all the ways.
-/

namespace IplanRunner

open Foundation

variable [PyRuntime] {W : Type} (eff : Effectors W) (roots : List Val)

/-! ### Actions -/

/-- An action that makes the loop raise in a world. -/
inductive ActionEscapes (action : Val) (w : W) : Prop
  | untyped {e : PyErr} : action.item "type" = .error e → ActionEscapes action w
  | noPath {e : PyErr} : action.item "type" = .ok (.str "write") →
      action.item "path" = .error e → ActionEscapes action w
  | write {path content : Val} {e : PyErr} : action.item "type" = .ok (.str "write") →
      action.item "path" = .ok path → action.get "content" (.str "") = .ok content →
      (eff.applyWrite path content roots w).1 = .error e → (∀ m, e ≠ .permissionError m) →
      ActionEscapes action w
  | noCmd {e : PyErr} : action.item "type" = .ok (.str "command") →
      action.item "cmd" = .error e → ActionEscapes action w
  | command {cmd : Val} {e : PyErr} : action.item "type" = .ok (.str "command") →
      action.item "cmd" = .ok cmd → (eff.runCommand cmd w).1 = .error e →
      (∀ m, e ≠ .permissionError m) → ActionEscapes action w

omit [PyRuntime] in
/-- What `d[key]` raises. -/
lemma item_error {v : Val} {key : String} {e : PyErr} (h : v.item key = .error e) (m : String) :
    e ≠ .permissionError m := by
  cases v with
  | dict kvs =>
      rw [Val.item] at h
      split at h
      · cases h
      · cases h
        simp
  | _ =>
      cases h
      simp

omit [PyRuntime] in
/-- What has members can be asked for one it may not have. -/
lemma get_of_item {v w : Val} {key : String} (h : v.item key = .ok w) (other : String)
    (default : Val) : ∃ u, v.get other default = .ok u := by
  cases v with
  | dict kvs => exact ⟨_, rfl⟩
  | _ => cases h

/-- A `PermissionError` is caught, nothing else is. -/
lemma attemptAction_raises {action : Val} {w : W} :
    (attemptAction eff roots action).Raises w
      ↔ ∃ e, (performAction eff roots action w).1 = .error e ∧ ∀ m, e ≠ .permissionError m := by
  rw [Call.Raises, attemptAction]
  rcases performAction eff roots action w with ⟨e | p, w'⟩
  · cases e <;> simp
  · simp

/-- **An action raises exactly when it escapes.** -/
theorem attemptAction_raises_iff {action : Val} {w : W} :
    (attemptAction eff roots action).Raises w ↔ ActionEscapes eff roots action w := by
  rw [attemptAction_raises]
  constructor
  · rintro ⟨e, he, hdenied⟩
    rw [performAction] at he
    cases hkind : action.item "type" with
    | error e => exact .untyped hkind
    | ok kind =>
        rw [hkind, Call.bind_ok (Call.ofExcept_apply _ _)] at he
        split at he
        · rename_i hwrite
          rw [Val.pyEq_str_iff] at hwrite
          rw [hwrite] at hkind
          cases hpath : action.item "path" with
          | error e => exact .noPath hkind hpath
          | ok path =>
              obtain ⟨content, hcontent⟩ := get_of_item hkind "content" (.str "")
              rw [hpath, hcontent, Call.bind_ok (Call.ofExcept_apply _ _),
                Call.bind_ok (Call.ofExcept_apply _ _)] at he
              rcases hw : eff.applyWrite path content roots w with ⟨e' | p, w'⟩
              · rw [Call.bind_error hw] at he
                cases he
                exact .write hkind hpath hcontent (by rw [hw]) hdenied
              · rw [Call.bind_ok hw] at he
                cases he
        · split at he
          · rename_i hcommand
            rw [Val.pyEq_str_iff] at hcommand
            rw [hcommand] at hkind
            cases hcmd : action.item "cmd" with
            | error e => exact .noCmd hkind hcmd
            | ok cmd =>
                rw [hcmd, Call.bind_ok (Call.ofExcept_apply _ _)] at he
                rcases hr : eff.runCommand cmd w with ⟨e' | outcome, w'⟩
                · rw [Call.bind_error hr] at he
                  cases he
                  exact .command hkind hcmd (by rw [hr]) hdenied
                · rw [Call.bind_ok hr] at he
                  split at he <;> cases he
          · cases he
  · have hraised : ∀ {α : Type} {x : Except PyErr α} {e : PyErr} (f : α → Call PyErr W Performed),
        x = .error e → ((Call.ofExcept x >>= f) w).1 = .error e := by
      rintro α x e f rfl
      rfl
    have hcommand : ¬ (Val.str "command").pyEq (.str "write") = true := by
      rw [Val.pyEq_str_iff]
      simp
    intro h
    cases h with
    | untyped hkind => exact ⟨_, hraised _ hkind, item_error hkind⟩
    | noPath hkind hpath =>
        refine ⟨_, ?_, item_error hpath⟩
        rw [performAction, hkind, Call.bind_ok (Call.ofExcept_apply _ _), if_pos (Val.pyEq_refl _)]
        exact hraised _ hpath
    | @write path content e hkind hpath hcontent hw hdenied =>
        refine ⟨e, ?_, hdenied⟩
        rw [performAction, hkind, Call.bind_ok (Call.ofExcept_apply _ _), if_pos (Val.pyEq_refl _),
          hpath, hcontent, Call.bind_ok (Call.ofExcept_apply _ _),
          Call.bind_ok (Call.ofExcept_apply _ _), Call.bind_error (Prod.ext hw rfl)]
    | noCmd hkind hcmd =>
        refine ⟨_, ?_, item_error hcmd⟩
        rw [performAction, hkind, Call.bind_ok (Call.ofExcept_apply _ _), if_neg hcommand,
          if_pos (Val.pyEq_refl _)]
        exact hraised _ hcmd
    | @command cmd e hkind hcmd hr hdenied =>
        refine ⟨e, ?_, hdenied⟩
        rw [performAction, hkind, Call.bind_ok (Call.ofExcept_apply _ _), if_neg hcommand,
          if_pos (Val.pyEq_refl _), hcmd, Call.bind_ok (Call.ofExcept_apply _ _),
          Call.bind_error (Prod.ext hr rfl)]

/-! ### Checks -/

/-- A check that makes `run_checks` raise in a world; here nothing is caught. -/
inductive CheckEscapes (check : Val) (w : W) : Prop
  | noCommand {e : PyErr} : check.item "command" = .error e → CheckEscapes check w
  | command {cmd : Val} {e : PyErr} : check.item "command" = .ok cmd →
      (eff.runCommand cmd w).1 = .error e → CheckEscapes check w

/-- The checks the loop comes to, each with the world it meets. -/
def reachedChecks (secrets : List String) (checks : List Val) (w : W) : List (Val × W) :=
  Call.visits (runCheck eff.runCommand secrets) (fun _ => false) checks w

omit [PyRuntime] in
lemma runCheck_raises_iff (secrets : List String) {check : Val} {w : W} :
    (runCheck eff.runCommand secrets check).Raises w ↔ CheckEscapes eff check w := by
  rw [runCheck, Call.raises_bind_iff]
  cases hcmd : check.item "command" with
  | error e =>
      refine ⟨fun _ => .noCommand hcmd, fun _ => Or.inl ⟨e, rfl⟩⟩
  | ok cmd =>
      obtain ⟨name, hname⟩ := get_of_item hcmd "name" .none
      constructor
      · rintro (⟨e, he⟩ | ⟨cmd', w', hok, h⟩)
        · cases he
        · cases hok
          obtain ⟨e, he⟩ | ⟨outcome, w', -, h⟩ := Call.raises_bind_iff.mp h
          · exact .command hcmd he
          · rw [hname] at h
            obtain ⟨e, he⟩ := h
            cases he
      · intro h
        refine Or.inr ⟨cmd, w, rfl, Call.raises_bind_iff.mpr (Or.inl ?_)⟩
        cases h with
        | noCommand h =>
            rw [hcmd] at h
            cases h
        | command h he =>
            rw [hcmd] at h
            cases h
            exact ⟨_, he⟩

omit [PyRuntime] in
lemma runCheckList_raises_iff (secrets : List String) {checks : List Val} {report : CheckReport}
    {w : W} : (runCheckList eff.runCommand secrets checks report).Raises w
      ↔ ∃ v ∈ reachedChecks eff secrets checks w, CheckEscapes eff v.1 v.2 := by
  induction checks generalizing report w with
  | nil => simp [runCheckList, reachedChecks, Call.visits]
  | cons check rest ih =>
      rw [runCheckList, Call.raises_bind_iff, reachedChecks]
      rcases hone : runCheck eff.runCommand secrets check w with ⟨e | result, w₁⟩
      · rw [Call.visits_error hone]
        have hraises : (runCheck eff.runCommand secrets check).Raises w := ⟨e, by rw [hone]⟩
        simp [hraises, (runCheck_raises_iff eff secrets).mp hraises]
      · rw [Call.visits_ok hone]
        have hnot : ¬ (runCheck eff.runCommand secrets check).Raises w := Call.not_raises_of_ok hone
        have hnot' : ¬ CheckEscapes eff check w := fun h =>
          hnot ((runCheck_raises_iff eff secrets).mpr h)
        simp [hnot, hnot', ih, reachedChecks]

/-! ### Specifications -/

/-- The end of a task specification, from its checks on, makes `execute` raise in a world. -/
inductive ChecksEscape (secrets : List String) (spec : Val) (w : W) : Prop
  | unreadable {e : PyErr} : spec.get "checks" (.list []) = .error e → ChecksEscape secrets spec w
  | noList {checks : Val} {e : PyErr} : spec.get "checks" (.list []) = .ok checks →
      checks.truthy = true → checks.iter = .error e → ChecksEscape secrets spec w
  | check {checks : Val} {list : List Val} {v : Val × W} :
      spec.get "checks" (.list []) = .ok checks → checks.truthy = true → checks.iter = .ok list →
      v ∈ reachedChecks eff secrets list w → CheckEscapes eff v.1 v.2 →
      ChecksEscape secrets spec w

omit [PyRuntime] in
lemma applyChecks_raises_iff (secrets : List String) {spec : Val} {touched : List String} {w : W} :
    (applyChecks eff secrets spec touched).Raises w ↔ ChecksEscape eff secrets spec w := by
  rw [applyChecks, Call.raises_bind_iff]
  cases hchecks : spec.get "checks" (.list []) with
  | error e => exact ⟨fun _ => .unreadable hchecks, fun _ => Or.inl ⟨e, rfl⟩⟩
  | ok checks =>
      simp only [Call.raises_ofExcept_iff, Call.ofExcept_apply, reduceCtorEq, exists_false,
        Prod.mk.injEq, Except.ok.injEq, false_or]
      by_cases htruthy : checks.truthy = true
      swap
      · constructor
        · rintro ⟨_, _, ⟨rfl, rfl⟩, h⟩
          rw [if_pos (by simpa using htruthy)] at h
          exact absurd h (Call.not_raises_pure _ _)
        · intro h
          cases h with
          | unreadable h =>
              rw [hchecks] at h
              cases h
          | noList h ht _ | check h ht _ _ _ =>
              rw [hchecks] at h
              cases h
              exact absurd ht htruthy
      cases hiter : checks.iter with
      | error e =>
          refine ⟨fun _ => .noList hchecks htruthy hiter, fun _ => ⟨checks, w, ⟨rfl, rfl⟩, ?_⟩⟩
          rw [if_neg (by simpa using htruthy), hiter, Call.raises_bind_iff]
          exact Or.inl ⟨e, rfl⟩
      | ok list =>
          have hrun : (runChecks eff.runCommand secrets list).Raises w
              ↔ ∃ v ∈ reachedChecks eff secrets list w, CheckEscapes eff v.1 v.2 :=
            runCheckList_raises_iff eff secrets
          constructor
          · rintro ⟨_, _, ⟨rfl, rfl⟩, h⟩
            rw [if_neg (by simpa using htruthy), hiter, Call.Raises,
              Call.bind_ok (Call.ofExcept_apply _ _)] at h
            obtain h | ⟨report, w', -, h⟩ := Call.raises_bind_iff.mp h
            · obtain ⟨v, hv, hesc⟩ := hrun.mp h
              exact .check hchecks htruthy hiter hv hesc
            · exact absurd h (Call.not_raises_pure _ _)
          · intro h
            refine ⟨checks, w, ⟨rfl, rfl⟩, ?_⟩
            rw [if_neg (by simpa using htruthy), hiter, Call.Raises,
              Call.bind_ok (Call.ofExcept_apply _ _)]
            refine Call.raises_bind_iff.mpr (Or.inl (hrun.mpr ?_))
            cases h with
            | unreadable h =>
                rw [hchecks] at h
                cases h
            | noList h _ hi =>
                rw [hchecks] at h
                cases h
                rw [hiter] at hi
                cases hi
            | check h _ hi hv hesc =>
                rw [hchecks] at h
                cases h
                rw [hiter] at hi
                cases hi
                exact ⟨_, hv, hesc⟩

/-- A task specification makes `apply_task_spec` raise in a world. -/
inductive SpecEscapes (secrets : List String) (spec : Val) (w : W) : Prop
  | unreadable {e : PyErr} : actionsOf spec = .error e → SpecEscapes secrets spec w
  | action {actions : List Val} {v : Val × W} : actionsOf spec = .ok actions →
      v ∈ reached eff roots actions w → ActionEscapes eff roots v.1 v.2 →
      SpecEscapes secrets spec w
  /-- Every action has been carried out. -/
  | checks {actions : List Val} {touched : List String} {w' : W} : actionsOf spec = .ok actions →
      performActions eff roots actions [] w = (.ok (touched, none), w') →
      ChecksEscape eff secrets spec w' → SpecEscapes secrets spec w

/-- **`apply_task_spec` raises exactly when the specification escapes.** -/
theorem applyTaskSpec_raises_iff (secrets : List String) {spec : Val} {w : W} :
    (applyTaskSpec eff roots secrets spec).Raises w ↔ SpecEscapes eff roots secrets spec w := by
  rw [applyTaskSpec, Call.raises_bind_iff]
  cases hactions : actionsOf spec with
  | error e => exact ⟨fun _ => .unreadable hactions, fun _ => Or.inl ⟨e, rfl⟩⟩
  | ok actions =>
      have hloop : (performActions eff roots actions []).Raises w
          ↔ ∃ v ∈ reached eff roots actions w, ActionEscapes eff roots v.1 v.2 := by
        rw [performActions_raises_iff]
        simp only [attemptAction_raises_iff]
      simp only [Call.raises_ofExcept_iff, Call.ofExcept_apply, reduceCtorEq, exists_false,
        Prod.mk.injEq, Except.ok.injEq, false_or]
      constructor
      · rintro ⟨_, _, ⟨rfl, rfl⟩, h⟩
        obtain h | ⟨⟨touched, failure⟩, w', hdone, h⟩ := Call.raises_bind_iff.mp h
        · obtain ⟨v, hv, hesc⟩ := hloop.mp h
          exact .action hactions hv hesc
        · cases failure with
          | some reason => exact absurd h (Call.not_raises_pure _ _)
          | none => exact .checks hactions hdone ((applyChecks_raises_iff eff secrets).mp h)
      · intro h
        refine ⟨actions, w, ⟨rfl, rfl⟩, Call.raises_bind_iff.mpr ?_⟩
        cases h with
        | unreadable h =>
            rw [hactions] at h
            cases h
        | action h hv hesc =>
            rw [hactions] at h
            cases h
            exact Or.inl (hloop.mpr ⟨_, hv, hesc⟩)
        | checks h hdone hesc =>
            rw [hactions] at h
            cases h
            exact Or.inr ⟨_, _, hdone, (applyChecks_raises_iff eff secrets).mpr hesc⟩

/-! ### Executors -/

/-- A call of `ScriptedExecutor.execute` raises in a world. -/
inductive ScriptedEscapes (secrets : List String) (script : Val) (node : TaskNode) (scope : Dict)
    (w : W) : Prop
  | noScript {e : PyErr} : taskSpecOf script node = .error e →
      ScriptedEscapes secrets script node scope w
  | noRoots {spec : Val} {e : PyErr} : taskSpecOf script node = .ok spec →
      scopeRoots scope = .error e → ScriptedEscapes secrets script node scope w
  | spec {spec : Val} {roots : List Val} : taskSpecOf script node = .ok spec →
      scopeRoots scope = .ok roots → SpecEscapes eff roots secrets spec w →
      ScriptedEscapes secrets script node scope w

/-- **`ScriptedExecutor.execute` raises exactly when its script escapes.** -/
theorem scriptedExecute_raises_iff (secrets : List String) {script : Val} {node : TaskNode}
    {scope : Dict} {w : W} : (scriptedExecute eff secrets script node scope).Raises w
      ↔ ScriptedEscapes eff secrets script node scope w := by
  rw [scriptedExecute, Call.raises_bind_iff]
  cases hspec : taskSpecOf script node with
  | error e => exact ⟨fun _ => .noScript hspec, fun _ => Or.inl ⟨e, rfl⟩⟩
  | ok spec =>
      cases hroots : scopeRoots scope with
      | error e =>
          refine ⟨fun _ => .noRoots hspec hroots, fun _ => Or.inr ⟨spec, w, rfl, ?_⟩⟩
          exact Call.raises_bind_iff.mpr (Or.inl ⟨e, rfl⟩)
      | ok roots =>
          constructor
          · rintro (⟨e, he⟩ | ⟨spec', w', hok, h⟩)
            · cases he
            · cases hok
              obtain ⟨e, he⟩ | ⟨roots', w', hok, h⟩ := Call.raises_bind_iff.mp h
              · cases he
              · cases hok
                exact .spec hspec hroots ((applyTaskSpec_raises_iff eff roots secrets).mp h)
          · intro h
            refine Or.inr ⟨spec, w, rfl, Call.raises_bind_iff.mpr (Or.inr ⟨roots, w, rfl, ?_⟩)⟩
            rw [applyTaskSpec_raises_iff]
            cases h with
            | noScript h =>
                rw [hspec] at h
                cases h
            | noRoots _ h =>
                rw [hroots] at h
                cases h
            | spec h hr hesc =>
                rw [hspec] at h
                rw [hroots] at hr
                cases h
                cases hr
                exact hesc

section Api

variable [FloatReader] [JsonReader] (timer : Timer W) (client : String → Call PyErr W ModelResponse)
  (budget : Budget)

/-- A call of `ApiExecutor.execute` raises before its actions. -/
inductive ProposalEscapes (node : TaskNode) (scope : Dict) (s : W × Usage) : Prop
  | client : (checkBudget budget s.2).allowed = true →
      ClientRaises timer budget (client (buildPrompt node)) s.1 → ProposalEscapes node scope s
  | usage {response : ModelResponse} {s' : W × Usage} :
      consult timer budget (client (buildPrompt node)) s = (.ok (.inr response), s') →
      UsageUnreadable response.usage → ProposalEscapes node scope s
  | text {response : ModelResponse} {s' s'' : W × Usage} {e : PyErr} :
      consult timer budget (client (buildPrompt node)) s = (.ok (.inr response), s') →
      account budget response.usage s' = (.ok none, s'') → parseActions response.text = .error e →
      ProposalEscapes node scope s
  | roots {response : ModelResponse} {s' s'' : W × Usage} {spec : Dict} {e : PyErr} :
      consult timer budget (client (buildPrompt node)) s = (.ok (.inr response), s') →
      account budget response.usage s' = (.ok none, s'') →
      parseActions response.text = .ok (some spec) → scopeRoots scope = .error e →
      ProposalEscapes node scope s

lemma proposeActions_raises_iff {node : TaskNode} {scope : Dict} {s : W × Usage} :
    (proposeActions timer client budget node scope).Raises s
      ↔ ProposalEscapes timer client budget node scope s := by
  rw [proposeActions, Call.raises_bind_iff, consult_raises_iff]
  constructor
  · rintro (⟨hpre, hraises⟩ | ⟨answer, s', hanswer, h⟩)
    · exact .client hpre hraises
    cases answer with
    | inl early => exact absurd h (Call.not_raises_pure _ _)
    | inr response =>
        obtain h | ⟨refused, s'', haccount, h⟩ := Call.raises_bind_iff.mp h
        · exact .usage hanswer (account_raises_iff.mp h)
        cases refused with
        | some early => exact absurd h (Call.not_raises_pure _ _)
        | none =>
            obtain ⟨e, he⟩ | ⟨spec, s₃, hspec, h⟩ := Call.raises_bind_iff.mp h
            · exact .text hanswer haccount he
            rw [Call.ofExcept_apply, Prod.mk.injEq] at hspec
            obtain ⟨hspec, rfl⟩ := hspec
            cases spec with
            | none => exact absurd h (Call.not_raises_pure _ _)
            | some spec =>
                obtain ⟨e, he⟩ | ⟨roots, s₄, -, h⟩ := Call.raises_bind_iff.mp h
                · exact .roots hanswer haccount hspec he
                · exact absurd h (Call.not_raises_pure _ _)
  · intro h
    cases h with
    | client hpre hraises => exact Or.inl ⟨hpre, hraises⟩
    | usage hanswer h =>
        exact Or.inr ⟨_, _, hanswer,
          Call.raises_bind_iff.mpr (Or.inl (account_raises_iff.mpr h))⟩
    | text hanswer haccount he =>
        refine Or.inr ⟨_, _, hanswer, Call.raises_bind_iff.mpr (Or.inr ⟨_, _, haccount, ?_⟩)⟩
        exact Call.raises_bind_iff.mpr (Or.inl ⟨_, he⟩)
    | roots hanswer haccount hspec he =>
        refine Or.inr ⟨_, _, hanswer, Call.raises_bind_iff.mpr (Or.inr ⟨_, _, haccount, ?_⟩)⟩
        refine Call.raises_bind_iff.mpr (Or.inr ⟨_, _, congrArg (·, _) hspec, ?_⟩)
        exact Call.raises_bind_iff.mpr (Or.inl ⟨_, he⟩)

/-- A call of `ApiExecutor.execute` raises: before its actions, or because the answer of the model
escapes. -/
inductive ApiEscapes (secrets : List String) (node : TaskNode) (scope : Dict) (s : W × Usage) : Prop
  | proposal : ProposalEscapes timer client budget node scope s →
      ApiEscapes secrets node scope s
  | spec {spec : Dict} {roots : List Val} {s' : W × Usage} :
      proposeActions timer client budget node scope s = (.ok (.inr (spec, roots)), s') →
      SpecEscapes eff roots secrets (.dict spec) s'.1 → ApiEscapes secrets node scope s

/-- **`ApiExecutor.execute` raises exactly when its call escapes.** -/
theorem apiExecute_raises_iff (secrets : List String) {node : TaskNode} {scope : Dict}
    {s : W × Usage} : (apiExecute timer client budget eff secrets node scope).Raises s
      ↔ ApiEscapes eff timer client budget secrets node scope s := by
  rw [apiExecute, Call.raises_bind_iff, proposeActions_raises_iff]
  constructor
  · rintro (h | ⟨proposed, s', hproposed, h⟩)
    · exact .proposal h
    · cases proposed with
      | inl early => exact absurd h (Call.not_raises_pure _ _)
      | inr proposed =>
          exact .spec hproposed ((applyTaskSpec_raises_iff eff _ secrets).mp h)
  · intro h
    cases h with
    | proposal h => exact Or.inl h
    | spec hproposed hesc =>
        exact Or.inr ⟨_, _, hproposed, (applyTaskSpec_raises_iff eff _ secrets).mpr hesc⟩

end Api

end IplanRunner
