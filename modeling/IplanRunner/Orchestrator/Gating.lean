import IplanRunner.Orchestrator.Chain
import IplanRunner.Runs.Script

/-!
Which plans of a chain are run.

* `ChainRuns`: what the loop of `run_chain` does at each turn; `chainLoop_runs`.
* `ChainRuns.ran_iff`: at its turn a plan is run exactly when all it depends on is reconciled by
  then.
* `chain_gating`: a plan is run exactly when its turn comes and all it depends on is reconciled in
  the end.
-/

namespace IplanRunner

open Foundation

section Runtime

variable [PyRuntime]

/-! ### The order -/

omit [PyRuntime] in
lemma upstreamsDone_iff (deps : String → List String) (done : List String) (t : String) :
    upstreamsDone deps done t = true ↔ ∀ d ∈ deps t, d ∈ done := by
  simp [upstreamsDone]

lemma serveChain_served {deps : String → List String} {key : String → Val × String} {fuel : ℕ}
    {done remaining order : List String} (hfuel : remaining.length ≤ fuel)
    (h : serveChain deps key fuel done remaining = .ok order) :
    Served (upstreamsDone deps) done remaining order := by
  induction fuel generalizing done remaining order with
  | zero =>
      obtain rfl : remaining = [] := List.eq_nil_of_length_eq_zero (by omega)
      cases h
      exact .nil
  | succ fuel ih =>
      cases remaining with
      | nil =>
          cases h
          exact .nil
      | cons first others =>
          rw [serveChain] at h
          obtain ⟨ready, hready, h⟩ := except_bind_eq_ok.mp h
          obtain ⟨chosen, hchosen, h⟩ := except_bind_eq_ok.mp h
          obtain ⟨rest, hrest, heq⟩ := except_bind_eq_ok.mp h
          cases heq
          have hsame := sortedBy_perm hready
          have hpick : chosen ∈ first :: others ∧ (upstreamsDone deps done chosen = true
              ∨ ∀ y ∈ first :: others, upstreamsDone deps done y = false) := by
            cases ready with
            | nil =>
                refine ⟨List.mem_cons.mpr (minBy_mem hchosen), Or.inr fun y hy => ?_⟩
                by_contra hmet
                have hin : y ∈ (first :: others).filter (upstreamsDone deps done) :=
                  List.mem_filter.mpr ⟨hy, by simpa using hmet⟩
                exact absurd (hsame.mem_iff.mpr hin) List.not_mem_nil
            | cons t ts =>
                cases hchosen
                obtain ⟨hin, hmet⟩ := List.mem_filter.mp (hsame.mem_iff.mp List.mem_cons_self)
                exact ⟨hin, Or.inl hmet⟩
          have hlen : ((first :: others).erase chosen).length ≤ fuel := by
            rw [List.length_erase_of_mem hpick.1]
            omega
          exact .cons (List.perm_cons_erase hpick.1) hpick.2 (ih hlen hrest)

/-- **The order of a chain serves what is ready.** -/
theorem chainOrder_served {iplanChain : List Val} {order : List String}
    (h : chainOrder iplanChain = .ok order) :
    ∃ deps, byId upstreams iplanChain = .ok deps
      ∧ Served (upstreamsDone fun t => (lastOf deps t).getD []) []
          (deps.map Prod.fst).dedup order := by
  obtain ⟨deps, hdeps, h⟩ := except_bind_eq_ok.mp h
  obtain ⟨keys, -, h⟩ := except_bind_eq_ok.mp h
  exact ⟨deps, hdeps, serveChain_served le_rfl h⟩

/-! ### The turns -/

/-- What the loop does: it ends, it is stopped, or a plan is skipped or run at its turn. -/
inductive ChainRuns (deps : String → List String) :
    List String → ChainState → ChainState → List String → Prop
  | finished {st} : ChainRuns deps [] st st []
  | stopped {id rest st} : ChainRuns deps (id :: rest) st st []
  | skipped {id rest st st' turns} (hunmet : st.meets (deps id) = false)
      (hrest : ChainRuns deps rest (st.skip id) st' turns) :
      ChainRuns deps (id :: rest) st st' (id :: turns)
  | ran {id rest st st' turns} (ledger : Ledger) (hmet : st.meets (deps id) = true)
      (hrest : ChainRuns deps rest (st.record id ledger) st' turns) :
      ChainRuns deps (id :: rest) st st' (id :: turns)

section Loop

variable {W : Type} {h : Host W} {gate : Gate} {executorFor : String → Call PyErr W (Executor W)}
  {nodes : String → Option Val} {iplans : String → Option Manifest} {deps : String → List String}

/-- A turn skips a plan, or runs it. -/
lemma chainTurn_ok {id : String} {st st' : ChainState} {w w' : W}
    (hdeps : ∀ n, nodes id = some n → upstreams n = .ok (deps id))
    (hturn : chainTurn h gate executorFor nodes iplans id st w = (.ok st', w')) :
    st.meets (deps id) = false ∧ st' = st.skip id
      ∨ st.meets (deps id) = true ∧ ∃ ledger, st' = st.record id ledger := by
  rw [chainTurn] at hturn
  obtain ⟨node, w₁, hnode, hturn⟩ := Call.bind_eq_ok.mp hturn
  obtain ⟨ds, w₂, hds, hturn⟩ := Call.bind_eq_ok.mp hturn
  rw [Call.ofExcept_apply, Prod.mk.injEq] at hnode hds
  have hfound : nodes id = some node := by
    obtain ⟨hnode, -⟩ := hnode
    rw [itemOf] at hnode
    split at hnode
    · rename_i v hv
      cases hnode
      exact hv
    · cases hnode
  obtain rfl : deps id = ds := Except.ok.inj ((hdeps node hfound).symm.trans hds.1)
  split at hturn
  · rename_i hmet
    obtain ⟨manifest, w₃, -, hturn⟩ := Call.bind_eq_ok.mp hturn
    obtain ⟨x, w₄, -, hturn⟩ := Call.bind_eq_ok.mp hturn
    obtain ⟨result, w₅, -, hturn⟩ := Call.bind_eq_ok.mp hturn
    cases hturn
    exact Or.inr ⟨hmet, result.ledger, rfl⟩
  · rename_i hunmet
    cases hturn
    exact Or.inl ⟨by simpa using hunmet, rfl⟩

/-- A turn that runs its plan. -/
lemma chainTurn_of_met {id : String} {st : ChainState} {n : Val} {ds : List String} {m : Manifest}
    {x : Executor W} {res : RunResult} {w w₁ w₂ : W} (hnode : nodes id = some n)
    (hdeps : upstreams n = .ok ds) (hmet : st.meets ds = true) (hplan : iplans id = some m)
    (hx : executorFor id w = (.ok x, w₁)) (hrun : runPlan h gate m x w₁ = (.ok res, w₂)) :
    chainTurn h gate executorFor nodes iplans id st w = (.ok (st.record id res.ledger), w₂) := by
  have hn : itemOf nodes id = .ok n := by rw [itemOf, hnode]
  have hm : itemOf iplans id = .ok m := by rw [itemOf, hplan]
  rw [chainTurn, hn, Call.bind_ok (Call.ofExcept_apply _ _), hdeps,
    Call.bind_ok (Call.ofExcept_apply _ _)]
  simp only [hmet, if_true]
  rw [hm, Call.bind_ok (Call.ofExcept_apply _ _), Call.bind_ok hx, Call.bind_ok hrun]
  rfl

/-- A turn that skips its plan. -/
lemma chainTurn_of_unmet {id : String} {st : ChainState} {n : Val} {ds : List String} {w : W}
    (hnode : nodes id = some n) (hdeps : upstreams n = .ok ds) (hunmet : st.meets ds = false) :
    chainTurn h gate executorFor nodes iplans id st w = (.ok (st.skip id), w) := by
  have hn : itemOf nodes id = .ok n := by rw [itemOf, hnode]
  rw [chainTurn, hn, Call.bind_ok (Call.ofExcept_apply _ _), hdeps,
    Call.bind_ok (Call.ofExcept_apply _ _)]
  simp only [hunmet, Bool.false_eq_true, if_false]
  rfl
/-- **A loop that returns has gone through its turns.** -/
theorem chainLoop_runs {order : List String} {st st' : ChainState} {w w' : W}
    (hdeps : ∀ id ∈ order, ∀ n, nodes id = some n → upstreams n = .ok (deps id))
    (hloop : chainLoop h gate executorFor nodes iplans order st w = (.ok st', w')) :
    ChainRuns deps order st st' (chainTurns h gate executorFor nodes iplans order st w) := by
  induction order generalizing st w with
  | nil =>
      cases hloop
      exact .finished
  | cons id rest ih =>
      obtain ⟨hfirst, hrest⟩ := List.forall_mem_cons.mp hdeps
      rw [chainLoop] at hloop
      rw [chainTurns]
      rcases hcontrol : h.control w with ⟨answer, w₁⟩
      dsimp only at hloop
      rw [hcontrol] at hloop
      cases answer with
      | running =>
          obtain ⟨st₁, w₂, hturn, hloop⟩ := Call.bind_eq_ok.mp hloop
          dsimp only
          rw [hturn]
          rcases chainTurn_ok hfirst hturn with ⟨hunmet, rfl⟩ | ⟨hmet, ledger, rfl⟩
          · exact .skipped hunmet (ih hrest hloop)
          · exact .ran ledger hmet (ih hrest hloop)
      | paused =>
          cases hloop
          exact .stopped
      | aborted =>
          cases hloop
          exact .stopped

end Loop

/-! ### What the turns have entered -/

section Entered

omit [PyRuntime]

/-- The plan has a sub-ledger, and it allows completion. -/
def SubAllowed (subLedgers : List (String × Ledger)) (id : String) : Prop :=
  ∃ L, subLedgers.lookup id = some L ∧ L.reconciliation.allowed = true

/-- A plan is reconciled exactly when its ledger is allowed. -/
def Coherent (st : ChainState) : Prop :=
  ∀ id, st.reconciled.lookup id = some true ↔ SubAllowed st.subLedgers id

/-- Nothing has been entered under the id. -/
def Unentered (st : ChainState) (id : String) : Prop :=
  st.reconciled.lookup id = none ∧ st.subLedgers.lookup id = none

lemma lookup_append_singleton {α : Type} {entries : List (String × α)} (id t : String) (a : α) :
    (entries ++ [(id, a)]).lookup t
      = (entries.lookup t).or (if t = id then some a else none) := by
  rw [List.lookup_append, List.lookup_cons, List.lookup_nil]
  by_cases ht : t = id
  · simp [ht]
  · have hne : (t == id) = false := by simpa using ht
    rw [hne, if_neg ht]

lemma Coherent.skip {st : ChainState} {id : String} (h : Coherent st) (hnew : Unentered st id) :
    Coherent (st.skip id) := by
  intro t
  rw [ChainState.skip]
  dsimp only
  rw [lookup_append_singleton, ← h t]
  by_cases ht : t = id
  · subst ht
    simp [hnew.1]
  · simp [ht]

lemma Coherent.record {st : ChainState} {id : String} {ledger : Ledger} (h : Coherent st)
    (hnew : Unentered st id) : Coherent (st.record id ledger) := by
  intro t
  rw [ChainState.record, SubAllowed]
  dsimp only
  rw [lookup_append_singleton, lookup_append_singleton]
  by_cases ht : t = id
  · subst ht
    simp [hnew.1, hnew.2]
  · simpa [ht, SubAllowed] using h t

variable {deps : String → List String} {order turns : List String} {st st' : ChainState}

/-- Another id is untouched by a turn. -/
lemma lookup_skip_of_ne {id t : String} (h : t ≠ id) :
    (st.skip id).reconciled.lookup t = st.reconciled.lookup t
      ∧ (st.skip id).subLedgers.lookup t = st.subLedgers.lookup t := by
  simp [ChainState.skip, lookup_append_singleton, h]

lemma lookup_record_of_ne {id t : String} {ledger : Ledger} (h : t ≠ id) :
    (st.record id ledger).reconciled.lookup t = st.reconciled.lookup t
      ∧ (st.record id ledger).subLedgers.lookup t = st.subLedgers.lookup t := by
  simp [ChainState.record, lookup_append_singleton, h]

/-- The turns are those of a first part of the order. -/
lemma ChainRuns.turns_prefix (h : ChainRuns deps order st st' turns) : turns <+: order := by
  induction h with
  | finished => exact List.prefix_refl _
  | stopped => exact List.nil_prefix
  | skipped _ _ ih => exact (List.prefix_cons_inj _).mpr ih
  | ran _ _ _ ih => exact (List.prefix_cons_inj _).mpr ih

/-- What has no turn keeps what was entered for it. -/
lemma ChainRuns.others (h : ChainRuns deps order st st' turns) {t : String} (ht : t ∉ turns) :
    st'.reconciled.lookup t = st.reconciled.lookup t
      ∧ st'.subLedgers.lookup t = st.subLedgers.lookup t := by
  induction h with
  | finished => exact ⟨rfl, rfl⟩
  | stopped => exact ⟨rfl, rfl⟩
  | skipped _ _ ih =>
      obtain ⟨hne, hrest⟩ := not_or.mp (mt List.mem_cons.mpr ht)
      rw [(ih hrest).1, (ih hrest).2]
      exact lookup_skip_of_ne hne
  | ran ledger _ _ ih =>
      obtain ⟨hne, hrest⟩ := not_or.mp (mt List.mem_cons.mpr ht)
      rw [(ih hrest).1, (ih hrest).2]
      exact lookup_record_of_ne hne

/-- What the rest of an order finds unentered behind a turn. -/
lemma unentered_rest {id : String} {rest : List String} (hnodup : (id :: rest).Nodup)
    (hnew : ∀ t ∈ id :: rest, Unentered st t) :
    Unentered st id ∧ id ∉ rest ∧ rest.Nodup
      ∧ (∀ t ∈ rest, Unentered (st.skip id) t)
      ∧ ∀ ledger, ∀ t ∈ rest, Unentered (st.record id ledger) t := by
  obtain ⟨hid, hrest⟩ := List.nodup_cons.mp hnodup
  obtain ⟨hhere, hothers⟩ := List.forall_mem_cons.mp hnew
  have hne : ∀ t ∈ rest, t ≠ id := fun t ht heq => hid (heq ▸ ht)
  refine ⟨hhere, hid, hrest, fun t ht => ?_, fun ledger t ht => ?_⟩
  · rw [Unentered, (lookup_skip_of_ne (hne t ht)).1, (lookup_skip_of_ne (hne t ht)).2]
    exact hothers t ht
  · rw [Unentered, (lookup_record_of_ne (hne t ht)).1, (lookup_record_of_ne (hne t ht)).2]
    exact hothers t ht

lemma ChainRuns.coherent (h : ChainRuns deps order st st' turns) (hnodup : order.Nodup)
    (hnew : ∀ t ∈ order, Unentered st t) (hst : Coherent st) : Coherent st' := by
  induction h with
  | finished => exact hst
  | stopped => exact hst
  | skipped _ _ ih =>
      obtain ⟨hhere, -, hrest, hskip, -⟩ := unentered_rest hnodup hnew
      exact ih hrest hskip (hst.skip hhere)
  | ran ledger _ _ ih =>
      obtain ⟨hhere, -, hrest, -, hrecord⟩ := unentered_rest hnodup hnew
      exact ih hrest (hrecord ledger) (hst.record hhere)

/-- **At its turn a plan is run** exactly when all it depends on is reconciled, and is so before. -/
theorem ChainRuns.ran_iff (h : ChainRuns deps order st st' turns) (hnodup : order.Nodup)
    (hnew : ∀ t ∈ order, Unentered st t) {pre post : List String} {id : String}
    (hsplit : turns = pre ++ id :: post) :
    (st'.subLedgers.lookup id).isSome
      ↔ ∀ d ∈ deps id, st'.reconciled.lookup d = some true ∧ d ∉ id :: post := by
  induction h generalizing pre with
  | finished => simp at hsplit
  | stopped => simp at hsplit
  | @skipped t rest st st' turns hunmet hruns ih =>
      obtain ⟨hhere, hid, hrest, hskip, -⟩ := unentered_rest hnodup hnew
      cases pre with
      | cons p pre => exact ih hrest hskip (List.cons.inj hsplit).2
      | nil =>
          obtain ⟨rfl, rfl⟩ := List.cons.inj hsplit
          have hout : t ∉ turns := fun hin => hid (hruns.turns_prefix.subset hin)
          have hnone : st'.subLedgers.lookup t = none := by
            rw [(hruns.others hout).2, ChainState.skip, hhere.2]
          refine iff_of_false (by simp [hnone]) fun hall => ?_
          have hmet : st.meets (deps t) = true := by
            rw [ChainState.meets, List.all_eq_true]
            intro d hd
            obtain ⟨htrue, hbefore⟩ := hall d hd
            obtain ⟨hne, hlater⟩ := not_or.mp (mt List.mem_cons.mpr hbefore)
            rw [(hruns.others hlater).1, (lookup_skip_of_ne hne).1] at htrue
            rw [htrue, Option.getD_some]
          rw [hunmet] at hmet
          cases hmet
  | @ran t rest st st' turns ledger hmet hruns ih =>
      obtain ⟨hhere, hid, hrest, -, hrecord⟩ := unentered_rest hnodup hnew
      cases pre with
      | cons p pre => exact ih hrest (hrecord ledger) (List.cons.inj hsplit).2
      | nil =>
          obtain ⟨rfl, rfl⟩ := List.cons.inj hsplit
          have hout : t ∉ turns := fun hin => hid (hruns.turns_prefix.subset hin)
          have hsome : st'.subLedgers.lookup t = some ledger := by
            rw [(hruns.others hout).2, ChainState.record]
            dsimp only
            rw [lookup_append_singleton, hhere.2, if_pos rfl, Option.none_or]
          refine iff_of_true (by simp [hsome]) fun d hd => ?_
          rw [ChainState.meets, List.all_eq_true] at hmet
          have htrue : st.reconciled.lookup d = some true := by
            have hone := hmet d hd
            cases hl : st.reconciled.lookup d with
            | none => simp [hl] at hone
            | some b => simpa [hl] using hone
          -- what is reconciled already has had its turn
          have hold : d ∉ t :: rest := fun hin => by
            have hnone := (hnew d hin).1
            rw [htrue] at hnone
            cases hnone
          obtain ⟨hne, hlater⟩ := not_or.mp (mt List.mem_cons.mpr hold)
          have hturns : d ∉ turns := fun hin => hlater (hruns.turns_prefix.subset hin)
          refine ⟨?_, fun hin => (List.mem_cons.mp hin).elim hne hturns⟩
          rw [(hruns.others hturns).1, (lookup_record_of_ne hne).1, htrue]

/-- A plan that has been run had its turn. -/
lemma ChainRuns.mem_turns (h : ChainRuns deps order ⟨[], []⟩ st' turns) {t : String}
    (hran : (st'.subLedgers.lookup t).isSome) : t ∈ turns := by
  by_contra hout
  rw [(h.others hout).2] at hran
  cases hran

/-- **A plan is run** exactly when its turn comes and all it depends on is allowed in the end. -/
theorem ChainRuns.gated {ids : List String} (h : ChainRuns deps order ⟨[], []⟩ st' turns)
    (hserved : Served (upstreamsDone deps) [] ids order) (hnodup : ids.Nodup) (id : String) :
    (st'.subLedgers.lookup id).isSome
      ↔ id ∈ turns ∧ ∀ d ∈ deps id, SubAllowed st'.subLedgers d := by
  have horder : order.Nodup := hserved.perm.nodup_iff.mpr hnodup
  have hnew : ∀ t ∈ order, Unentered ⟨[], []⟩ t := fun t _ => ⟨rfl, rfl⟩
  have hcoherent : Coherent st' := h.coherent horder hnew fun t => by simp [SubAllowed]
  have hran : ∀ {t}, SubAllowed st'.subLedgers t → (st'.subLedgers.lookup t).isSome := by
    rintro t ⟨L, hL, -⟩
    rw [hL, Option.isSome_some]
  -- what is allowed has had its turn behind what it depends on, and so on down: no cycle is run
  have hderivable : ∀ n pre t post, turns = pre ++ t :: post → pre.length = n
      → SubAllowed st'.subLedgers t → Derivable deps (· ∈ ids) t := by
    intro n
    induction n using Nat.strong_induction_on with
    | _ n ih =>
        intro pre t post hsplit hlen hallowed
        have hdeps := (h.ran_iff horder hnew hsplit).mp (hran hallowed)
        have hmem : t ∈ order := h.turns_prefix.subset (by simp [hsplit])
        refine .intro (hserved.perm.mem_iff.mp hmem) fun d hd => ?_
        obtain ⟨htrue, hbefore⟩ := hdeps d hd
        have hdep : SubAllowed st'.subLedgers d := (hcoherent d).mp htrue
        have hturn : d ∈ turns := h.mem_turns (hran hdep)
        rw [hsplit, List.mem_append] at hturn
        obtain ⟨pre₁, post₁, hpre⟩ := List.append_of_mem (hturn.resolve_right hbefore)
        refine ih pre₁.length ?_ pre₁ d (post₁ ++ t :: post) ?_ rfl hdep
        · rw [← hlen, hpre, List.length_append, List.length_cons]
          omega
        · rw [hsplit, hpre, List.append_assoc, List.cons_append]
  constructor
  · intro hsome
    have hturn := h.mem_turns hsome
    obtain ⟨pre, post, hsplit⟩ := List.append_of_mem hturn
    refine ⟨hturn, fun d hd => ?_⟩
    exact (hcoherent d).mp ((h.ran_iff horder hnew hsplit).mp hsome d hd).1
  · rintro ⟨hturn, hdeps⟩
    obtain ⟨pre, post, hsplit⟩ := List.append_of_mem hturn
    obtain ⟨rest, hrest⟩ := h.turns_prefix
    have hall : order = pre ++ id :: (post ++ rest) := by
      rw [← hrest, hsplit, List.append_assoc, List.cons_append]
    have hhere : Derivable deps (· ∈ ids) id := by
      refine .intro (hserved.perm.mem_iff.mp (h.turns_prefix.subset hturn)) fun d hd => ?_
      obtain ⟨pre₁, post₁, hsplit₁⟩ := List.append_of_mem (h.mem_turns (hran (hdeps d hd)))
      exact hderivable _ pre₁ d post₁ hsplit₁ rfl (hdeps d hd)
    refine (h.ran_iff horder hnew hsplit).mpr fun d hd => ⟨(hcoherent d).mpr (hdeps d hd), ?_⟩
    have hbefore : d ∈ pre := by
      rcases hserved.deps_before (upstreamsDone_iff deps) (fun _ hs => Or.inr hs.holds) hall
        hhere d hd with hdone | hpre
      · cases hdone
      · exact hpre
    rw [hall, List.nodup_append] at horder
    intro hafter
    have hlater : d ∈ id :: (post ++ rest) := by
      rw [← List.cons_append]
      exact List.mem_append_left rest hafter
    exact horder.2.2 d hbefore d hlater rfl

end Entered

/-! ### What is entered by id -/

section ById

variable {α : Type}

omit [PyRuntime] in
lemma lastOf_cons (e : String × α) (es : List (String × α)) (id : String) :
    lastOf (e :: es) id = (lastOf es id).or (if id = e.1 then some e.2 else none) := by
  rw [lastOf, List.reverse_cons, lookup_append_singleton, lastOf]

lemma byId_cons {f : Val → Except PyErr α} {n : Val} {ns : List Val} {es : List (String × α)} :
    byId f (n :: ns) = .ok es
      ↔ ∃ id a rest, nodeId n = .ok id ∧ f n = .ok a ∧ byId f ns = .ok rest
        ∧ es = (id, a) :: rest := by
  rw [byId, List.mapM_cons]
  constructor
  · intro h
    obtain ⟨e, he, h⟩ := except_bind_eq_ok.mp h
    obtain ⟨rest, hrest, h⟩ := except_bind_eq_ok.mp h
    obtain ⟨id, hid, he⟩ := except_bind_eq_ok.mp he
    obtain ⟨a, ha, he⟩ := except_bind_eq_ok.mp he
    cases he
    cases h
    exact ⟨id, a, rest, hid, ha, hrest, rfl⟩
  · rintro ⟨id, a, rest, hid, ha, hrest, rfl⟩
    refine except_bind_eq_ok.mpr ⟨(id, a), ?_, except_bind_eq_ok.mpr ⟨rest, hrest, rfl⟩⟩
    rw [hid, ha]
    rfl

/-- The entries have the ids of the nodes. -/
lemma byId_ids {f : Val → Except PyErr α} {ns : List Val} {es : List (String × α)}
    (h : byId f ns = .ok es) : ns.map nodeId = (es.map Prod.fst).map .ok := by
  induction ns generalizing es with
  | nil =>
      cases h
      rfl
  | cons n ns ih =>
      obtain ⟨id, a, rest, hid, -, hrest, rfl⟩ := byId_cons.mp h
      rw [List.map_cons, hid, ih hrest]
      rfl

lemma byId_mem {f : Val → Except PyErr α} {ns : List Val} {es : List (String × α)}
    (h : byId f ns = .ok es) {n : Val} (hn : n ∈ ns) :
    (∃ id, nodeId n = .ok id) ∧ ∃ a, f n = .ok a := by
  induction ns generalizing es with
  | nil => cases hn
  | cons m ns ih =>
      obtain ⟨id, a, rest, hid, ha, hrest, rfl⟩ := byId_cons.mp h
      rcases List.mem_cons.mp hn with rfl | hn
      · exact ⟨⟨id, hid⟩, a, ha⟩
      · exact ih hrest hn

/-- The last node of an id is a node of it. -/
lemma lastOf_mem {ns : List Val} {nodes : List (String × Val)} (h : byId pure ns = .ok nodes)
    {id : String} {n : Val} (hlast : lastOf nodes id = some n) : n ∈ ns ∧ nodeId n = .ok id := by
  induction ns generalizing nodes with
  | nil =>
      cases h
      cases hlast
  | cons m ns ih =>
      obtain ⟨t, k, rest, ht, hk, hrest, rfl⟩ := byId_cons.mp h
      obtain rfl : m = k := Except.ok.inj hk
      rw [lastOf_cons] at hlast
      rcases Option.or_eq_some_iff.mp hlast with hin | ⟨-, hhere⟩
      · obtain ⟨hmem, hid⟩ := ih hrest hin
        exact ⟨List.mem_cons_of_mem m hmem, hid⟩
      · split at hhere
        · rename_i heq
          obtain rfl : m = n := Option.some.inj hhere
          exact ⟨List.mem_cons_self, by rw [ht, heq]⟩
        · cases hhere

/-- What is entered by id is of the last node of the id. -/
lemma lastOf_byId {f : Val → Except PyErr α} {ns : List Val} {nodes : List (String × Val)}
    {es : List (String × α)} (hnodes : byId pure ns = .ok nodes) (hes : byId f ns = .ok es)
    (id : String) : lastOf es id = (lastOf nodes id).bind fun n => (f n).toOption := by
  induction ns generalizing nodes es with
  | nil =>
      cases hnodes
      cases hes
      rfl
  | cons m ns ih =>
      obtain ⟨t, k, rest, ht, hk, hrest, rfl⟩ := byId_cons.mp hnodes
      obtain ⟨t', a, others, ht', ha, hothers, rfl⟩ := byId_cons.mp hes
      obtain rfl : t = t' := Except.ok.inj (ht.symm.trans ht')
      obtain rfl : m = k := Except.ok.inj hk
      rw [lastOf_cons, lastOf_cons, ih hrest hothers]
      cases hlast : lastOf rest id with
      | none =>
          by_cases heq : id = t
          · simp [heq, ha, Except.toOption]
          · simp [heq]
      | some n =>
          obtain ⟨-, b, hb⟩ := byId_mem hothers (lastOf_mem hrest hlast).1
          simp [hb, Except.toOption]

/-- The entry of an id that one node has is of the node. -/
lemma lastOf_of_nodup {ns : List Val} {nodes : List (String × Val)} {ids : List String}
    (h : byId pure ns = .ok nodes) (hids : ns.map nodeId = ids.map .ok) (hnodup : ids.Nodup)
      {n : Val}
    {id : String} (hn : n ∈ ns) (hid : nodeId n = .ok id) : lastOf nodes id = some n := by
  induction ns generalizing nodes ids with
  | nil => cases hn
  | cons m ns ih =>
      obtain ⟨t, k, rest, ht, hk, hrest, rfl⟩ := byId_cons.mp h
      obtain rfl : m = k := Except.ok.inj hk
      cases ids with
      | nil => cases hids
      | cons s ids =>
          obtain ⟨hs, htail⟩ := List.cons.inj hids
          obtain ⟨hnot, hothers⟩ := List.nodup_cons.mp hnodup
          obtain rfl : t = s := Except.ok.inj (ht.symm.trans hs)
          rw [lastOf_cons]
          rcases List.mem_cons.mp hn with rfl | hn
          · obtain rfl : id = t := Except.ok.inj (hid.symm.trans ht)
            cases hlast : lastOf rest id with
            | none => simp
            | some n' =>
                obtain ⟨hmem, hid'⟩ := lastOf_mem hrest hlast
                have hin : nodeId n' ∈ ns.map nodeId := List.mem_map_of_mem hmem
                rw [htail, hid', List.mem_map] at hin
                obtain ⟨s, hs, heq⟩ := hin
                exact absurd (Except.ok.inj heq ▸ hs) hnot
          · rw [ih hrest htail hothers hn, Option.some_or]

end ById

/-! ### The run of a chain -/

/-- `chain["iplan_chain"]`, gone through. -/
def chainNodes (chain : Dict) : Except PyErr (List Val) :=
  (Val.dict chain).item "iplan_chain" >>= Val.iter

/-- The id of a node, and its entry in the ledger of a chain. -/
def MarkedAs (reconciled : List (String × Bool)) (n : Val) (node : Dict) : Prop :=
  ∃ kvs id, n = .dict kvs ∧ nodeId n = .ok id
    ∧ node = Dict.set kvs "reconciled" (.bool ((reconciled.lookup id).getD false))

lemma allReconciled_iff {ns : List Val} {reconciled : List (String × Bool)} {flags : List Bool}
    (hflags : List.Forall₂ (fun n b => isReconciled reconciled n = .ok b) ns flags) :
    flags.all id = true ↔ ∀ n ∈ ns, ∀ t, nodeId n = .ok t → reconciled.lookup t = some true := by
  induction hflags with
  | nil => simp
  | @cons n flag ns flags hone _ ih =>
      obtain ⟨t, ht, hflag⟩ := except_bind_eq_ok.mp hone
      obtain rfl : (reconciled.lookup t).getD false = flag := Except.ok.inj hflag
      have hhere : (reconciled.lookup t).getD false = true
          ↔ ∀ t', nodeId n = .ok t' → reconciled.lookup t' = some true := by
        rw [ht]
        constructor
        · rintro hflag t' ht'
          obtain rfl : t = t' := Except.ok.inj ht'
          cases hl : reconciled.lookup t with
          | none => simp [hl] at hflag
          | some b => simpa [hl] using hflag
        · intro hall
          rw [hall t rfl, Option.getD_some]
      rw [List.all_cons, Bool.and_eq_true, ih, id_eq, hhere, List.forall_mem_cons]

/-- The ledger of a chain has the nodes with their marks, and allows when all are reconciled. -/
lemma buildChainLedger_ok {chain : Dict} {ns : List Val} {reconciled : List (String × Bool)}
    {C : ChainLedger} (h : buildChainLedger chain ns reconciled = .ok C) :
    List.Forall₂ (MarkedAs reconciled) ns C.iplanChain
      ∧ (C.allowed = true ↔ ∀ n ∈ ns, ∀ id, nodeId n = .ok id → reconciled.lookup id = some true)
      ∧ C.crossPlanLeases = (chain.lookup "cross_plan_leases").getD (.list []) := by
  rw [buildChainLedger] at h
  obtain ⟨nodes, hnodes, h⟩ := except_bind_eq_ok.mp h
  obtain ⟨flags, hflags, h⟩ := except_bind_eq_ok.mp h
  obtain ⟨order, -, h⟩ := except_bind_eq_ok.mp h
  cases h
  refine ⟨(mapM_eq_ok hnodes).imp fun n node hone => ?_, ?_, rfl⟩
  · rw [markNode.eq_def] at hone
    split at hone
    · rename_i kvs
      obtain ⟨flag, hflag, hone⟩ := except_bind_eq_ok.mp hone
      obtain ⟨id, hid, hflag⟩ := except_bind_eq_ok.mp hflag
      cases hflag
      cases hone
      exact ⟨kvs, id, rfl, hid, rfl⟩
    · cases hone
  · exact allReconciled_iff (mapM_eq_ok hflags)

/-- The entries of nodes whose ids are strings. -/
lemma marked_entries {ns : List Val} {ids : List String} {reconciled : List (String × Bool)}
    {entries : List Dict} (hmarked : List.Forall₂ (MarkedAs reconciled) ns entries)
    (hids : ns.map (·.item "iplan_id") = ids.map fun s => .ok (.str s)) :
    List.Forall₂ (fun id node => node.lookup "iplan_id" = some (.str id)
      ∧ node.lookup "reconciled"
        = some (.bool ((reconciled.lookup id).getD false))) ids entries := by
  induction hmarked generalizing ids with
  | nil =>
      obtain rfl : ids = [] := by simpa using hids.symm
      exact .nil
  | @cons n node ns entries hone _ ih =>
      cases ids with
      | nil => cases hids
      | cons s ids =>
          obtain ⟨hs, htail⟩ := List.cons.inj hids
          obtain ⟨kvs, id, rfl, hid, rfl⟩ := hone
          dsimp only at hs
          obtain rfl : s = id := by
            rw [nodeId, hs] at hid
            exact Except.ok.inj hid
          have hfound : kvs.lookup "iplan_id" = some (.str s) := by
            rw [Val.item] at hs
            split at hs
            · rename_i v hv
              rw [hv, Except.ok.inj hs]
            · cases hs
          refine .cons ⟨?_, Dict.lookup_set_self kvs _ _⟩ (ih htail)
          rw [Dict.lookup_set_of_ne kvs (by decide), hfound]

/-- All nodes are reconciled when all entries are marked so. -/
lemma marked_all {ns : List Val} {reconciled : List (String × Bool)} {entries : List Dict}
    (hmarked : List.Forall₂ (MarkedAs reconciled) ns entries) :
    (∀ n ∈ ns, ∀ id, nodeId n = .ok id → reconciled.lookup id = some true)
      ↔ ∀ node ∈ entries, node.lookup "reconciled" = some (.bool true) := by
  induction hmarked with
  | nil => simp
  | @cons n node ns entries hone _ ih =>
      obtain ⟨kvs, id, rfl, hid, rfl⟩ := hone
      rw [List.forall_mem_cons, List.forall_mem_cons, ih, Dict.lookup_set_self, hid]
      refine and_congr_left fun _ => ⟨fun hall => ?_, fun hflag t ht => ?_⟩
      · rw [hall id rfl, Option.getD_some]
      · obtain rfl : id = t := Except.ok.inj ht
        cases hl : reconciled.lookup id with
        | none => simp [hl] at hflag
        | some b => simpa [hl] using hflag

section Run

variable {W : Type} {h : Host W} {gate : Gate} {executorFor : String → Call PyErr W (Executor W)}
  {iplans : String → Option Manifest} {chain : Dict} {w w' : W} {result : ChainResult}

/-- What a run of a chain that returns has gone through. -/
lemma runChain_ok (hrun : runChain h gate executorFor iplans chain w = (.ok result, w')) :
    ∃ ns nodes order st, chainNodes chain = .ok ns ∧ byId pure ns = .ok nodes
      ∧ chainOrder ns = .ok order
      ∧ chainLoop h gate executorFor (lastOf nodes) iplans order ⟨[], []⟩ w = (.ok st, w')
      ∧ buildChainLedger chain ns st.reconciled = .ok result.chainLedger
      ∧ result.subLedgers = st.subLedgers := by
  rw [runChain] at hrun
  obtain ⟨raw, w₁, hraw, hrun⟩ := Call.bind_eq_ok.mp hrun
  obtain ⟨ns, w₂, hns, hrun⟩ := Call.bind_eq_ok.mp hrun
  obtain ⟨nodes, w₃, hnodes, hrun⟩ := Call.bind_eq_ok.mp hrun
  obtain ⟨order, w₄, horder, hrun⟩ := Call.bind_eq_ok.mp hrun
  obtain ⟨st, w₅, hloop, hrun⟩ := Call.bind_eq_ok.mp hrun
  obtain ⟨ledger, w₆, hledger, hrun⟩ := Call.bind_eq_ok.mp hrun
  rw [Call.ofExcept_apply, Prod.mk.injEq] at hraw hns hnodes horder hledger
  obtain ⟨hraw, rfl⟩ := hraw
  obtain ⟨hns, rfl⟩ := hns
  obtain ⟨hnodes, rfl⟩ := hnodes
  obtain ⟨horder, rfl⟩ := horder
  obtain ⟨hledger, rfl⟩ := hledger
  cases hrun
  exact ⟨ns, nodes, order, st, except_bind_eq_ok.mpr ⟨raw, hraw, hns⟩, hnodes, horder, hloop,
    hledger, rfl⟩

/-- The upstreams of the last node of each id. -/
def depsOf (ns : List Val) (id : String) : List String :=
  (((byId upstreams ns).toOption.bind fun deps => lastOf deps id)).getD []

/-- The plans of a chain whose turn comes before it is stopped. -/
def turnsOf (h : Host W) (gate : Gate) (executorFor : String → Call PyErr W (Executor W))
    (iplans : String → Option Manifest) (ns : List Val) (w : W) : List String :=
  match byId pure ns, chainOrder ns with
  | .ok nodes, .ok order => chainTurns h gate executorFor (lastOf nodes) iplans order ⟨[], []⟩ w
  | _, _ => []

/-- **The turns of a chain that returns** are gone through with the upstreams of its nodes. -/
theorem runChain_runs (hrun : runChain h gate executorFor iplans chain w = (.ok result, w')) :
    ∃ ns nodes order st, chainNodes chain = .ok ns ∧ byId pure ns = .ok nodes
      ∧ (∀ n ∈ ns, Returns (upstreams n))
      ∧ (∀ id n, lastOf nodes id = some n → upstreams n = .ok (depsOf ns id))
      ∧ (∃ ids : List String, ns.map nodeId = ids.map .ok
          ∧ Served (upstreamsDone (depsOf ns)) [] ids.dedup order)
      ∧ ChainRuns (depsOf ns) order ⟨[], []⟩ st (turnsOf h gate executorFor iplans ns w)
      ∧ buildChainLedger chain ns st.reconciled = .ok result.chainLedger
      ∧ result.subLedgers = st.subLedgers := by
  obtain ⟨ns, nodes, order, st, hns, hnodes, horder, hloop, hledger, hsub⟩ := runChain_ok hrun
  obtain ⟨deps, hdeps, hserved⟩ := chainOrder_served horder
  have hof : depsOf ns = fun t => (lastOf deps t).getD [] := by
    funext t
    rw [depsOf, hdeps]
    rfl
  have hups : ∀ id n, lastOf nodes id = some n → upstreams n = .ok (depsOf ns id) := by
    intro id n hlast
    obtain ⟨-, a, ha⟩ := byId_mem hdeps (lastOf_mem hnodes hlast).1
    rw [hof]
    dsimp only
    rw [lastOf_byId hnodes hdeps id, hlast, Option.bind_some, ha]
    rfl
  have hturns : turnsOf h gate executorFor iplans ns w
      = chainTurns h gate executorFor (lastOf nodes) iplans order ⟨[], []⟩ w := by
    rw [turnsOf, hnodes, horder]
  refine ⟨ns, nodes, order, st, hns, hnodes, fun n hn => (byId_mem hdeps hn).2, hups,
    ⟨deps.map Prod.fst, byId_ids hdeps, ?_⟩, ?_, hledger, hsub⟩
  · rw [hof]
    exact hserved
  · rw [hturns]
    exact chainLoop_runs (fun id _ n hlast => hups id n hlast) hloop

/-- **Chain gating.**  Of a chain whose ids are distinct strings, a plan is run exactly when the
chain is not stopped before its turn and all it depends on is allowed; a node is reconciled exactly
when its own plan is allowed; and the chain is allowed exactly when all nodes are reconciled. -/
theorem chain_gating {ns : List Val} {ids : List String} (hns : chainNodes chain = .ok ns)
    (hids : ns.map (·.item "iplan_id") = ids.map fun s => .ok (.str s)) (hnodup : ids.Nodup)
    (hrun : runChain h gate executorFor iplans chain w = (.ok result, w')) :
    (∀ n ∈ ns, ∀ id, n.item "iplan_id" = .ok (.str id) → ∃ deps, upstreams n = .ok deps
        ∧ ((result.subLedgers.lookup id).isSome ↔ id ∈ turnsOf h gate executorFor iplans ns w
          ∧ ∀ d ∈ deps, SubAllowed result.subLedgers d))
      ∧ List.Forall₂ (fun id node => node.lookup "iplan_id" = some (.str id)
          ∧ ∃ b, node.lookup "reconciled" = some (.bool b)
            ∧ (b = true ↔ SubAllowed result.subLedgers id))
        ids result.chainLedger.iplanChain
      ∧ (result.chainLedger.allowed = true
        ↔ ∀ node ∈ result.chainLedger.iplanChain,
          node.lookup "reconciled" = some (.bool true)) := by
  obtain ⟨ns', nodes, order, st, hns', hnodes, -, hups, ⟨ids', hids', hserved⟩, hruns, hledger,
    hsub⟩ :=
    runChain_runs hrun
  obtain rfl : ns = ns' := Except.ok.inj (hns.symm.trans hns')
  have hnodeIds : ns.map nodeId = ids.map .ok := by
    have hstr : ns.map nodeId = (ns.map (·.item "iplan_id")).map fun x => x >>= fun v =>
      .ok v.pyStr := by
      rw [List.map_map]
      rfl
    rw [hstr, hids, List.map_map]
    rfl
  obtain rfl : ids = ids' := by
    have hmap : ids.map (Except.ok : String → Except PyErr String) = ids'.map .ok :=
      hnodeIds.symm.trans hids'
    exact List.map_injective_iff.mpr (fun a b heq => Except.ok.inj heq) hmap
  rw [hnodup.dedup] at hserved
  have hgated := hruns.gated hserved hnodup
  have hcoherent : Coherent st := hruns.coherent (hserved.perm.nodup_iff.mpr hnodup)
    (fun t _ => ⟨rfl, rfl⟩) fun t => by simp [SubAllowed]
  obtain ⟨hmarked, hallowed, -⟩ := buildChainLedger_ok hledger
  rw [hsub]
  have hflag : ∀ t, ((st.reconciled.lookup t).getD false = true ↔ SubAllowed st.subLedgers t) := by
    intro t
    rw [← hcoherent t]
    cases st.reconciled.lookup t <;> simp
  refine ⟨fun n hn id hid => ?_, ?_, ?_⟩
  · have hnodeId : nodeId n = .ok id := by
      rw [nodeId, hid]
      rfl
    have hlast := lastOf_of_nodup hnodes hnodeIds hnodup hn hnodeId
    exact ⟨depsOf ns id, hups id n hlast, hgated id⟩
  · refine (marked_entries hmarked hids).imp fun id node hentry => ?_
    exact ⟨hentry.1, _, hentry.2, hflag id⟩
  · rw [hallowed]
    exact marked_all hmarked

end Run

end Runtime

section Example

attribute [local instance] cpython

/-- The executor of a steady host, for every plan. -/
def steadyExecutors (_ : String) : Call PyErr MockWorld (Executor MockWorld) :=
  pure {
    execute := (steadyHost []).execute
    compensate := (steadyHost []).compensate
    written := fun _ _ _ => []
    reported := fun _ _ _ => [] }

/-- The same plan under every id. -/
def scriptPlans (_ : String) : Option Manifest := some (scriptManifest [("T1", [])])

/-- A node of a chain. -/
def planNode (id : String) (dependsOn : List String) : Val :=
  .dict [("iplan_id", .str id), ("depends_on", strList dependsOn)]

/-- A plan, and one that waits for a plan the chain does not have. -/
def danglingChain : List Val := [planNode "B" ["X"], planNode "A" []]

lemma danglingChain_returns :
    ∃ result w', runChain (steadyHost []) defaultGate steadyExecutors scriptPlans
        [("iplan_chain", .list danglingChain)] (.fresh []) = (.ok result, w')
      ∧ result.subLedgers.map Prod.fst = ["A"] := by
  obtain ⟨res, w₁, fx, hres⟩ : ∃ res w' fx, run (steadyHost []) ⟨0, 0, defaultGate⟩
      (scriptManifest [("T1", [])]) (.fresh []) = (.ok res, w', fx) :=
    run_of_runEnds (scriptManifest_roots _) (by decide +kernel)
  obtain ⟨x, hx, hplan⟩ : ∃ x, (∀ id w, steadyExecutors id w = (.ok x, w))
      ∧ runPlan (steadyHost []) defaultGate (scriptManifest [("T1", [])]) x (.fresh [])
        = (.ok res, w₁) := by
    refine ⟨_, fun _ _ => rfl, ?_⟩
    have hsame : { (steadyHost []).driving
        { execute := (steadyHost []).execute, compensate := (steadyHost []).compensate,
          written := fun _ _ _ => [], reported := fun _ _ _ => [] } with
        control := fun w => (.running, w) } = steadyHost [] := rfl
    rw [runPlan, hsame, hres]
  have horder : chainOrder danglingChain = .ok ["A", "B"] := eq_ok_of_toOption (by decide +kernel)
  obtain ⟨nodes, hnodes, hA, hB⟩ : ∃ nodes, byId pure danglingChain = .ok nodes
      ∧ lastOf nodes "A" = some (planNode "A" []) ∧ lastOf nodes "B" = some (planNode "B" ["X"]) :=
    ⟨_, rfl, rfl, rfl⟩
  have hturnA : chainTurn (steadyHost []) defaultGate steadyExecutors (lastOf nodes) scriptPlans "A"
      ⟨[], []⟩ (.fresh []) = (.ok (ChainState.record ⟨[], []⟩ "A" res.ledger), w₁) :=
    chainTurn_of_met hA rfl rfl rfl (hx _ _) hplan
  have hturnB : chainTurn (steadyHost []) defaultGate steadyExecutors (lastOf nodes) scriptPlans "B"
      (ChainState.record ⟨[], []⟩ "A" res.ledger) w₁
      = (.ok ((ChainState.record ⟨[], []⟩ "A" res.ledger).skip "B"), w₁) :=
    chainTurn_of_unmet hB rfl rfl
  have hloop : chainLoop (steadyHost []) defaultGate steadyExecutors (lastOf nodes) scriptPlans
      ["A", "B"] ⟨[], []⟩ (.fresh [])
      = (.ok ((ChainState.record ⟨[], []⟩ "A" res.ledger).skip "B"), w₁) :=
    (Call.bind_ok hturnA _).trans (Call.bind_ok hturnB _)
  obtain ⟨C, hC⟩ : ∃ C, buildChainLedger [("iplan_chain", .list danglingChain)] danglingChain
      ((ChainState.record ⟨[], []⟩ "A" res.ledger).skip "B").reconciled = .ok C := by
    rw [buildChainLedger, horder]
    exact ⟨_, rfl⟩
  refine ⟨⟨C, [("A", res.ledger)]⟩, w₁, ?_, rfl⟩
  have hraw : (Val.dict [("iplan_chain", .list danglingChain)]).item "iplan_chain"
      = .ok (.list danglingChain) := rfl
  have hiter : (Val.list danglingChain).iter = .ok danglingChain := rfl
  rw [runChain, hraw, Call.bind_ok (Call.ofExcept_apply _ _), hiter,
    Call.bind_ok (Call.ofExcept_apply _ _), hnodes, Call.bind_ok (Call.ofExcept_apply _ _), horder,
    Call.bind_ok (Call.ofExcept_apply _ _), Call.bind_ok hloop, hC]
  rfl

/-- `A` is run, `B` is not, and neither is the chain allowed. -/
theorem chain_gating_dangling :
    ∃ result w', runChain (steadyHost []) defaultGate steadyExecutors scriptPlans
        [("iplan_chain", .list danglingChain)] (.fresh []) = (.ok result, w')
      ∧ result.subLedgers.map Prod.fst = ["A"]
      ∧ ∃ b, result.chainLedger.iplanChain.map (·.lookup "reconciled")
        = [some (.bool false), some (.bool b)] := by
  obtain ⟨result, w', hrun, hran⟩ := danglingChain_returns
  obtain ⟨-, hentries, -⟩ := chain_gating
    (show chainNodes [("iplan_chain", .list danglingChain)] = .ok danglingChain from rfl)
    (show danglingChain.map (·.item "iplan_id") = ["B", "A"].map fun s => .ok (.str s) from rfl)
    (by decide) hrun
  refine ⟨result, w', hrun, hran, ?_⟩
  generalize result.chainLedger.iplanChain = entries at hentries
  obtain _ | ⟨⟨-, b, hb, hB⟩, _ | ⟨⟨-, a, ha, -⟩, _ | _⟩⟩ := hentries
  have hnot : ¬ SubAllowed result.subLedgers "B" := by
    rintro ⟨L, hL, -⟩
    obtain ⟨before, after, hin, -⟩ := List.lookup_eq_some_iff.mp hL
    have hmem : "B" ∈ result.subLedgers.map Prod.fst := by simp [hin]
    rw [hran] at hmem
    simp at hmem
  obtain rfl : b = false := by
    cases b with
    | false => rfl
    | true => exact absurd (hB.mp rfl) hnot
  exact ⟨a, by simp [ha, hb]⟩

end Example

end IplanRunner
