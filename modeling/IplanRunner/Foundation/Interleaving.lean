import Mathlib.Data.List.Induction
import IplanRunner.Foundation.Routine

/-!
Threads that run routines over one shared state, in any order and with crashes.

* `Platform`: the bodies of the jobs and what one call does to the shared state; a call may start
  further jobs.
* `Platform.Step`, `Platform.Run`: a thread is started, makes its next call or is killed, or all of
  them are lost in a restart.
* `Step.thread`: what a step does to a thread; `Run.invariant`: what every step keeps, every run
  keeps; `Run.does`, `Run.made`: the calls of a thread; `Run.meets`: every thread keeps the contract
  its body meets.
* `AnswerBook`, `play`: a run played from a list of cues; `play_run`: it is a run.
-/

namespace Foundation

/-- The jobs, their bodies, and what a call does to the shared state. -/
structure Platform (ε Op : Type) (Res : Op → Type) (σ Job : Type) where
  body : Job → Routine ε Op Res Unit
  /-- The jobs that are started from outside. -/
  arrives : Job → Prop
  /-- The answers of a call, the state it leaves and the jobs it starts. -/
  effect : (op : Op) → σ → Except ε (Res op) → σ → List Job → Prop
  /-- What a restart leaves of the state. -/
  recover : σ → σ

variable {ε Op σ Job : Type} {Res : Op → Type}

/-- A thread: its calls so far, and what is left of its body unless it was killed. -/
structure Thread (ε Op : Type) (Res : Op → Type) (Job : Type) where
  job : Job
  past : List (Exchange ε Op Res)
  left : Option (Routine ε Op Res Unit)

/-- The shared state and the threads ever started. -/
structure Pool (ε Op : Type) (Res : Op → Type) (σ Job : Type) where
  shared : σ
  threads : List (Thread ε Op Res Job)

/-- One move of a run. -/
inductive ThreadMove (ε Op : Type) (Res : Op → Type) (Job : Type) where
  | start (job : Job)
  | call (i : ℕ) (exchange : Exchange ε Op Res)
  | kill (i : ℕ)
  | restart

/-- A move with the pools before and after it. -/
structure Change (ε Op : Type) (Res : Op → Type) (σ Job : Type) where
  before : Pool ε Op Res σ Job
  move : ThreadMove ε Op Res Job
  after : Pool ε Op Res σ Job

/-- A thread that is stopped where it is. -/
def Thread.killed (t : Thread ε Op Res Job) : Thread ε Op Res Job := { t with left := none }

namespace Platform

variable (S : Platform ε Op Res σ Job)

/-- A thread at the beginning of its body. -/
def fresh (job : Job) : Thread ε Op Res Job := ⟨job, [], some (S.body job)⟩

/-- A step. -/
inductive Step : Pool ε Op Res σ Job → ThreadMove ε Op Res Job → Pool ε Op Res σ Job → Prop
  | start {P job} (harrives : S.arrives job) :
      Step P (.start job) ⟨P.shared, P.threads ++ [S.fresh job]⟩
  | call {P i job past op next out s jobs}
      (hthread : P.threads[i]? = some ⟨job, past, some (.call op next)⟩)
      (heffect : S.effect op P.shared out s jobs) :
      Step P (.call i ⟨op, out⟩)
        ⟨s, P.threads.set i ⟨job, past ++ [⟨op, out⟩], some (next out)⟩ ++ jobs.map S.fresh⟩
  | kill {P i t} (hthread : P.threads[i]? = some t) :
      Step P (.kill i) ⟨P.shared, P.threads.set i t.killed⟩
  | restart {P} : Step P .restart ⟨S.recover P.shared, P.threads.map Thread.killed⟩

/-- A run, with its changes in order. -/
inductive Run (P₀ : Pool ε Op Res σ Job) :
    List (Change ε Op Res σ Job) → Pool ε Op Res σ Job → Prop
  | nil : Run P₀ [] P₀
  | snoc {trail P m P'} (hrun : Run P₀ trail P) (hstep : S.Step P m P') :
      Run P₀ (trail ++ [⟨P, m, P'⟩]) P'

variable {S} {P P' P₀ : Pool ε Op Res σ Job} {m : ThreadMove ε Op Res Job}
  {trail : List (Change ε Op Res σ Job)}

/-! ### One step -/

/-- **What a step does to a thread**: it keeps its job, and its calls grow by the call it makes; a
new thread has been started from outside or by a call. -/
theorem Step.thread (h : S.Step P m P') {j : ℕ} {t' : Thread ε Op Res Job}
    (ht' : P'.threads[j]? = some t') :
    (∃ t, P.threads[j]? = some t ∧ t'.job = t.job
      ∧ (t'.past = t.past ∧ (t'.left = t.left ∨ t'.left = none)
        ∨ ∃ op next out, m = .call j ⟨op, out⟩ ∧ t.left = some (.call op next)
          ∧ t'.past = t.past ++ [⟨op, out⟩] ∧ t'.left = some (next out)))
      ∨ P.threads[j]? = none ∧ ∃ job, t' = S.fresh job ∧ (m = .start job
        ∨ ∃ i x jobs, m = .call i x ∧ S.effect x.op P.shared x.out P'.shared jobs
          ∧ job ∈ jobs) := by
  cases h with
  | start harrives =>
      rcases Nat.lt_or_ge j P.threads.length with hj | hj
      · rw [List.getElem?_append_left hj] at ht'
        exact Or.inl ⟨t', ht', rfl, Or.inl ⟨rfl, Or.inl rfl⟩⟩
      · rw [List.getElem?_append_right hj] at ht'
        have hmem := List.mem_of_getElem? ht'
        rw [List.mem_singleton] at hmem
        exact Or.inr ⟨List.getElem?_eq_none hj, _, hmem, Or.inl rfl⟩
  | @call i job past op next out s jobs hthread heffect =>
      rcases Nat.lt_or_ge j P.threads.length with hj | hj
      · rw [List.getElem?_append_left (by rwa [List.length_set])] at ht'
        by_cases hij : i = j
        · subst hij
          rw [List.getElem?_set_self hj, Option.some.injEq] at ht'
          subst ht'
          exact Or.inl ⟨_, hthread, rfl, Or.inr ⟨op, next, out, rfl, rfl, rfl, rfl⟩⟩
        · rw [List.getElem?_set_ne hij] at ht'
          exact Or.inl ⟨t', ht', rfl, Or.inl ⟨rfl, Or.inl rfl⟩⟩
      · rw [List.getElem?_append_right (by rwa [List.length_set])] at ht'
        obtain ⟨job', hjob', hfresh⟩ := List.mem_map.mp (List.mem_of_getElem? ht')
        exact Or.inr ⟨List.getElem?_eq_none hj, job', hfresh.symm,
          Or.inr ⟨i, ⟨op, out⟩, jobs, rfl, heffect, hjob'⟩⟩
  | @kill i t hthread =>
      by_cases hij : i = j
      · subst hij
        have hj := (List.getElem?_eq_some_iff.mp hthread).1
        rw [List.getElem?_set_self hj, Option.some.injEq] at ht'
        subst ht'
        exact Or.inl ⟨t, hthread, rfl, Or.inl ⟨rfl, Or.inr rfl⟩⟩
      · rw [List.getElem?_set_ne hij] at ht'
        exact Or.inl ⟨t', ht', rfl, Or.inl ⟨rfl, Or.inl rfl⟩⟩
  | restart =>
      rw [List.getElem?_map, Option.map_eq_some_iff] at ht'
      obtain ⟨t, ht, rfl⟩ := ht'
      exact Or.inl ⟨t, ht, rfl, Or.inl ⟨rfl, Or.inr rfl⟩⟩

/-- **What a step does to the shared state.** -/
theorem Step.shared (h : S.Step P m P') :
    P'.shared = P.shared ∨ P'.shared = S.recover P.shared
      ∨ ∃ i op out jobs, m = .call i ⟨op, out⟩ ∧ S.effect op P.shared out P'.shared jobs := by
  cases h with
  | start harrives => exact Or.inl rfl
  | call hthread heffect => exact Or.inr (Or.inr ⟨_, _, _, _, rfl, heffect⟩)
  | kill hthread => exact Or.inl rfl
  | restart => exact Or.inr (Or.inl rfl)

/-- What a call changes in the shared state. -/
lemma Step.call_effect {i : ℕ} {x : Exchange ε Op Res} (h : S.Step P (.call i x) P') :
    ∃ jobs, S.effect x.op P.shared x.out P'.shared jobs := by
  cases h with
  | call hthread heffect => exact ⟨_, heffect⟩

/-- A thread that is there stays there. -/
lemma Step.thread_stays (h : S.Step P m P') {j : ℕ} {t : Thread ε Op Res Job}
    (ht : P.threads[j]? = some t) :
    ∃ t', P'.threads[j]? = some t' ∧ t'.job = t.job ∧ t.past <+: t'.past := by
  have hlen : P.threads.length ≤ P'.threads.length := by
    cases h with
    | start => simp
    | call => simp
    | kill => simp
    | restart => simp
  have hj : j < P'.threads.length := Nat.lt_of_lt_of_le (List.getElem?_eq_some_iff.mp ht).1 hlen
  obtain ⟨t', ht'⟩ : ∃ t', P'.threads[j]? = some t' := ⟨_, List.getElem?_eq_getElem hj⟩
  refine ⟨t', ht', ?_⟩
  rcases h.thread ht' with ⟨t₀, ht₀, hjob, hpast⟩ | ⟨hnone, -⟩
  · rw [ht] at ht₀
    cases ht₀
    refine ⟨hjob, ?_⟩
    rcases hpast with ⟨hsame, -⟩ | ⟨op, next, out, -, -, hgrown, -⟩
    · exact hsame ▸ List.prefix_refl _
    · rw [hgrown]
      exact List.prefix_append _ _
  · rw [ht] at hnone
    cases hnone

/-! ### Runs -/

/-- A run can be cut at every change. -/
theorem run_append {a b : List (Change ε Op Res σ Job)} :
    S.Run P₀ (a ++ b) P ↔ ∃ Q, S.Run P₀ a Q ∧ S.Run Q b P := by
  constructor
  · intro h
    induction b using List.reverseRecOn generalizing P with
    | nil => exact ⟨P, by simpa using h, .nil⟩
    | append_singleton b c ih =>
        rw [← List.append_assoc] at h
        generalize htrail : (a ++ b) ++ [c] = trail at h
        cases h with
        | nil => simp at htrail
        | snoc hrun hstep =>
            obtain ⟨hinit, hlast⟩ := List.append_inj' htrail rfl
            subst hinit
            cases hlast
            obtain ⟨Q, hQ, hb⟩ := ih hrun
            exact ⟨Q, hQ, hb.snoc hstep⟩
  · rintro ⟨Q, ha, hb⟩
    induction hb with
    | nil => simpa using ha
    | snoc hrun hstep ih =>
        rw [← List.append_assoc]
        exact ih.snoc hstep

/-- The first change of a run is a step, and the others are a run. -/
theorem run_cons {c : Change ε Op Res σ Job} :
    S.Run P₀ (c :: trail) P ↔ c.before = P₀ ∧ S.Step P₀ c.move c.after ∧ S.Run c.after trail P := by
  have hone : ∀ Q, S.Run P₀ [c] Q ↔ c.before = P₀ ∧ S.Step P₀ c.move c.after ∧ Q = c.after := by
    intro Q
    constructor
    · intro h
      generalize htrail : [c] = trail at h
      cases h with
      | nil => cases htrail
      | @snoc front _ _ _ hrun hstep =>
          obtain ⟨hinit, hlast⟩ := List.append_inj' (show ([] : List _) ++ [c] = _ from htrail) rfl
          cases hlast
          generalize front = first at hrun hinit
          cases hrun with
          | nil => exact ⟨rfl, hstep, rfl⟩
          | snoc => simp at hinit
    · rintro ⟨rfl, hstep, rfl⟩
      exact Run.nil.snoc hstep
  constructor
  · intro h
    obtain ⟨Q, hfirst, hrest⟩ := run_append.mp (show S.Run P₀ ([c] ++ trail) P from h)
    obtain ⟨hbefore, hstep, rfl⟩ := (hone Q).mp hfirst
    exact ⟨hbefore, hstep, hrest⟩
  · rintro ⟨hbefore, hstep, hrest⟩
    exact run_append.mpr ⟨c.after, (hone _).mpr ⟨hbefore, hstep, rfl⟩, hrest⟩

/-- A change of a run is a step, between what was reached before it and what followed. -/
lemma Run.step_of_mem (h : S.Run P₀ trail P) {c : Change ε Op Res σ Job} (hc : c ∈ trail) :
    ∃ before after, trail = before ++ c :: after ∧ S.Run P₀ before c.before
      ∧ S.Step c.before c.move c.after := by
  obtain ⟨before, after, rfl⟩ := List.append_of_mem hc
  obtain ⟨Q, hbefore, hrest⟩ := run_append.mp h
  obtain ⟨rfl, hstep, -⟩ := run_cons.mp hrest
  exact ⟨before, after, rfl, hbefore, hstep⟩

/-- **What every step keeps, every run keeps.** -/
theorem Run.invariant (h : S.Run P₀ trail P) (ok : Change ε Op Res σ Job → Prop)
    (I : Pool ε Op Res σ Job → Prop)
    (hstep : ∀ P m P', S.Step P m P' → ok ⟨P, m, P'⟩ → I P → I P')
    (hok : ∀ c ∈ trail, ok c) (hinit : I P₀) : I P := by
  induction h with
  | nil => exact hinit
  | snoc hrun hs ih =>
      refine hstep _ _ _ hs (hok _ (by simp)) (ih fun c hc => hok c ?_)
      exact List.mem_append_left _ hc

/-- What is left of a thread is what its body goes on with after its calls. -/
def Follows (S : Platform ε Op Res σ Job) (P : Pool ε Op Res σ Job) : Prop :=
  ∀ t ∈ P.threads, ∀ p, t.left = some p → ∀ calls out, p.Does calls out →
    (S.body t.job).Does (t.past ++ calls) out

/-- A step keeps the threads at their bodies. -/
lemma Step.follows (h : S.Step P m P') (hP : Follows S P) : Follows S P' := by
  intro t' ht' p hp calls out hdoes
  obtain ⟨j, hj⟩ := List.mem_iff_getElem?.mp ht'
  rcases h.thread hj with ⟨t, ht, hjob, ⟨hpast, hleft⟩ | ⟨op, next, r, -, hleft, hpast, hleft'⟩⟩
      | ⟨-, job, rfl, -⟩
  · rcases hleft with hleft | hleft
    · rw [hjob, hpast]
      exact hP t (List.mem_of_getElem? ht) p (hleft ▸ hp) calls out hdoes
    · rw [hleft] at hp
      cases hp
  · rw [hleft'] at hp
    cases hp
    rw [hjob, hpast, List.append_assoc]
    exact hP t (List.mem_of_getElem? ht) _ hleft _ out ⟨r, calls, rfl, hdoes⟩
  · cases hp
    exact hdoes

/-- **The calls of a thread that has ended are a run of its body.** -/
theorem Run.does (h : S.Run P₀ trail P) (hstart : P₀.threads = []) {t : Thread ε Op Res Job}
    (ht : t ∈ P.threads) {out : Except ε Unit} (hleft : t.left = some (.done out)) :
    (S.body t.job).Does t.past out := by
  have hfollows : Follows S P := by
    refine h.invariant (fun _ => True) (Follows S) (fun _ _ _ hs _ hQ => hs.follows hQ)
      (fun _ _ => trivial) ?_
    rw [Follows, hstart]
    exact fun t ht => absurd ht List.not_mem_nil
  simpa using hfollows t ht _ hleft [] out ⟨rfl, rfl⟩

/-- **Every call of a thread has been made in a change of the run.** -/
theorem Run.made (h : S.Run P₀ trail P) (hstart : P₀.threads = []) {i : ℕ}
    {t : Thread ε Op Res Job} (ht : P.threads[i]? = some t) {x : Exchange ε Op Res}
    (hx : x ∈ t.past) : ∃ c ∈ trail, c.move = .call i x := by
  induction h generalizing t with
  | nil =>
      rw [hstart] at ht
      cases ht
  | snoc hrun hstep ih =>
      rcases hstep.thread ht with ⟨t₀, ht₀, -, ⟨hpast, -⟩ | ⟨op, next, out, rfl, -, hpast, -⟩⟩
          | ⟨-, job, rfl, -⟩
      · obtain ⟨c, hc, hm⟩ := ih ht₀ (hpast ▸ hx)
        exact ⟨c, List.mem_append_left _ hc, hm⟩
      · rw [hpast] at hx
        rcases List.mem_append.mp hx with hx | hx
        · obtain ⟨c, hc, hm⟩ := ih ht₀ hx
          exact ⟨c, List.mem_append_left _ hc, hm⟩
        · rw [List.mem_singleton.mp hx]
          exact ⟨_, List.mem_append_right _ (List.mem_singleton_self _), rfl⟩
      · cases hx

/-- **A call made in a change of the run is one of its thread's calls.** -/
theorem Run.recorded (h : S.Run P₀ trail P) {c : Change ε Op Res σ Job} (hc : c ∈ trail) {i : ℕ}
    {x : Exchange ε Op Res} (hm : c.move = .call i x) {t : Thread ε Op Res Job}
    (ht : P.threads[i]? = some t) : x ∈ t.past := by
  obtain ⟨before, after, rfl⟩ := List.append_of_mem hc
  obtain ⟨Q, -, hrest⟩ := run_append.mp h
  obtain ⟨-, hstep, hafter⟩ := run_cons.mp hrest
  rw [hm] at hstep
  have hthere : ∃ u, c.after.threads[i]? = some u ∧ x ∈ u.past := by
    generalize c.after = R at hstep
    cases hstep with
    | @call _ job past op next out s jobs hthread heffect =>
        have hi := (List.getElem?_eq_some_iff.mp hthread).1
        refine ⟨⟨job, past ++ [⟨op, out⟩], some (next out)⟩, ?_, ?_⟩
        · rw [List.getElem?_append_left (by rwa [List.length_set]), List.getElem?_set_self hi]
        · exact List.mem_append_right _ (List.mem_singleton_self _)
  obtain ⟨u, hu, hx⟩ := hafter.invariant (fun _ => True)
    (fun R => ∃ u, R.threads[i]? = some u ∧ x ∈ u.past)
    (fun R m R' hs _ ⟨u, hu, hx⟩ => by
      obtain ⟨u', hu', -, hpast⟩ := hs.thread_stays hu
      exact ⟨u', hu', hpast.subset hx⟩) (fun _ _ => trivial) hthere
  rw [ht, Option.some.injEq] at hu
  rwa [hu]

/-! ### Contracts -/

/-- What is left of every thread meets the contract of its job. -/
def Kept (C : Job → Contract ε Op Res) (P : Pool ε Op Res σ Job) : Prop :=
  ∀ t ∈ P.threads, ∀ p, t.left = some p → p.Meets (C t.job) t.past fun _ _ => True

/-- The answer of a call is as the contract of its thread expects. -/
def AsExpected (C : Job → Contract ε Op Res) (c : Change ε Op Res σ Job) : Prop :=
  ∀ i x t, c.move = .call i x → c.before.threads[i]? = some t → (C t.job).expected x

variable {C : Job → Contract ε Op Res}

/-- A step keeps the contracts. -/
theorem Step.meets (h : S.Step P m P') (hexpected : AsExpected C ⟨P, m, P'⟩) (hP : Kept C P)
    (hbody : ∀ job, (S.body job).Meets (C job) [] fun _ _ => True) : Kept C P' := by
  intro t' ht' p hp
  obtain ⟨j, hj⟩ := List.mem_iff_getElem?.mp ht'
  rcases h.thread hj with ⟨t, ht, hjob, ⟨hpast, hleft⟩ | ⟨op, next, out, hm, hleft, hpast, hleft'⟩⟩
      | ⟨-, job, rfl, -⟩
  · rcases hleft with hleft | hleft
    · rw [hjob, hpast]
      exact hP t (List.mem_of_getElem? ht) p (hleft ▸ hp)
    · rw [hleft] at hp
      cases hp
  · rw [hleft'] at hp
    cases hp
    have hmeets := hP t (List.mem_of_getElem? ht) _ hleft
    rw [hjob, hpast]
    exact hmeets.2 out (hexpected j _ t hm ht)
  · cases hp
    exact hbody job

/-- **Every thread keeps the contract its body meets.** -/
theorem Run.meets (h : S.Run P₀ trail P) (hexpected : ∀ c ∈ trail, AsExpected C c)
    (hbody : ∀ job, (S.body job).Meets (C job) [] fun _ _ => True) (hinit : Kept C P₀) :
    Kept C P :=
  h.invariant (AsExpected C) (Kept C) (fun _ _ _ hs hok hP => hs.meets hok hP hbody) hexpected hinit

/-- A call that is made is allowed. -/
lemma Step.allowed {i : ℕ} {x : Exchange ε Op Res} (h : S.Step P (.call i x) P') (hP : Kept C P) :
    ∃ t, P.threads[i]? = some t ∧ (C t.job).allowed t.past x.op
      ∧ ∃ t', P'.threads[i]? = some t' ∧ t'.job = t.job ∧ t'.past = t.past ++ [x] := by
  cases h with
  | @call _ job past op next out s jobs hthread heffect =>
      have hmeets := hP _ (List.mem_of_getElem? hthread) _ rfl
      have hi := (List.getElem?_eq_some_iff.mp hthread).1
      refine ⟨_, hthread, hmeets.1, ⟨job, past ++ [⟨op, out⟩], some (next out)⟩, ?_, rfl, rfl⟩
      rw [List.getElem?_append_left (by rwa [List.length_set]), List.getElem?_set_self hi]

end Platform

/-! ### Played runs -/

/-- AnswerBook of the calls of a platform, each picked by a choice. -/
structure AnswerBook (S : Platform ε Op Res σ Job) (Choice : Type) where
  starts : Job → Bool
  answer : (op : Op) → σ → Choice → Option (Except ε (Res op) × σ × List Job)
  arrives : ∀ job, starts job = true → S.arrives job
  effect : ∀ op s choice out s' jobs, answer op s choice = some (out, s', jobs) →
    S.effect op s out s' jobs

/-- What happens next in a played run. -/
inductive Cue (Job Choice : Type) where
  | start (job : Job)
  | call (i : ℕ) (choice : Choice)
  | kill (i : ℕ)
  | restart

namespace AnswerBook

variable {S : Platform ε Op Res σ Job} {Choice : Type} (A : AnswerBook S Choice)

/-- The next call of a thread, with the answer that is picked for it. -/
def callThread (P : Pool ε Op Res σ Job) (i : ℕ) (choice : Choice) :
    Option (ThreadMove ε Op Res Job × Pool ε Op Res σ Job) :=
  match P.threads[i]? with
  | some ⟨job, past, some (.call op next)⟩ =>
      (A.answer op P.shared choice).map fun r =>
        (.call i ⟨op, r.1⟩, ⟨r.2.1,
          P.threads.set i ⟨job, past ++ [⟨op, r.1⟩], some (next r.1)⟩ ++ r.2.2.map S.fresh⟩)
  | _ => none

/-- One cue. -/
def playCue (P : Pool ε Op Res σ Job) :
    Cue Job Choice → Option (ThreadMove ε Op Res Job × Pool ε Op Res σ Job)
  | .start job =>
      if A.starts job then some (.start job, ⟨P.shared, P.threads ++ [S.fresh job]⟩) else none
  | .call i choice => A.callThread P i choice
  | .kill i => P.threads[i]?.map fun t => (.kill i, ⟨P.shared, P.threads.set i t.killed⟩)
  | .restart => some (.restart, ⟨S.recover P.shared, P.threads.map Thread.killed⟩)

/-- The cues one after the other. -/
def play (P : Pool ε Op Res σ Job) :
    List (Cue Job Choice) → Option (List (Change ε Op Res σ Job) × Pool ε Op Res σ Job)
  | [] => some ([], P)
  | cue :: rest =>
      match A.playCue P cue with
      | none => none
      | some (m, P') => (play P' rest).map fun r => (⟨P, m, P'⟩ :: r.1, r.2)

lemma playCue_step {P P' : Pool ε Op Res σ Job} {cue : Cue Job Choice}
    {m : ThreadMove ε Op Res Job} (h : A.playCue P cue = some (m, P')) : S.Step P m P' := by
  cases cue with
  | start job =>
      rw [playCue] at h
      split_ifs at h with hstarts
      cases h
      exact .start (A.arrives job hstarts)
  | call i choice =>
      rw [playCue, callThread] at h
      split at h
      · rename_i job past op next hthread
        obtain ⟨⟨out, s', jobs⟩, hanswer, heq⟩ := Option.map_eq_some_iff.mp h
        cases heq
        exact .call hthread (A.effect op P.shared choice out s' jobs hanswer)
      · cases h
  | kill i =>
      obtain ⟨t, ht, heq⟩ := Option.map_eq_some_iff.mp h
      cases heq
      exact .kill ht
  | restart =>
      cases h
      exact .restart

/-- **A played run is a run.** -/
theorem play_run {P P' : Pool ε Op Res σ Job} {cues : List (Cue Job Choice)}
    {trail : List (Change ε Op Res σ Job)} (h : A.play P cues = some (trail, P')) :
    S.Run P trail P' := by
  induction cues generalizing P trail with
  | nil =>
      cases h
      exact .nil
  | cons cue rest ih =>
      rw [play] at h
      split at h
      · cases h
      · rename_i m Q hcue
        obtain ⟨⟨trail', P''⟩, hrest, heq⟩ := Option.map_eq_some_iff.mp h
        cases heq
        exact Platform.run_cons.mpr ⟨rfl, A.playCue_step hcue, ih hrest⟩

/-- A played run starts the jobs its cues start. -/
lemma play_starts {P P' : Pool ε Op Res σ Job} {cues : List (Cue Job Choice)}
    {trail : List (Change ε Op Res σ Job)} (h : A.play P cues = some (trail, P')) {job : Job} :
    ∀ c ∈ trail, c.move = .start job → .start job ∈ cues := by
  induction cues generalizing P trail with
  | nil =>
      cases h
      exact fun c hc => absurd hc List.not_mem_nil
  | cons cue rest ih =>
      rw [play] at h
      split at h
      · cases h
      · rename_i m Q hcue
        obtain ⟨⟨trail', P''⟩, hrest, heq⟩ := Option.map_eq_some_iff.mp h
        cases heq
        refine List.forall_mem_cons.mpr ⟨?_, fun c hc hm => ?_⟩
        · rintro rfl
          cases cue with
          | start job' =>
              rw [playCue] at hcue
              split_ifs at hcue
              cases hcue
              exact List.mem_cons_self
          | call i choice =>
              rw [playCue, callThread] at hcue
              split at hcue
              · obtain ⟨r, -, hr⟩ := Option.map_eq_some_iff.mp hcue
                cases hr
              · cases hcue
          | kill i =>
              obtain ⟨t, -, ht⟩ := Option.map_eq_some_iff.mp hcue
              cases ht
          | restart => cases hcue
        · exact List.mem_cons_of_mem _ (ih hrest c hc hm)

end AnswerBook

end Foundation
