import IplanRunner.Foundation.Interleaving

/-!
Jobs that a platform can be seen without.

* `Platform.Apart`: some of the jobs see a part of the state that the others do not touch, and the
  others start nothing.
* `Apart.foreign`: a call of the others; `Apart.Shadows`: two pools that look the same to the first.
* `Shadows.step`: a call of the others is not seen, and every other step is one of the shadow too.
* `Apart.run`: without the calls of the others a run is a run still, in which the first do the same.
-/

namespace Foundation

variable {ε Op σ Job : Type} {Res : Op → Type}

namespace Platform

/-- Jobs apart from others: what they call goes by their view of the state, which the calls of the
others do not change. -/
structure Apart (S : Platform ε Op Res σ Job) where
  /-- The jobs that may be started at all. -/
  admits : Job → Prop
  mine : Job → Bool
  near : Op → Prop
  away : Op → Prop
  view : σ → σ → Prop
  nearBody : ∀ job, admits job → mine job = true → (S.body job).Only near
  awayBody : ∀ job, admits job → mine job = false → (S.body job).Only away
  refl : ∀ s, view s s
  seen : ∀ op s t out s' jobs, near op → view s t → S.effect op s out s' jobs →
    (∀ job ∈ jobs, admits job) ∧ ∃ t', S.effect op t out t' jobs ∧ view s' t'
  hidden : ∀ op s t out s' jobs, away op → view s t → S.effect op s out s' jobs →
    jobs = [] ∧ view s' t
  recover : ∀ s t, view s t → view (S.recover s) (S.recover t)

namespace Apart

variable {S : Platform ε Op Res σ Job} (A : S.Apart)

/-- The change is a call of the other jobs. -/
def foreign (c : Change ε Op Res σ Job) : Bool :=
  match c.move with
  | .call i _ => c.before.threads[i]?.any fun t => !A.mine t.job
  | _ => false

/-- What an admitted job may call. -/
def calls (job : Job) : Contract ε Op Res where
  allowed _ op := A.admits job → if A.mine job then A.near op else A.away op
  expected _ := True

/-- Every thread is of an admitted job and keeps to what it may call. -/
def Admitted (P : Pool ε Op Res σ Job) : Prop :=
  (∀ t ∈ P.threads, A.admits t.job) ∧ Platform.Kept A.calls P

/-- The second pool looks like the first to the jobs apart. -/
structure Shadows (P Q : Pool ε Op Res σ Job) : Prop where
  view : A.view P.shared Q.shared
  length : Q.threads.length = P.threads.length
  threads : ∀ (i : ℕ) (t : Thread ε Op Res Job), P.threads[i]? = some t →
    ∃ t', Q.threads[i]? = some t' ∧ t'.job = t.job ∧ (A.mine t.job = true → t' = t)

variable {A} {P P' P₀ Q : Pool ε Op Res σ Job} {m : ThreadMove ε Op Res Job}
  {trail : List (Change ε Op Res σ Job)}

lemma meets_calls (job : Job) : (S.body job).Meets (A.calls job) [] fun _ _ => True := by
  by_cases hjob : A.admits job
  · cases hmine : A.mine job with
    | true =>
        refine ((A.nearBody job hjob hmine).meets fun _ op hop _ => ?_).mono fun _ _ _ _ => trivial
        rwa [if_pos hmine]
    | false =>
        refine ((A.awayBody job hjob hmine).meets fun _ op hop _ => ?_).mono fun _ _ _ _ => trivial
        rwa [if_neg (by simp [hmine])]
  · refine (Routine.meets_of_comes fun calls op _ hadmits => ?_).mono fun _ _ _ _ => trivial
    exact absurd hadmits hjob

lemma Shadows.refl (P : Pool ε Op Res σ Job) : A.Shadows P P :=
  ⟨A.refl P.shared, rfl, fun _ t ht => ⟨t, ht, rfl, fun _ => rfl⟩⟩

/-- Threads that are added to both pools keep them alike. -/
lemma Shadows.append (h : A.Shadows P Q) {s s' : σ} (hview : A.view s s')
    (more : List (Thread ε Op Res Job)) :
    A.Shadows ⟨s, P.threads ++ more⟩ ⟨s', Q.threads ++ more⟩ := by
  refine ⟨hview, by simp [h.length], fun i t ht => ?_⟩
  rcases Nat.lt_or_ge i P.threads.length with hi | hi
  · rw [List.getElem?_append_left hi] at ht
    rw [List.getElem?_append_left (by rwa [h.length])]
    exact h.threads i t ht
  · rw [List.getElem?_append_right hi] at ht
    rw [List.getElem?_append_right (by rwa [h.length]), h.length]
    exact ⟨t, ht, rfl, fun _ => rfl⟩

/-- A thread that is replaced in both pools keeps them alike. -/
lemma Shadows.set (h : A.Shadows P Q) {s s' : σ} (hview : A.view s s') (i : ℕ)
    {t t' : Thread ε Op Res Job} (hjob : t'.job = t.job) (hsame : A.mine t.job = true → t' = t) :
    A.Shadows ⟨s, P.threads.set i t⟩ ⟨s', Q.threads.set i t'⟩ := by
  refine ⟨hview, by simp [h.length], fun j u hu => ?_⟩
  by_cases hij : i = j
  · subst hij
    rcases Nat.lt_or_ge i P.threads.length with hi | hi
    · rw [List.getElem?_set_self hi] at hu
      cases hu
      exact ⟨t', List.getElem?_set_self (by rwa [h.length]), hjob, hsame⟩
    · rw [List.getElem?_eq_none (by rwa [List.length_set])] at hu
      cases hu
  · rw [List.getElem?_set_ne hij] at hu ⊢
    exact h.threads j u hu

/-- **What a step is to the jobs apart**: a call of the others is not seen, and any other step is a
step of the shadow. -/
theorem Shadows.step (h : S.Step P m P') (hP : A.Admitted P) (hPQ : A.Shadows P Q) :
    A.foreign ⟨P, m, P'⟩ = true ∧ A.Shadows P' Q
      ∨ A.foreign ⟨P, m, P'⟩ = false
        ∧ ∃ Q', S.Step Q m Q' ∧ A.foreign ⟨Q, m, Q'⟩ = false ∧ A.Shadows P' Q' := by
  cases h with
  | @start job harrives =>
      exact Or.inr ⟨rfl, _, .start harrives, rfl, hPQ.append hPQ.view [S.fresh job]⟩
  | restart =>
      refine Or.inr ⟨rfl, _, .restart, rfl, A.recover _ _ hPQ.view, by simp [hPQ.length], ?_⟩
      intro i t ht
      rw [List.getElem?_map, Option.map_eq_some_iff] at ht
      obtain ⟨u, hu, rfl⟩ := ht
      obtain ⟨u', hu', hjob, hsame⟩ := hPQ.threads i u hu
      exact ⟨u'.killed, by rw [List.getElem?_map, hu']; rfl, hjob, fun hmine => by rw [hsame hmine]⟩
  | @kill i t hthread =>
      obtain ⟨t', ht', hjob, hsame⟩ := hPQ.threads i t hthread
      refine Or.inr ⟨rfl, _, .kill ht', rfl, ?_⟩
      exact hPQ.set hPQ.view i hjob fun hmine => by rw [hsame hmine]
  | @call i job past op next out s jobs hthread heffect =>
      obtain ⟨t', ht', hjob, hsame⟩ := hPQ.threads i _ hthread
      have hmem := List.mem_of_getElem? hthread
      have hallowed : A.admits job → if A.mine job then A.near op else A.away op :=
        (hP.2 _ hmem _ rfl).1
      have hadmits := hallowed (hP.1 _ hmem)
      cases hmine : A.mine job with
      | true =>
          rw [if_pos hmine] at hadmits
          obtain rfl := hsame hmine
          obtain ⟨-, s', heffect', hview⟩ := A.seen op _ _ out _ jobs hadmits hPQ.view heffect
          refine Or.inr ⟨?_, _, .call ht' heffect', ?_, ?_⟩
          · simp [foreign, hthread, hmine]
          · simp [foreign, ht', hmine]
          · exact (hPQ.set hPQ.view i rfl fun _ => rfl).append hview _
      | false =>
          rw [if_neg (by simp [hmine])] at hadmits
          obtain ⟨rfl, hview⟩ := A.hidden op _ _ out _ jobs hadmits hPQ.view heffect
          refine Or.inl ⟨by simp [foreign, hthread, hmine], hview, by simp [hPQ.length], ?_⟩
          intro j u hu
          rw [List.map_nil, List.append_nil] at hu
          by_cases hij : i = j
          · subst hij
            rw [List.getElem?_set_self (List.getElem?_eq_some_iff.mp hthread).1] at hu
            cases hu
            exact ⟨t', ht', hjob, fun heq => by rw [hmine] at heq; cases heq⟩
          · rw [List.getElem?_set_ne hij] at hu
            exact hPQ.threads j u hu

/-- A step starts admitted jobs only, where the one from outside is. -/
lemma Admitted.step (h : S.Step P m P') (hstart : ∀ job, m = .start job → A.admits job)
    (hP : A.Admitted P) : A.Admitted P' := by
  refine ⟨fun t' ht' => ?_, h.meets (fun _ _ _ _ _ => trivial) hP.2 meets_calls⟩
  obtain ⟨j, hj⟩ := List.mem_iff_getElem?.mp ht'
  rcases h.thread hj with ⟨t, ht, hjob, -⟩ | ⟨-, job, rfl, hm | ⟨i, x, jobs, rfl, heffect, hin⟩⟩
  · rw [hjob]
    exact hP.1 t (List.mem_of_getElem? ht)
  · exact hstart job hm
  · obtain ⟨t, ht, hallowed, -⟩ := h.allowed hP.2
    have hadmits := hallowed (hP.1 t (List.mem_of_getElem? ht))
    split_ifs at hadmits
    · exact (A.seen _ _ _ _ _ _ hadmits (A.refl _) heffect).1 job hin
    · rw [(A.hidden _ _ _ _ _ _ hadmits (A.refl _) heffect).1] at hin
      cases hin

/-- **Without the calls of the others a run is a run still**, in which the jobs apart do the same
and see the same. -/
theorem run (h : S.Run P₀ trail P) (hinit : A.Admitted P₀)
    (hstart : ∀ c ∈ trail, ∀ job, c.move = .start job → A.admits job) :
    ∃ trail' P', S.Run P₀ trail' P' ∧ (∀ c ∈ trail', A.foreign c = false)
      ∧ trail'.map Change.move = (trail.filter fun c => !A.foreign c).map Change.move
      ∧ A.Shadows P P' := by
  have hboth : A.Admitted P ∧ ∃ trail' P', S.Run P₀ trail' P' ∧ (∀ c ∈ trail', A.foreign c = false)
      ∧ trail'.map Change.move = (trail.filter fun c => !A.foreign c).map Change.move
      ∧ A.Shadows P P' := by
    induction h with
    | nil => exact ⟨hinit, [], P₀, .nil, by simp, rfl, .refl P₀⟩
    | @snoc trail P m P' hrun hstep ih =>
        obtain ⟨hP, trail', Q, hrun', hown, hmoves, hPQ⟩ :=
          ih fun c hc => hstart c (List.mem_append_left _ hc)
        refine ⟨hP.step hstep (hstart ⟨P, m, P'⟩ (by simp)), ?_⟩
        rcases hPQ.step hstep hP with ⟨hforeign, hshadow⟩ | ⟨hforeign, Q', hstep', hown', hshadow⟩
        · refine ⟨trail', Q, hrun', hown, ?_, hshadow⟩
          rw [List.filter_append, List.filter_cons_of_neg (by simp [hforeign]), List.filter_nil,
            List.append_nil, hmoves]
        · refine ⟨trail' ++ [⟨Q, m, Q'⟩], Q', hrun'.snoc hstep', ?_, ?_, hshadow⟩
          · rw [List.forall_mem_append]
            exact ⟨hown, by simpa using hown'⟩
          · have hkept : [⟨P, m, P'⟩].filter (fun c => !A.foreign c) = [⟨P, m, P'⟩] := by
              simp [hforeign]
            rw [List.filter_append, hkept, List.map_append, List.map_append, hmoves]
            rfl
  exact hboth.2

end Apart

end Platform

end Foundation
