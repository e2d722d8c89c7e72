import IplanRunner.Foundation.Interleaving

/-!
A thread that is left alone.

* `Platform.Alone`: the calls take the shared state from one to another, by nobody else in between.
* `exists_alone`: a routine can be run alone to its end where each of its calls can be answered.
* `Alone.run`: calls that a body makes alone are a run of the platform, behind any other run.
-/

namespace Foundation

variable {ε Op σ Job : Type} {Res : Op → Type}

namespace Platform

variable (S : Platform ε Op Res σ Job)

/-- The calls are made one after the other, from a state to a state. -/
def Alone : σ → List (Exchange ε Op Res) → σ → Prop
  | s, [], s' => s' = s
  | s, x :: calls, s' => ∃ s₁ jobs, S.effect x.op s x.out s₁ jobs ∧ Alone s₁ calls s'

variable {S}

/-- A routine whose calls can be answered well in every state can be run alone, and is answered
well. -/
theorem exists_alone {α : Type} {kind : Op → Prop} {good : Exchange ε Op Res → Prop}
    (hanswers : ∀ op, kind op → ∀ s, ∃ out s' jobs, S.effect op s out s' jobs ∧ good ⟨op, out⟩)
    {p : Routine ε Op Res α} (h : p.Only kind) (s : σ) :
    ∃ calls out s', p.Does calls out ∧ S.Alone s calls s' ∧ ∀ x ∈ calls, good x := by
  induction p generalizing s with
  | done out => exact ⟨[], out, s, ⟨rfl, rfl⟩, rfl, by simp⟩
  | call op next ih =>
      obtain ⟨r, s₁, jobs, heffect, hgood⟩ := hanswers op h.1 s
      obtain ⟨calls, out, s', hdoes, halone, hcalls⟩ := ih r (h.2 r) s₁
      exact ⟨⟨op, r⟩ :: calls, out, s', ⟨r, calls, rfl, hdoes⟩, ⟨s₁, jobs, heffect, halone⟩,
        List.forall_mem_cons.mpr ⟨hgood, hcalls⟩⟩

variable {P : Pool ε Op Res σ Job} {s' : σ}

/-- What is left of a thread goes on alone. -/
lemma Alone.rest {i : ℕ} {job : Job} {past calls : List (Exchange ε Op Res)}
    {p : Routine ε Op Res Unit} {out : Except ε Unit} (h : S.Alone P.shared calls s')
    (hthread : P.threads[i]? = some ⟨job, past, some p⟩) (hdoes : p.Does calls out) :
    ∃ trail P', S.Run P trail P' ∧ P'.shared = s'
      ∧ trail.map Change.move = calls.map (.call i)
      ∧ P'.threads[i]? = some ⟨job, past ++ calls, some (.done out)⟩ := by
  induction calls generalizing P past p with
  | nil =>
      obtain rfl : s' = P.shared := h
      cases p with
      | done out' =>
          obtain ⟨-, rfl⟩ := hdoes
          exact ⟨[], P, .nil, rfl, rfl, by rwa [List.append_nil]⟩
      | call op next =>
          obtain ⟨_, _, heq, -⟩ := hdoes
          cases heq
  | cons x calls ih =>
      obtain ⟨s₁, jobs, heffect, hrest⟩ := h
      cases p with
      | done out' => cases hdoes.1
      | call op next =>
          obtain ⟨r, rest, heq, hnext⟩ := hdoes
          cases heq
          have hi := (List.getElem?_eq_some_iff.mp hthread).1
          let Q : Pool ε Op Res σ Job :=
            ⟨s₁, P.threads.set i ⟨job, past ++ [⟨op, r⟩], some (next r)⟩ ++ jobs.map S.fresh⟩
          have hstep : S.Step P (.call i ⟨op, r⟩) Q := .call hthread heffect
          have hnow : Q.threads[i]? = some ⟨job, past ++ [⟨op, r⟩], some (next r)⟩ := by
            rw [List.getElem?_append_left (by rwa [List.length_set]), List.getElem?_set_self hi]
          have halone : S.Alone Q.shared calls s' := hrest
          obtain ⟨trail, P', hrun, hshared, hmoves, hthread'⟩ := ih halone hnow hnext
          refine ⟨⟨P, .call i ⟨op, r⟩, Q⟩ :: trail, P', run_cons.mpr ⟨rfl, hstep, hrun⟩, hshared,
            ?_, ?_⟩
          · rw [List.map_cons, List.map_cons, hmoves]
          · rw [hthread', List.append_assoc]
            rfl

/-- **What a body does alone is a run**: its job is started, and its calls follow. -/
theorem Alone.run {job : Job} {calls : List (Exchange ε Op Res)} {out : Except ε Unit}
    (h : S.Alone P.shared calls s') (harrives : S.arrives job)
    (hdoes : (S.body job).Does calls out) :
    ∃ trail P', S.Run P trail P' ∧ P'.shared = s'
      ∧ trail.map Change.move = .start job :: calls.map (.call P.threads.length) := by
  have hstarted : S.Step P (.start job) ⟨P.shared, P.threads ++ [S.fresh job]⟩ := .start harrives
  have hthread : (P.threads ++ [S.fresh job])[P.threads.length]?
      = some ⟨job, [], some (S.body job)⟩ := by
    rw [List.getElem?_append_right (Nat.le_refl _), Nat.sub_self]
    rfl
  have halone : S.Alone (Pool.mk P.shared (P.threads ++ [S.fresh job])).shared calls s' := h
  obtain ⟨trail, P', hrun, hshared, hmoves, -⟩ := halone.rest hthread hdoes
  refine ⟨⟨P, .start job, _⟩ :: trail, P', run_cons.mpr ⟨rfl, hstarted, hrun⟩, hshared, ?_⟩
  rw [List.map_cons, hmoves]

end Platform

end Foundation
