import Mathlib.Tactic.Common

/-!
Routines that make calls and may raise, without a meaning of the calls.

* `Routine ε Op Res α`: the tree of a routine; `resume` goes on with what a routine returned or
  raised, and sequencing, `try … except` and `try … finally` are instances of it.
* `Contract`, `Routine.Meets`: what a routine may do next, given what it has done, as long as the
  calls answer as expected; one rule for each way of composing routines.
* `Routine.Only`: every call a routine may ever make is of a kind.
* `Routine.Does`: the calls of a run to the end; `Routine.Comes`: the calls up to a further one.
-/

namespace Foundation

/-- A routine: it has returned or raised, or it makes a call and goes on with what the call returned
or raised. -/
inductive Routine (ε Op : Type) (Res : Op → Type) (α : Type) : Type where
  | done (out : Except ε α)
  | call (op : Op) (next : Except ε (Res op) → Routine ε Op Res α)

/-- A call with what it returned or raised. -/
structure Exchange (ε Op : Type) (Res : Op → Type) : Type where
  op : Op
  out : Except ε (Res op)

variable {ε Op : Type} {Res : Op → Type} {α β : Type}

namespace Routine

/-! ### Composition -/

/-- Goes on with what a routine has returned or raised. -/
def resume : Routine ε Op Res α → (Except ε α → Routine ε Op Res β) → Routine ε Op Res β
  | .done out, f => f out
  | .call op next, f => .call op fun r => (next r).resume f

/-- Goes on with a value, and hands an exception through. -/
def onOk (f : α → Routine ε Op Res β) : Except ε α → Routine ε Op Res β
  | .ok a => f a
  | .error e => .done (.error e)

/-- Goes on with an exception, and hands a value through. -/
def onError (handler : ε → Routine ε Op Res α) : Except ε α → Routine ε Op Res α
  | .ok a => .done (.ok a)
  | .error e => handler e

instance : Monad (Routine ε Op Res) where
  pure a := .done (.ok a)
  bind p f := p.resume (onOk f)

/-- `raise e`. -/
def raise (e : ε) : Routine ε Op Res α := .done (.error e)

/-- A computation without calls that may raise. -/
def lift (x : Except ε α) : Routine ε Op Res α := .done x

/-- One call. -/
def perform (op : Op) : Routine ε Op Res (Res op) := .call op .done

/-- `try: p` with a handler for what `p` raises. -/
def handle (p : Routine ε Op Res α) (handler : ε → Routine ε Op Res α) : Routine ε Op Res α :=
  p.resume (onError handler)

/-- `try: p finally: q`: what `q` raises takes the place of what `p` has done. -/
def finallyDo (p : Routine ε Op Res α) (q : Routine ε Op Res Unit) : Routine ε Op Res α :=
  p.resume fun out => q.resume (onOk fun _ => .done out)

@[simp] lemma pure_eq (a : α) : (pure a : Routine ε Op Res α) = .done (.ok a) := rfl

lemma bind_eq (p : Routine ε Op Res α) (f : α → Routine ε Op Res β) :
    p >>= f = p.resume (onOk f) := rfl

@[simp] lemma resume_done (out : Except ε α) (f : Except ε α → Routine ε Op Res β) :
    (done out).resume f = f out := rfl

@[simp] lemma onOk_ok (f : α → Routine ε Op Res β) (a : α) : onOk f (.ok a) = f a := rfl

@[simp] lemma onOk_error (f : α → Routine ε Op Res β) (e : ε) :
    onOk f (.error e) = .done (.error e) := rfl

@[simp] lemma onError_ok (handler : ε → Routine ε Op Res α) (a : α) :
    onError handler (.ok a) = .done (.ok a) := rfl

@[simp] lemma onError_error (handler : ε → Routine ε Op Res α) (e : ε) :
    onError handler (.error e) = handler e := rfl

lemma resume_resume {γ : Type} (p : Routine ε Op Res α) (f : Except ε α → Routine ε Op Res β)
    (g : Except ε β → Routine ε Op Res γ) :
    (p.resume f).resume g = p.resume fun out => (f out).resume g := by
  induction p with
  | done out => rfl
  | call op next ih => exact congrArg (call op) (funext ih)

/-- Sequencing is associative. -/
lemma bind_assoc {γ : Type} (p : Routine ε Op Res α) (f : α → Routine ε Op Res β)
    (g : β → Routine ε Op Res γ) : (p >>= f) >>= g = p >>= fun a => f a >>= g := by
  simp only [bind_eq, resume_resume]
  congr 1
  funext out
  cases out with
  | ok a => rfl
  | error e => rfl

end Routine

/-! ### Contracts -/

/-- What a routine is allowed to call after what it has done, and what it may expect of an
answer. -/
structure Contract (ε Op : Type) (Res : Op → Type) where
  allowed : List (Exchange ε Op Res) → Op → Prop
  expected : Exchange ε Op Res → Prop

namespace Routine

variable (C : Contract ε Op Res)

/-- After `past`, every further call is allowed, and the end satisfies `Q`, as long as the answers
are as expected. -/
def Meets : Routine ε Op Res α → List (Exchange ε Op Res) →
    (List (Exchange ε Op Res) → Except ε α → Prop) → Prop
  | .done out, past, Q => Q past out
  | .call op next, past, Q => C.allowed past op
      ∧ ∀ out, C.expected ⟨op, out⟩ → (next out).Meets (past ++ [⟨op, out⟩]) Q

variable {C} {past : List (Exchange ε Op Res)}

/-- The rule of consequence. -/
lemma Meets.mono {p : Routine ε Op Res α} {Q Q' : List (Exchange ε Op Res) → Except ε α → Prop}
    (h : p.Meets C past Q) (hQ : ∀ past' out, past <+: past' → Q past' out → Q' past' out) :
    p.Meets C past Q' := by
  induction p generalizing past with
  | done out => exact hQ past out (List.prefix_refl past) h
  | call op next ih =>
      refine ⟨h.1, fun out hout => ih out (h.2 out hout) fun past' out' hpast => ?_⟩
      exact hQ past' out' ((List.prefix_append past _).trans hpast)

/-- **The rule of composition.** -/
lemma meets_resume {p : Routine ε Op Res α} {f : Except ε α → Routine ε Op Res β}
    {Q : List (Exchange ε Op Res) → Except ε β → Prop} :
    (p.resume f).Meets C past Q ↔ p.Meets C past fun past' out => (f out).Meets C past' Q := by
  induction p generalizing past with
  | done out => exact Iff.rfl
  | call op next ih =>
      exact and_congr Iff.rfl (forall_congr' fun out => imp_congr Iff.rfl (ih out))

/-- The rule of a call. -/
lemma meets_perform {op : Op} {Q : List (Exchange ε Op Res) → Except ε (Res op) → Prop} :
    (perform op).Meets C past Q ↔ C.allowed past op
      ∧ ∀ out, C.expected ⟨op, out⟩ → Q (past ++ [⟨op, out⟩]) out := Iff.rfl

/-- The rule of sequencing: an exception of the first part ends both. -/
lemma meets_bind {p : Routine ε Op Res α} {f : α → Routine ε Op Res β}
    {Q : List (Exchange ε Op Res) → Except ε β → Prop} :
    (p >>= f).Meets C past Q
      ↔ p.Meets C past fun past' out => (onOk f out).Meets C past' Q := meets_resume

/-- Sequencing, with the two ways the first part ends set apart. -/
lemma Meets.bind {p : Routine ε Op Res α} {f : α → Routine ε Op Res β}
    {P : List (Exchange ε Op Res) → Except ε α → Prop}
    {Q : List (Exchange ε Op Res) → Except ε β → Prop} (hp : p.Meets C past P)
    (hok : ∀ past' a, P past' (.ok a) → (f a).Meets C past' Q)
    (herror : ∀ past' e, P past' (.error e) → Q past' (.error e)) : (p >>= f).Meets C past Q := by
  rw [meets_bind]
  refine hp.mono fun past' out _ h => ?_
  cases out with
  | ok a => exact hok past' a h
  | error e => exact herror past' e h

/-- Handling, with the two ways the first part ends set apart. -/
lemma Meets.handle {p : Routine ε Op Res α} {handler : ε → Routine ε Op Res α}
    {P Q : List (Exchange ε Op Res) → Except ε α → Prop} (hp : p.Meets C past P)
    (hok : ∀ past' a, P past' (.ok a) → Q past' (.ok a))
    (herror : ∀ past' e, P past' (.error e) → (handler e).Meets C past' Q) :
    (p.handle handler).Meets C past Q := by
  rw [Routine.handle, meets_resume]
  refine hp.mono fun past' out _ h => ?_
  cases out with
  | ok a => exact hok past' a h
  | error e => exact herror past' e h

/-- The part under `finally` runs however the first part ends. -/
lemma Meets.finallyDo {p : Routine ε Op Res α} {q : Routine ε Op Res Unit}
    {P Q : List (Exchange ε Op Res) → Except ε α → Prop} (hp : p.Meets C past P)
    (hq : ∀ past' out, P past' out → q.Meets C past' fun past'' end' =>
      Q past'' out ∧ ∀ e, end' = .error e → Q past'' (.error e)) :
    (p.finallyDo q).Meets C past Q := by
  rw [Routine.finallyDo, meets_resume]
  refine hp.mono fun past' out _ h => ?_
  rw [meets_resume]
  refine (hq past' out h).mono fun past'' end' _ hend => ?_
  cases end' with
  | ok _ => exact hend.1
  | error e => exact hend.2 e rfl

/-! ### Kinds of calls -/

/-- Every call the routine may ever make is of the kind. -/
def Only (kind : Op → Prop) : Routine ε Op Res α → Prop
  | .done _ => True
  | .call op next => kind op ∧ ∀ out, (next out).Only kind

variable {kind : Op → Prop}

lemma only_done (out : Except ε α) : (done out : Routine ε Op Res α).Only kind := trivial

lemma only_perform {op : Op} (h : kind op) :
    (perform op : Routine ε Op Res (Res op)).Only kind := ⟨h, fun _ => trivial⟩

lemma Only.mono {kind' : Op → Prop} {p : Routine ε Op Res α} (h : p.Only kind)
    (hkind : ∀ op, kind op → kind' op) : p.Only kind' := by
  induction p with
  | done out => exact only_done out
  | call op next ih => exact ⟨hkind op h.1, fun out => ih out (h.2 out)⟩

/-- The kinds of the parts are the kinds of the whole. -/
lemma Only.resume {p : Routine ε Op Res α} {f : Except ε α → Routine ε Op Res β}
    (hp : p.Only kind) (hf : ∀ out, (f out).Only kind) : (p.resume f).Only kind := by
  induction p with
  | done out => exact hf out
  | call op next ih => exact ⟨hp.1, fun out => ih out (hp.2 out)⟩

lemma Only.bind {p : Routine ε Op Res α} {f : α → Routine ε Op Res β} (hp : p.Only kind)
    (hf : ∀ a, (f a).Only kind) : (p >>= f).Only kind := by
  refine Only.resume hp fun out => ?_
  cases out with
  | ok a => exact hf a
  | error e => exact only_done _

lemma Only.handle {p : Routine ε Op Res α} {handler : ε → Routine ε Op Res α} (hp : p.Only kind)
    (hh : ∀ e, (handler e).Only kind) : (p.handle handler).Only kind := by
  refine Only.resume hp fun out => ?_
  cases out with
  | ok a => exact only_done _
  | error e => exact hh e

lemma Only.finallyDo {p : Routine ε Op Res α} {q : Routine ε Op Res Unit} (hp : p.Only kind)
    (hq : q.Only kind) : (p.finallyDo q).Only kind := by
  refine Only.resume hp fun out => Only.resume hq fun end' => ?_
  cases end' with
  | ok _ => exact only_done _
  | error e => exact only_done _

/-- A routine whose kind of call is always allowed adds only such calls. -/
lemma Only.meets {p : Routine ε Op Res α} (h : p.Only kind)
    (hallowed : ∀ past op, kind op → C.allowed past op) :
    p.Meets C past fun past' _ => ∃ more, past' = past ++ more ∧ ∀ x ∈ more, kind x.op := by
  induction p generalizing past with
  | done out => exact ⟨[], by simp, by simp⟩
  | call op next ih =>
      refine ⟨hallowed past op h.1, fun out _ => (ih out (h.2 out)).mono ?_⟩
      rintro past' end' - ⟨more, rfl, hmore⟩
      refine ⟨⟨op, out⟩ :: more, by simp, ?_⟩
      exact List.forall_mem_cons.mpr ⟨h.1, hmore⟩

/-! ### Runs to the end -/

/-- The calls of a run to the end, and how it ends. -/
def Does : Routine ε Op Res α → List (Exchange ε Op Res) → Except ε α → Prop
  | .done out, calls, end' => calls = [] ∧ end' = out
  | .call op next, calls, end' => ∃ out rest, calls = ⟨op, out⟩ :: rest ∧ (next out).Does rest end'

/-- A run of a composed routine is a run of the first part and one of what follows. -/
lemma does_resume {p : Routine ε Op Res α} {f : Except ε α → Routine ε Op Res β}
    {calls : List (Exchange ε Op Res)} {end' : Except ε β} :
    (p.resume f).Does calls end' ↔ ∃ first rest out, calls = first ++ rest ∧ p.Does first out
      ∧ (f out).Does rest end' := by
  induction p generalizing calls with
  | done out =>
      constructor
      · intro h
        exact ⟨[], calls, out, rfl, ⟨rfl, rfl⟩, h⟩
      · rintro ⟨first, rest, out', rfl, ⟨rfl, rfl⟩, h⟩
        exact h
  | call op next ih =>
      constructor
      · rintro ⟨r, rest, rfl, h⟩
        obtain ⟨first, rest', out, rfl, hfirst, hrest⟩ := (ih r).mp h
        exact ⟨⟨op, r⟩ :: first, rest', out, rfl, ⟨r, first, rfl, hfirst⟩, hrest⟩
      · rintro ⟨first, rest, out, rfl, ⟨r, first', rfl, hfirst⟩, hrest⟩
        exact ⟨r, first' ++ rest, rfl, (ih r).mpr ⟨first', rest, out, rfl, hfirst, hrest⟩⟩

/-- A call is its only call. -/
lemma does_perform {op : Op} {calls : List (Exchange ε Op Res)} {out : Except ε (Res op)} :
    (perform op).Does calls out ↔ calls = [⟨op, out⟩] := by
  constructor
  · rintro ⟨r, rest, rfl, rfl, rfl⟩
    rfl
  · rintro rfl
    exact ⟨out, [], rfl, rfl, rfl⟩

/-- A run of a sequence: the first part raises, or both parts are run. -/
lemma does_bind {p : Routine ε Op Res α} {f : α → Routine ε Op Res β}
    {calls : List (Exchange ε Op Res)} {out : Except ε β} :
    (p >>= f).Does calls out ↔ (∃ e, p.Does calls (.error e) ∧ out = .error e)
      ∨ ∃ first rest a, calls = first ++ rest ∧ p.Does first (.ok a) ∧ (f a).Does rest out := by
  rw [bind_eq, does_resume]
  constructor
  · rintro ⟨first, rest, r, rfl, hfirst, hrest⟩
    cases r with
    | ok a => exact Or.inr ⟨first, rest, a, rfl, hfirst, hrest⟩
    | error e =>
        obtain ⟨rfl, rfl⟩ := hrest
        exact Or.inl ⟨e, by rwa [List.append_nil], rfl⟩
  · rintro (⟨e, hfirst, rfl⟩ | ⟨first, rest, a, rfl, hfirst, hrest⟩)
    · exact ⟨calls, [], .error e, by simp, hfirst, rfl, rfl⟩
    · exact ⟨first, rest, .ok a, rfl, hfirst, hrest⟩

/-- A run of a handled routine: it returns, or it raises and the handler is run. -/
lemma does_handle {p : Routine ε Op Res α} {handler : ε → Routine ε Op Res α}
    {calls : List (Exchange ε Op Res)} {out : Except ε α} :
    (p.handle handler).Does calls out ↔ (∃ a, p.Does calls (.ok a) ∧ out = .ok a)
      ∨ ∃ first rest e, calls = first ++ rest ∧ p.Does first (.error e)
        ∧ (handler e).Does rest out := by
  rw [handle, does_resume]
  constructor
  · rintro ⟨first, rest, r, rfl, hfirst, hrest⟩
    cases r with
    | ok a =>
        obtain ⟨rfl, rfl⟩ := hrest
        exact Or.inl ⟨a, by rwa [List.append_nil], rfl⟩
    | error e => exact Or.inr ⟨first, rest, e, rfl, hfirst, hrest⟩
  · rintro (⟨a, hfirst, rfl⟩ | ⟨first, rest, e, rfl, hfirst, hrest⟩)
    · exact ⟨calls, [], .ok a, by simp, hfirst, rfl, rfl⟩
    · exact ⟨first, rest, .error e, rfl, hfirst, hrest⟩

/-- A run of a routine with a part under `finally`. -/
lemma does_finallyDo {p : Routine ε Op Res α} {q : Routine ε Op Res Unit}
    {calls : List (Exchange ε Op Res)} {out : Except ε α} :
    (p.finallyDo q).Does calls out ↔ ∃ first rest r end', calls = first ++ rest ∧ p.Does first r
      ∧ q.Does rest end' ∧ out = end'.bind fun _ => r := by
  rw [finallyDo, does_resume]
  constructor
  · rintro ⟨first, rest, r, rfl, hfirst, hrest⟩
    obtain ⟨again, last, end', rfl, hagain, hlast⟩ := does_resume.mp hrest
    refine ⟨first, _, r, end', rfl, hfirst, ?_⟩
    cases end' with
    | ok u =>
        obtain ⟨rfl, rfl⟩ := hlast
        rw [List.append_nil]
        exact ⟨hagain, rfl⟩
    | error e =>
        obtain ⟨rfl, rfl⟩ := hlast
        rw [List.append_nil]
        exact ⟨hagain, rfl⟩
  · rintro ⟨first, rest, r, end', rfl, hfirst, hrest, rfl⟩
    refine ⟨first, rest, r, rfl, hfirst, does_resume.mpr ⟨rest, [], end', by simp, hrest, ?_⟩⟩
    cases end' with
    | ok u => exact ⟨rfl, rfl⟩
    | error e => exact ⟨rfl, rfl⟩

/-- A run of a sequence that returns is a run of the first part that returns, and one of the
second. -/
lemma does_bind_ok {p : Routine ε Op Res α} {f : α → Routine ε Op Res β}
    {calls : List (Exchange ε Op Res)} {b : β} :
    (p >>= f).Does calls (.ok b) ↔ ∃ first rest a, calls = first ++ rest ∧ p.Does first (.ok a)
      ∧ (f a).Does rest (.ok b) := by
  rw [bind_eq, does_resume]
  constructor
  · rintro ⟨first, rest, out, rfl, hfirst, hrest⟩
    cases out with
    | ok a => exact ⟨first, rest, a, rfl, hfirst, hrest⟩
    | error e => cases hrest.2
  · rintro ⟨first, rest, a, rfl, hfirst, hrest⟩
    exact ⟨first, rest, .ok a, rfl, hfirst, hrest⟩

/-- A routine that meets a contract ends as it says, where the answers were as expected. -/
lemma Meets.does {p : Routine ε Op Res α} {Q : List (Exchange ε Op Res) → Except ε α → Prop}
    (h : p.Meets C past Q) {calls : List (Exchange ε Op Res)} {end' : Except ε α}
    (hdoes : p.Does calls end') (hexpected : ∀ x ∈ calls, C.expected x) :
    Q (past ++ calls) end' := by
  induction p generalizing past calls with
  | done out =>
      obtain ⟨rfl, rfl⟩ := hdoes
      rw [List.append_nil]
      exact h
  | call op next ih =>
      obtain ⟨r, rest, rfl, hrest⟩ := hdoes
      have hmeets := h.2 r (hexpected _ List.mem_cons_self)
      have hend := ih r hmeets hrest fun x hx => hexpected x (List.mem_cons_of_mem _ hx)
      rwa [List.append_assoc] at hend

/-- Where every call may be answered as expected, some run is. -/
lemma exists_does (hanswers : ∀ op, ∃ out, C.expected ⟨op, out⟩) (p : Routine ε Op Res α) :
    ∃ calls out, p.Does calls out ∧ ∀ x ∈ calls, C.expected x := by
  induction p with
  | done out => exact ⟨[], out, ⟨rfl, rfl⟩, by simp⟩
  | call op next ih =>
      obtain ⟨r, hr⟩ := hanswers op
      obtain ⟨calls, out, hdoes, hcalls⟩ := ih r
      exact ⟨⟨op, r⟩ :: calls, out, ⟨r, calls, rfl, hdoes⟩, List.forall_mem_cons.mpr ⟨hr, hcalls⟩⟩

/-- Two runs of a routine whose calls begin the same list are the same run. -/
lemma Does.unique {p : Routine ε Op Res α} {calls calls' rest rest' : List (Exchange ε Op Res)}
    {end₁ end₂ : Except ε α} (h : p.Does calls end₁) (h' : p.Does calls' end₂)
    (heq : calls ++ rest = calls' ++ rest') : calls = calls' ∧ end₁ = end₂ := by
  induction p generalizing calls calls' with
  | done out =>
      obtain ⟨rfl, rfl⟩ := h
      obtain ⟨rfl, rfl⟩ := h'
      exact ⟨rfl, rfl⟩
  | call op next ih =>
      obtain ⟨r, tail, rfl, htail⟩ := h
      obtain ⟨r', tail', rfl, htail'⟩ := h'
      rw [List.cons_append, List.cons_append, List.cons.injEq] at heq
      obtain ⟨hhead, hrest⟩ := heq
      cases hhead
      obtain ⟨rfl, hend⟩ := ih r htail htail' hrest
      exact ⟨rfl, hend⟩

lemma Only.does {p : Routine ε Op Res α} {calls : List (Exchange ε Op Res)} {end' : Except ε α}
    (h : p.Only kind) (hdoes : p.Does calls end') : ∀ x ∈ calls, kind x.op := by
  induction p generalizing calls with
  | done out =>
      obtain ⟨rfl, -⟩ := hdoes
      exact fun x hx => absurd hx List.not_mem_nil
  | call op next ih =>
      obtain ⟨r, rest, rfl, hrest⟩ := hdoes
      exact List.forall_mem_cons.mpr ⟨h.1, ih r (h.2 r) hrest⟩

/-! ### Runs under way -/

/-- After the calls, the routine makes a further one. -/
def Comes : Routine ε Op Res α → List (Exchange ε Op Res) → Op → Prop
  | .done _, _, _ => False
  | .call op _, [], further => further = op
  | .call op next, x :: calls, further => ∃ out, x = ⟨op, out⟩ ∧ (next out).Comes calls further

/-- **The rule of runs**: a routine meets a contract where it is allowed every call it comes to. -/
theorem meets_of_comes {p : Routine ε Op Res α}
    (h : ∀ calls op, p.Comes calls op → C.allowed (past ++ calls) op) :
    p.Meets C past fun past' out => ∃ calls, past' = past ++ calls ∧ p.Does calls out := by
  induction p generalizing past with
  | done out => exact ⟨[], by simp, rfl, rfl⟩
  | call op next ih =>
      refine ⟨by simpa using h [] op rfl, fun r _ => ?_⟩
      have hnext : ∀ calls further, (next r).Comes calls further →
          C.allowed ((past ++ [⟨op, r⟩]) ++ calls) further := by
        intro calls further hcomes
        rw [List.append_assoc]
        exact h (⟨op, r⟩ :: calls) further ⟨r, rfl, hcomes⟩
      refine (ih r hnext).mono ?_
      rintro past' out - ⟨calls, rfl, hdoes⟩
      exact ⟨⟨op, r⟩ :: calls, by simp, r, calls, rfl, hdoes⟩

/-- A routine that has ended makes no further call. -/
lemma Does.not_comes {p : Routine ε Op Res α} {calls rest : List (Exchange ε Op Res)}
    {end' : Except ε α} {op : Op} (h : p.Does calls end') : ¬ p.Comes (calls ++ rest) op := by
  induction p generalizing calls with
  | done out => exact id
  | call op' next ih =>
      obtain ⟨r, tail, rfl, htail⟩ := h
      rintro ⟨r', heq, hcomes⟩
      cases heq
      exact ih r htail hcomes

lemma Only.comes {p : Routine ε Op Res α} {calls : List (Exchange ε Op Res)} {op : Op}
    (h : p.Only kind) (hcomes : p.Comes calls op) : kind op ∧ ∀ x ∈ calls, kind x.op := by
  induction p generalizing calls with
  | done out => exact hcomes.elim
  | call op' next ih =>
      cases calls with
      | nil =>
          obtain rfl : op = op' := hcomes
          exact ⟨h.1, fun x hx => absurd hx List.not_mem_nil⟩
      | cons x rest =>
          obtain ⟨r, rfl, hrest⟩ := hcomes
          obtain ⟨hop, hcalls⟩ := ih r (h.2 r) hrest
          exact ⟨hop, List.forall_mem_cons.mpr ⟨h.1, hcalls⟩⟩

end Routine

end Foundation
