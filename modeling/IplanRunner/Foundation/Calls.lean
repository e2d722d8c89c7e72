import Mathlib.Data.List.Forall2
import Mathlib.Tactic.Common

/-!
Calls that change a state and may raise, and what a list of records keeps under the updates the
modelled programs make to it.

* `Call ε σ α`: a call returns a value or raises, and leaves a state either way: what was changed
  before the exception stays changed.
* `bind_apply`, `bind_ok`, `bind_error`: the rules of composition; `Moves.bind`: the rule for what a
  call does to the state, whether it returns or raises; `raises_bind_iff`: when one raises.
* `visits`: the elements a loop comes to.
* `updateFirst`, `updateLast`: an assignment to a field of the first record with a property, or of
  the record appended last; what each does to membership, to a search and to the length.
-/

namespace Foundation

/-- A call: its value or the exception it raised, and the state it leaves in both cases. -/
def Call (ε σ α : Type) : Type := σ → Except ε α × σ

namespace Call

variable {ε σ α β : Type}

instance : Monad (Call ε σ) where
  pure a := fun s => (.ok a, s)
  bind m f := fun s =>
    match m s with
    | (.ok a, s') => f a s'
    | (.error e, s') => (.error e, s')

/-- `raise e`. -/
def raise (e : ε) : Call ε σ α := fun s => (.error e, s)

/-- Reads the state. -/
def get : Call ε σ σ := fun s => (.ok s, s)

/-- Changes the state. -/
def modify (f : σ → σ) : Call ε σ Unit := fun s => (.ok (), f s)

/-- A pure call that may raise. -/
def ofExcept (x : Except ε α) : Call ε σ α := fun s => (x, s)

@[simp] lemma pure_apply (a : α) (s : σ) : (pure a : Call ε σ α) s = (.ok a, s) := rfl

@[simp] lemma raise_apply (e : ε) (s : σ) : (raise e : Call ε σ α) s = (.error e, s) := rfl

@[simp] lemma get_apply (s : σ) : (get : Call ε σ σ) s = (.ok s, s) := rfl

@[simp] lemma modify_apply (f : σ → σ) (s : σ) :
    (modify f : Call ε σ Unit) s = (.ok (), f s) := rfl

@[simp] lemma ofExcept_apply (x : Except ε α) (s : σ) :
    (ofExcept x : Call ε σ α) s = (x, s) := rfl

lemma bind_apply (m : Call ε σ α) (f : α → Call ε σ β) (s : σ) :
    (m >>= f) s = match m s with
      | (.ok a, s') => f a s'
      | (.error e, s') => (.error e, s') := rfl

lemma bind_ok {m : Call ε σ α} {s s' : σ} {a : α} (h : m s = (.ok a, s'))
    (f : α → Call ε σ β) : (m >>= f) s = f a s' := by
  rw [bind_apply, h]

lemma bind_error {m : Call ε σ α} {s s' : σ} {e : ε} (h : m s = (.error e, s'))
    (f : α → Call ε σ β) : (m >>= f) s = (.error e, s') := by
  rw [bind_apply, h]

/-- A call on the first part of a state. -/
def onFst {τ : Type} (m : Call ε σ α) : Call ε (σ × τ) α := fun s =>
  ((m s.1).1, ((m s.1).2, s.2))

@[simp] lemma onFst_apply {τ : Type} (m : Call ε σ α) (s : σ × τ) :
    onFst m s = ((m s.1).1, ((m s.1).2, s.2)) := rfl

/-- A composed call that returns, returned at both steps. -/
lemma bind_eq_ok {m : Call ε σ α} {f : α → Call ε σ β} {s s'' : σ} {b : β} :
    (m >>= f) s = (.ok b, s'') ↔ ∃ a s', m s = (.ok a, s') ∧ f a s' = (.ok b, s'') := by
  rw [bind_apply]
  rcases hm : m s with ⟨_ | a, s'⟩ <;> simp

/-- The call raises on the state. -/
def Raises (m : Call ε σ α) (s : σ) : Prop := ∃ e, (m s).1 = .error e

lemma not_raises_of_ok {m : Call ε σ α} {s s' : σ} {a : α} (h : m s = (.ok a, s')) :
    ¬ Raises m s := by
  rintro ⟨e, he⟩
  rw [h] at he
  cases he

@[simp] lemma not_raises_pure (a : α) (s : σ) : ¬ Raises (pure a : Call ε σ α) s :=
  not_raises_of_ok (pure_apply a s)

@[simp] lemma raises_ofExcept_iff (x : Except ε α) (s : σ) :
    Raises (ofExcept x) s ↔ ∃ e, x = .error e := Iff.rfl

/-- A composed call raises at one of the two steps. -/
lemma raises_bind_iff {m : Call ε σ α} {f : α → Call ε σ β} {s : σ} :
    Raises (m >>= f) s ↔ Raises m s ∨ ∃ a s', m s = (.ok a, s') ∧ Raises (f a) s' := by
  rcases hm : m s with ⟨e | a, s'⟩
  · simp [Raises, bind_error hm, hm]
  · simp [Raises, bind_ok hm, hm]

/-- A call moves the state along `R`, raised or not. -/
def Moves (R : σ → σ → Prop) (m : Call ε σ α) : Prop := ∀ s, R s (m s).2

/-- A call that leaves the state alone. -/
lemma moves_of_keep {R : σ → σ → Prop} (hrefl : ∀ s, R s s) {m : Call ε σ α}
    (hm : ∀ s, (m s).2 = s) : Moves R m := by
  intro s
  rw [hm s]
  exact hrefl s

/-- The rule of composition for moves. -/
lemma Moves.bind {R : σ → σ → Prop} (htrans : ∀ {s t u}, R s t → R t u → R s u)
    {m : Call ε σ α} {f : α → Call ε σ β} (hm : Moves R m) (hf : ∀ a, Moves R (f a)) :
    Moves R (m >>= f) := by
  intro s
  have h1 := hm s
  rw [bind_apply]
  rcases hr : m s with ⟨_ | a, s'⟩
  · rwa [hr] at h1
  · rw [hr] at h1
    exact htrans h1 (hf a s')

/-- The elements a loop comes to, each with the state it meets: `body` may raise, or return what
`stop` says ends the loop. -/
def visits (body : α → Call ε σ β) (stop : β → Bool) : List α → σ → List (α × σ)
  | [], _ => []
  | x :: xs, s =>
      (x, s) :: match body x s with
        | (.ok b, s') => if stop b then [] else visits body stop xs s'
        | (.error _, _) => []

lemma visits_ok {body : α → Call ε σ β} {stop : β → Bool} {x : α} {s s' : σ} {b : β}
    (h : body x s = (.ok b, s')) (xs : List α) :
    visits body stop (x :: xs) s = (x, s) :: if stop b then [] else visits body stop xs s' := by
  rw [visits, h]

lemma mem_visits {body : α → Call ε σ β} {stop : β → Bool} {xs : List α} {s : σ} {v : α × σ}
    (h : v ∈ visits body stop xs s) : v.1 ∈ xs := by
  induction xs generalizing s with
  | nil => cases h
  | cons x xs ih =>
      rw [visits] at h
      rcases List.mem_cons.mp h with rfl | h
      · exact List.mem_cons_self
      · refine List.mem_cons_of_mem _ ?_
        split at h
        · split at h
          · cases h
          · exact ih h
        · cases h

lemma visits_error {body : α → Call ε σ β} {stop : β → Bool} {x : α} {s s' : σ} {e : ε}
    (h : body x s = (.error e, s')) (xs : List α) :
    visits body stop (x :: xs) s = [(x, s)] := by
  rw [visits, h]

end Call

/-! ### Loops that may raise -/

section Loops

variable {ε α β : Type}

/-- A loop that appends what each pass yields, up to the first exception. -/
def collect (f : α → Except ε (List β)) : List α → Except ε (List β)
  | [] => .ok []
  | x :: xs => do return (← f x) ++ (← collect f xs)

/-- `any(...)`: stops at the first hit, and at the first exception before it. -/
def anyE (p : α → Except ε Bool) : List α → Except ε Bool
  | [] => .ok false
  | x :: xs => do if ← p x then return true else anyE p xs

/-- A loop that changes every element in place, up to the first exception. -/
def updateEach (f : α → Except ε α) : List α → Except ε Unit × List α
  | [] => (.ok (), [])
  | x :: xs =>
      match f x with
      | .error e => (.error e, x :: xs)
      | .ok y => ((updateEach f xs).1, y :: (updateEach f xs).2)

/-- An element is left as it was, or changed. -/
lemma updateEach_forall (f : α → Except ε α) (xs : List α) :
    List.Forall₂ (fun x y => y = x ∨ f x = .ok y) xs (updateEach f xs).2 := by
  induction xs with
  | nil => exact List.Forall₂.nil
  | cons x xs ih =>
      rw [updateEach]
      rcases hx : f x with e | y
      · exact List.forall₂_same.mpr fun z _ => Or.inl rfl
      · exact List.Forall₂.cons (Or.inr hx) ih

/-- A loop that returns has changed every element. -/
lemma updateEach_ok {f : α → Except ε α} {xs ys : List α}
    (h : updateEach f xs = (.ok (), ys)) : List.Forall₂ (fun x y => f x = .ok y) xs ys := by
  induction xs generalizing ys with
  | nil =>
      obtain rfl : [] = ys := congrArg Prod.snd h
      exact List.Forall₂.nil
  | cons x xs ih =>
      rw [updateEach] at h
      rcases hx : f x with e | y
      · rw [hx] at h
        exact absurd (congrArg Prod.fst h) (by simp)
      · rw [hx] at h
        obtain rfl : y :: (updateEach f xs).2 = ys := congrArg Prod.snd h
        have hfst : (updateEach f xs).1 = .ok () := congrArg Prod.fst h
        exact List.Forall₂.cons hx (ih (Prod.ext hfst rfl))

/-- A list each element of which has a partner at its place in another list. -/
lemma forall₂_of_getElem? {R : α → β → Prop} {xs : List α} {ys : List β}
    (h : ∀ (i : ℕ) (x : α), xs[i]? = some x → ∃ y, ys[i]? = some y ∧ R x y) :
    ∃ zs, zs <+: ys ∧ List.Forall₂ R xs zs := by
  induction xs generalizing ys with
  | nil => exact ⟨[], List.nil_prefix, List.Forall₂.nil⟩
  | cons x xs ih =>
      obtain ⟨y, hy, hxy⟩ := h 0 x rfl
      cases ys with
      | nil => simp at hy
      | cons y' ys =>
          obtain rfl : y' = y := by simpa using hy
          obtain ⟨zs, hzs, hall⟩ := ih fun i z hz => h (i + 1) z hz
          exact ⟨y' :: zs, List.cons_prefix_cons.mpr ⟨rfl, hzs⟩, List.Forall₂.cons hxy hall⟩

/-- Every element of the second list has a partner in the first. -/
lemma exists_of_forall₂ {R : α → β → Prop} {xs : List α} {ys : List β} (h : List.Forall₂ R xs ys)
    {y : β} (hy : y ∈ ys) : ∃ x ∈ xs, R x y := by
  induction h with
  | nil => simp at hy
  | @cons x y' xs ys hone _ ih =>
      rcases List.mem_cons.mp hy with rfl | hy
      · exact ⟨x, List.mem_cons_self, hone⟩
      · obtain ⟨x', hx', hone'⟩ := ih hy
        exact ⟨x', List.mem_cons_of_mem _ hx', hone'⟩

/-- A pure call that does not raise. -/
def Returns (x : Except ε α) : Prop := ∃ a, x = .ok a

lemma returns_ok (a : α) : Returns (.ok a : Except ε α) := ⟨a, rfl⟩

lemma returns_pure (a : α) : Returns (pure a : Except ε α) := ⟨a, rfl⟩

/-- What has been computed without an exception. -/
lemma eq_ok_of_toOption {x : Except ε α} {a : α} (h : x.toOption = some a) : x = .ok a := by
  cases x with
  | error e => cases h
  | ok b =>
      cases h
      rfl

@[simp] lemma ok_bind (a : α) (f : α → Except ε β) : ((.ok a : Except ε α) >>= f) = f a := rfl

/-- A composed pure call that returns, returned at both steps. -/
lemma except_bind_eq_ok {x : Except ε α} {f : α → Except ε β} {b : β} :
    (x >>= f) = .ok b ↔ ∃ a, x = .ok a ∧ f a = .ok b := by
  cases x <;> simp [bind, Except.bind]

/-- The rule of composition for calls that do not raise. -/
lemma Returns.bind {x : Except ε α} {f : α → Except ε β} (hx : Returns x)
    (hf : ∀ a, x = .ok a → Returns (f a)) : Returns (x >>= f) := by
  obtain ⟨a, rfl⟩ := hx
  exact hf a rfl

lemma returns_ite {c : Prop} [Decidable c] {x y : Except ε α} (hx : c → Returns x)
    (hy : ¬ c → Returns y) : Returns (if c then x else y) := by
  by_cases h : c
  · rw [if_pos h]
    exact hx h
  · rw [if_neg h]
    exact hy h

/-- A loop whose passes return returns. -/
lemma returns_collect {f : α → Except ε (List β)} {xs : List α} (h : ∀ x ∈ xs, Returns (f x)) :
    Returns (collect f xs) := by
  induction xs with
  | nil => exact returns_ok []
  | cons x xs ih =>
      rw [collect]
      refine (h x (by simp)).bind fun ys _ => ?_
      refine (ih fun y hy => h y (by simp [hy])).bind fun zs _ => ?_
      exact returns_pure _

lemma returns_anyE {p : α → Except ε Bool} {xs : List α} (h : ∀ x ∈ xs, Returns (p x)) :
    Returns (anyE p xs) := by
  induction xs with
  | nil => exact returns_ok false
  | cons x xs ih =>
      rw [anyE]
      refine (h x (by simp)).bind fun b _ => ?_
      exact returns_ite (fun _ => returns_pure _) fun _ => ih fun y hy => h y (by simp [hy])

/-- A test that never raises on what it is given is an `any`. -/
lemma anyE_map_ok {p : β → Except ε Bool} {g : α → β} {q : α → Bool} {xs : List α}
    (h : ∀ x ∈ xs, p (g x) = .ok (q x)) : anyE p (xs.map g) = .ok (xs.any q) := by
  induction xs with
  | nil => rfl
  | cons x xs ih =>
      rw [List.map_cons, anyE, h x (by simp), ih fun y hy => h y (by simp [hy]), List.any_cons,
        ok_bind]
      cases q x <;> rfl

lemma collect_cons (f : α → Except ε (List β)) (x : α) (xs : List α) (zs : List β) :
    collect f (x :: xs) = .ok zs
      ↔ ∃ ys ws, f x = .ok ys ∧ collect f xs = .ok ws ∧ zs = ys ++ ws := by
  rw [collect]
  rcases f x with e | ys <;> simp [bind, Except.bind]
  rcases collect f xs with e | ws <;> simp [pure, Except.pure, eq_comm]

lemma collect_map {γ : Type} (f : β → Except ε (List γ)) (g : α → β) (xs : List α) :
    collect f (xs.map g) = collect (fun x => f (g x)) xs := by
  induction xs with
  | nil => rfl
  | cons x xs ih => rw [List.map_cons, collect, collect, ih]

/-- A loop that ended ran every pass, and yields exactly what the passes yield. -/
lemma collect_eq_ok {f : α → Except ε (List β)} {xs : List α} {ys : List β}
    (h : collect f xs = .ok ys) :
    (∀ x ∈ xs, ∃ zs, f x = .ok zs) ∧ ∀ b, b ∈ ys ↔ ∃ x ∈ xs, ∃ zs, f x = .ok zs ∧ b ∈ zs := by
  induction xs generalizing ys with
  | nil =>
      obtain rfl : [] = ys := by simpa [collect] using h
      simp
  | cons x xs ih =>
      obtain ⟨zs, ws, hx, hxs, rfl⟩ := (collect_cons f x xs ys).mp h
      obtain ⟨hall, hmem⟩ := ih hxs
      refine ⟨fun y hy => ?_, fun b => ?_⟩
      · rcases List.mem_cons.mp hy with rfl | hy'
        · exact ⟨zs, hx⟩
        · exact hall y hy'
      · rw [List.mem_append, hmem]
        constructor
        · rintro (hb | ⟨y, hy, vs, hvs, hb⟩)
          · exact ⟨x, by simp, zs, hx, hb⟩
          · exact ⟨y, by simp [hy], vs, hvs, hb⟩
        · rintro ⟨y, hy, vs, hvs, hb⟩
          rcases List.mem_cons.mp hy with rfl | hy'
          · rw [hx] at hvs
            cases hvs
            exact Or.inl hb
          · exact Or.inr ⟨y, hy', vs, hvs, hb⟩

/-- A loop yields nothing exactly when no pass does. -/
lemma collect_eq_nil_iff {f : α → Except ε (List β)} {xs : List α} :
    collect f xs = .ok [] ↔ ∀ x ∈ xs, f x = .ok [] := by
  induction xs with
  | nil => simp [collect]
  | cons x xs ih =>
      rw [collect_cons, List.forall_mem_cons, ← ih]
      constructor
      · rintro ⟨ys, ws, hx, hxs, heq⟩
        obtain ⟨rfl, rfl⟩ := List.append_eq_nil_iff.mp heq.symm
        exact ⟨hx, hxs⟩
      · rintro ⟨hx, hxs⟩
        exact ⟨[], [], hx, hxs, rfl⟩

lemma returns_collect_iff {f : α → Except ε (List β)} {xs : List α} :
    Returns (collect f xs) ↔ ∀ x ∈ xs, Returns (f x) :=
  ⟨fun ⟨_, h⟩ => (collect_eq_ok h).1, returns_collect⟩

/-- No element passes the test, and the test raises on none. -/
lemma anyE_eq_false_iff {p : α → Except ε Bool} {xs : List α} :
    anyE p xs = .ok false ↔ ∀ x ∈ xs, p x = .ok false := by
  induction xs with
  | nil => simp [anyE]
  | cons x xs ih =>
      rw [List.forall_mem_cons, ← ih, anyE]
      rcases p x with e | b
      · simp [bind, Except.bind]
      · cases b <;> simp [bind, Except.bind, pure, Except.pure]

/-- What a loop yields is what its passes yield, one behind the other. -/
lemma collect_parts {f : α → Except ε (List β)} {xs : List α} {ys : List β}
    (h : collect f xs = .ok ys) :
    ∃ parts : List (List β), ys = parts.flatten
      ∧ List.Forall₂ (fun x part => f x = .ok part) xs parts := by
  induction xs generalizing ys with
  | nil =>
      cases h
      exact ⟨[], rfl, List.Forall₂.nil⟩
  | cons x xs ih =>
      obtain ⟨part, rest, hx, hxs, rfl⟩ := (collect_cons f x xs ys).mp h
      obtain ⟨parts, rfl, hparts⟩ := ih hxs
      exact ⟨part :: parts, rfl, List.Forall₂.cons hx hparts⟩

/-- A loop over two lists yields what the loops over each do. -/
lemma collect_append {f : α → Except ε (List β)} {xs ys : List α} {zs ws : List β}
    (hxs : collect f xs = .ok zs) (hys : collect f ys = .ok ws) :
    collect f (xs ++ ys) = .ok (zs ++ ws) := by
  induction xs generalizing zs with
  | nil =>
      cases hxs
      exact hys
  | cons x xs ih =>
      obtain ⟨first, others, hx, hrest, rfl⟩ := (collect_cons f x xs zs).mp hxs
      exact (collect_cons f x (xs ++ ys) _).mpr
        ⟨first, others ++ ws, hx, ih hrest, List.append_assoc first others ws⟩

/-- A loop over more elements yields more, where its passes over the elements shared agree; what two
elements share is told by `r`. -/
lemma collect_prefix {γ : Type*} {f g : α → Except ε (List β)} {r : α → γ} {xs ys : List α}
    {ws : List β} (hpre : xs.map r <+: ys.map r) (hsame : ∀ x ∈ xs, ∀ y ∈ ys, r x = r y → f x = g y)
    (h : collect g ys = .ok ws) : ∃ zs, collect f xs = .ok zs ∧ zs <+: ws := by
  induction xs generalizing ys ws with
  | nil => exact ⟨[], rfl, List.nil_prefix⟩
  | cons x xs ih =>
      cases ys with
      | nil => simp at hpre
      | cons y ys =>
          obtain ⟨hxy, hrest⟩ := List.cons_prefix_cons.mp hpre
          obtain ⟨first, others, hy, hys, rfl⟩ := (collect_cons g y ys ws).mp h
          obtain ⟨zs, hzs, hle⟩ := ih hrest
            (fun a ha b hb => hsame a (List.mem_cons_of_mem _ ha) b (List.mem_cons_of_mem _ hb)) hys
          have hx : f x = .ok first := by rw [hsame x (by simp) y (by simp) hxy, hy]
          exact ⟨first ++ zs, (collect_cons f x xs _).mpr ⟨first, zs, hx, hzs, rfl⟩,
            (List.prefix_append_right_inj first).mpr hle⟩

/-- A loop over part of the elements yields part. -/
lemma collect_sublist {f : α → Except ε (List β)} {xs ys : List α} (hsub : xs.Sublist ys)
    {ws : List β} (h : collect f ys = .ok ws) : ∃ zs, collect f xs = .ok zs ∧ zs.Sublist ws := by
  induction hsub generalizing ws with
  | slnil => exact ⟨ws, h, List.Sublist.refl ws⟩
  | cons y _ ih =>
      obtain ⟨first, others, -, hothers, rfl⟩ := (collect_cons f y _ ws).mp h
      obtain ⟨zs, hzs, hle⟩ := ih hothers
      exact ⟨zs, hzs, hle.trans (List.sublist_append_right first others)⟩
  | cons_cons y _ ih =>
      obtain ⟨first, others, hfirst, hothers, rfl⟩ := (collect_cons f y _ ws).mp h
      obtain ⟨zs, hzs, hle⟩ := ih hothers
      exact ⟨first ++ zs, (collect_cons f y _ _).mpr ⟨first, zs, hfirst, hzs, rfl⟩,
        (List.append_sublist_append_left first).mpr hle⟩

/-- A comprehension that ended yields what its elements do. -/
lemma mapM_eq_ok {f : α → Except ε β} {xs : List α} {ys : List β} (h : xs.mapM f = .ok ys) :
    List.Forall₂ (fun x y => f x = .ok y) xs ys := by
  induction xs generalizing ys with
  | nil =>
      obtain rfl : [] = ys := by simpa [pure, Except.pure] using h
      exact .nil
  | cons x xs ih =>
      rw [List.mapM_cons] at h
      rcases hx : f x with e | y
      · simp [hx, bind, Except.bind] at h
      · rcases hxs : xs.mapM f with e | zs
        · simp [hx, hxs, bind, Except.bind] at h
        · obtain rfl : y :: zs = ys := by
            simpa [hx, hxs, bind, Except.bind, pure, Except.pure] using h
          exact .cons hx (ih hxs)

/-- A comprehension that ended computed every element. -/
lemma mapM_ok_returns {f : α → Except ε β} {xs : List α} {ys : List β} (h : xs.mapM f = .ok ys) :
    ∀ x ∈ xs, Returns (f x) := by
  have hall := mapM_eq_ok h
  clear h
  induction hall with
  | nil => simp
  | cons hxy _ ih => exact List.forall_mem_cons.mpr ⟨⟨_, hxy⟩, ih⟩

/-- A comprehension whose elements return returns. -/
lemma returns_mapM {f : α → Except ε β} {xs : List α} (h : ∀ x ∈ xs, Returns (f x)) :
    Returns (xs.mapM f) := by
  induction xs with
  | nil => exact returns_pure []
  | cons x xs ih =>
      rw [List.mapM_cons]
      refine (h x (by simp)).bind fun y _ => ?_
      exact (ih fun z hz => h z (by simp [hz])).bind fun ys _ => returns_pure _

lemma returns_mapM_iff {f : α → Except ε β} {xs : List α} :
    Returns (xs.mapM f) ↔ ∀ x ∈ xs, Returns (f x) :=
  ⟨fun ⟨_, h⟩ => mapM_ok_returns h, returns_mapM⟩

/-- What a comprehension yields is what its elements do. -/
lemma mem_of_mapM {f : α → Except ε β} {xs : List α} {ys : List β} (h : xs.mapM f = .ok ys)
    {y : β} :
    y ∈ ys ↔ ∃ x ∈ xs, f x = .ok y := by
  have hall := mapM_eq_ok h
  refine ⟨fun hy => exists_of_forall₂ hall hy, fun ⟨x, hx, hfx⟩ => ?_⟩
  obtain ⟨z, hz, hfz⟩ := exists_of_forall₂ hall.flip hx
  obtain rfl : z = y := Except.ok.inj (hfz.symm.trans hfx)
  exact hz

end Loops

/-! ### Records in a list -/

section Records

variable {α : Type}

/-- Changes the first element that satisfies `p`. -/
def updateFirst (p : α → Bool) (f : α → α) : List α → List α
  | [] => []
  | x :: xs => if p x then f x :: xs else x :: updateFirst p f xs

/-- Changes the last element. -/
def updateLast (f : α → α) : List α → List α
  | [] => []
  | [x] => [f x]
  | x :: y :: xs => x :: updateLast f (y :: xs)

@[simp] lemma updateLast_append (f : α → α) (l : List α) (x : α) :
    updateLast f (l ++ [x]) = l ++ [f x] := by
  induction l with
  | nil => rfl
  | cons y l ih =>
      cases l with
      | nil => rfl
      | cons z l => simpa [updateLast] using ih

@[simp] lemma updateLast_id (l : List α) : updateLast id l = l := by
  induction l with
  | nil => rfl
  | cons x l ih =>
      cases l with
      | nil => rfl
      | cons y l => rw [updateLast, ih]

@[simp] lemma length_updateFirst (p : α → Bool) (f : α → α) (l : List α) :
    (updateFirst p f l).length = l.length := by
  induction l with
  | nil => rfl
  | cons x l ih => rw [updateFirst]; split <;> simp [ih]

@[simp] lemma updateFirst_id (p : α → Bool) (l : List α) : updateFirst p id l = l := by
  induction l with
  | nil => rfl
  | cons x l ih => rw [updateFirst, ih]; simp

/-- Two changes of the same record, one after the other. -/
lemma updateFirst_updateFirst {p : α → Bool} {f g : α → α} (h : ∀ x, p (f x) = p x)
    (l : List α) : updateFirst p g (updateFirst p f l) = updateFirst p (g ∘ f) l := by
  induction l with
  | nil => rfl
  | cons x l ih =>
      by_cases hx : p x = true
      · simp [updateFirst, hx, h x]
      · simp [updateFirst, hx, ih]

/-- A projection the update does not touch reads the same list. -/
lemma map_updateFirst {β : Type} (p : α → Bool) (f : α → α) (g : α → β)
    (h : ∀ x, g (f x) = g x) (l : List α) : (updateFirst p f l).map g = l.map g := by
  induction l with
  | nil => rfl
  | cons x l ih => rw [updateFirst]; split <;> simp [ih, h]

/-- A projection of the updated list, when the projection knows the match and its change. -/
lemma map_updateFirst_comm {β : Type} {p : α → Bool} {f : α → α} {g : α → β} {q : β → Bool}
    {k : β → β} (hp : ∀ x, q (g x) = p x) (hf : ∀ x, g (f x) = k (g x)) (l : List α) :
    (updateFirst p f l).map g = updateFirst q k (l.map g) := by
  induction l with
  | nil => rfl
  | cons x l ih =>
      rw [updateFirst, List.map_cons, updateFirst, hp]
      split <;> simp [ih, hf]

/-- A selection the match is not part of, before or after its change, is the same. -/
lemma filter_updateFirst {p q : α → Bool} {f : α → α}
    (h : ∀ x, p x = true → q x = false ∧ q (f x) = false) (l : List α) :
    (updateFirst p f l).filter q = l.filter q := by
  induction l with
  | nil => rfl
  | cons x l ih =>
      rw [updateFirst]
      split
      · rename_i hx
        obtain ⟨hold, hnew⟩ := h x hx
        simp [hold, hnew]
      · rw [List.filter_cons, List.filter_cons, ih]

/-- An element of the updated list is an old one, or the changed first match. -/
lemma mem_updateFirst {p : α → Bool} {f : α → α} {l : List α} {y : α}
    (h : y ∈ updateFirst p f l) : y ∈ l ∨ ∃ x ∈ l, p x = true ∧ y = f x := by
  induction l with
  | nil => simp [updateFirst] at h
  | cons x l ih =>
      rw [updateFirst] at h
      split at h
      · rename_i hp
        rcases List.mem_cons.mp h with rfl | h'
        · exact Or.inr ⟨x, by simp, hp, rfl⟩
        · exact Or.inl (by simp [h'])
      · rcases List.mem_cons.mp h with rfl | h'
        · exact Or.inl (by simp)
        · rcases ih h' with h1 | ⟨z, hz, hpz, rfl⟩
          · exact Or.inl (by simp [h1])
          · exact Or.inr ⟨z, by simp [hz], hpz, rfl⟩

/-- Searching for what was updated finds the changed record. -/
lemma find?_updateFirst_self {p : α → Bool} {f : α → α} (h : ∀ x, p x = true → p (f x) = true)
    (l : List α) : (updateFirst p f l).find? p = (l.find? p).map f := by
  induction l with
  | nil => rfl
  | cons x l ih =>
      rw [updateFirst]
      by_cases hx : p x = true
      · simp [hx, h x hx]
      · simp [hx, ih]

/-- Searching for something else finds what it found before. -/
lemma find?_updateFirst_of_disjoint {p q : α → Bool} {f : α → α}
    (h : ∀ x, p x = true → q x = false ∧ q (f x) = false) (l : List α) :
    (updateFirst p f l).find? q = l.find? q := by
  induction l with
  | nil => rfl
  | cons x l ih =>
      rw [updateFirst]
      by_cases hx : p x = true
      · simp [hx, (h x hx).1, (h x hx).2]
      · simp only [hx, Bool.false_eq_true, if_false, List.find?_cons, ih]

/-! ### One update after the other -/

section Fold

variable {β : Type} {p : β → α → Bool} {f : β → α → α}

/-- An element of the list after updates of different records is an old one, or one of them
changed it. -/
lemma mem_foldl_updateFirst (hkeep : ∀ b c x, p c (f b x) = p c x) {bs : List β}
    (hdisj : bs.Pairwise fun b c => ∀ x, p b x = true → p c x = false) {l : List α} {y : α}
    (h : y ∈ bs.foldl (fun l b => updateFirst (p b) (f b) l) l) :
    y ∈ l ∨ ∃ b ∈ bs, ∃ x ∈ l, p b x = true ∧ y = f b x := by
  induction bs generalizing l with
  | nil => exact Or.inl h
  | cons b bs ih =>
      obtain ⟨hb, hbs⟩ := List.pairwise_cons.mp hdisj
      rcases ih hbs h with h1 | ⟨c, hc, x, hx, hpx, rfl⟩
      · rcases mem_updateFirst h1 with h2 | ⟨x, hx, hpx, rfl⟩
        · exact Or.inl h2
        · exact Or.inr ⟨b, by simp, x, hx, hpx, rfl⟩
      · rcases mem_updateFirst hx with h2 | ⟨z, -, hpz, rfl⟩
        · exact Or.inr ⟨c, by simp [hc], x, h2, hpx, rfl⟩
        · -- no other update finds what this one has changed
          rw [hkeep, hb c hc z hpz] at hpx
          cases hpx

/-- Searching for what none of the updates finds. -/
lemma find?_foldl_updateFirst_of_disjoint {q : α → Bool} (hq : ∀ b x, q (f b x) = q x)
    {bs : List β} (hdisj : ∀ b ∈ bs, ∀ x, p b x = true → q x = false) (l : List α) :
    (bs.foldl (fun l b => updateFirst (p b) (f b) l) l).find? q = l.find? q := by
  induction bs generalizing l with
  | nil => rfl
  | cons b bs ih =>
      rw [List.foldl_cons, ih fun c hc => hdisj c (List.mem_cons_of_mem _ hc)]
      refine find?_updateFirst_of_disjoint (fun x hx => ?_) l
      rw [hq]
      exact ⟨hdisj b (by simp) x hx, hdisj b (by simp) x hx⟩

/-- Searching for what one of the updates finds. -/
lemma find?_foldl_updateFirst (hkeep : ∀ b c x, p c (f b x) = p c x) {bs : List β}
    (hdisj : bs.Pairwise fun b c => ∀ x, p b x = true → p c x = false) {b : β} (hb : b ∈ bs)
    (l : List α) : (bs.foldl (fun l b => updateFirst (p b) (f b) l) l).find? (p b)
      = (l.find? (p b)).map (f b) := by
  induction bs generalizing l with
  | nil => simp at hb
  | cons c bs ih =>
      obtain ⟨hc, hbs⟩ := List.pairwise_cons.mp hdisj
      rw [List.foldl_cons]
      rcases List.mem_cons.mp hb with rfl | hb'
      · rw [find?_foldl_updateFirst_of_disjoint (fun c x => hkeep c b x) (fun c hcs x hx => ?_)]
        · exact find?_updateFirst_self (fun x hx => by rw [hkeep, hx]) l
        · by_contra hpx
          rw [Bool.not_eq_false] at hpx
          rw [hc c hcs x hpx] at hx
          cases hx
      · rw [ih hbs hb']
        refine congrArg (Option.map (f b)) (find?_updateFirst_of_disjoint (fun x hx => ?_) l)
        rw [hkeep]
        exact ⟨hc b hb' x hx, hc b hb' x hx⟩

end Fold

end Records

end Foundation
