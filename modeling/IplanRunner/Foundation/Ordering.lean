import Mathlib.Algebra.Order.Ring.Unbundled.Rat
import Mathlib.Data.List.Perm.Basic
import Mathlib.Data.Prod.Lex
import IplanRunner.Foundation.Calls
import IplanRunner.Foundation.FirstServed
import IplanRunner.Foundation.Python

/-!
How a Python program orders values.

* `Val.less`, `Val.atMost`: `<` and `<=`, which raise on values of types that are not ordered.
* `keyLess`: `<` on pairs of a value and a text; `sortedBy`, `minBy`: `sorted` and `min` by such
  keys.
* `ComparesAs`, `KeysCompare`: values, and keys, that compare as a linear order does;
  `sortedBy_first` and `minBy_first` say that the two then find the first of a list.
-/

namespace Foundation

variable [PyRuntime]

namespace Val

/-- `<` and `<=` of two timestamps: dates and moments are not compared, nor are moments with a time
zone and without one. -/
def stampBefore (strict : Bool) (a b : String) : Except PyErr Bool :=
  if (a.length = 10) ≠ (b.length = 10) then .error .typeError
  else match PyRuntime.fromisoformat a, PyRuntime.fromisoformat b with
    | some (.naive m), some (.naive n) => .ok (if strict then decide (m < n) else decide (m ≤ n))
    | some (.aware m), some (.aware n) => .ok (if strict then decide (m < n) else decide (m ≤ n))
    | _, _ => .error .typeError

mutual

/-- `<`, or `<=`: numbers compare by value, texts by their characters, lists by the first elements
that differ; other types are not ordered. -/
def before (strict : Bool) : Val → Val → Except PyErr Bool
  | .list xs, b => match b with | .list ys => beforeList strict xs ys | _ => .error .typeError
  | .str s, b =>
      match b with
      | .str t => .ok (if strict then decide (s < t) else decide (s ≤ t))
      | _ => .error .typeError
  | .stamp s, b => match b with | .stamp t => stampBefore strict s t | _ => .error .typeError
  | a, b =>
      match a.num?, b.num? with
      | some p, some q => .ok (if strict then decide (p < q) else decide (p ≤ q))
      | _, _ => .error .typeError

/-- `<`, or `<=`, of two lists. -/
def beforeList (strict : Bool) : List Val → List Val → Except PyErr Bool
  | [], [] => .ok !strict
  | [], _ :: _ => .ok true
  | _ :: _, [] => .ok false
  | x :: xs, y :: ys => if x.pyEq y then beforeList strict xs ys else before strict x y

end

/-- `a < b`. -/
def less (a b : Val) : Except PyErr Bool := before true a b

/-- `a <= b`. -/
def atMost (a b : Val) : Except PyErr Bool := before false a b

end Val

/-! ### Sorting by keys -/

/-- `<` of `(value, text)`. -/
def keyLess (a b : Val × String) : Except PyErr Bool :=
  if a.1.pyEq b.1 then .ok (decide (a.2 < b.2)) else a.1.less b.1

variable (key : String → Val × String)

/-- Puts `x` into a sorted list, before what it is less than. -/
def insertBy (x : String) : List String → Except PyErr (List String)
  | [] => .ok [x]
  | y :: ys => do
      if ← keyLess (key x) (key y) then return x :: y :: ys
      return y :: (← insertBy x ys)

/-- `sorted(xs, key=key)`: keys that are not ordered raise. -/
def sortedBy : List String → Except PyErr (List String)
  | [] => .ok []
  | x :: xs => do insertBy key x (← sortedBy xs)

/-- `min(xs, key=key)`, `best` being the smallest so far. -/
def minBy (best : String) : List String → Except PyErr String
  | [] => .ok best
  | x :: xs => do
      if ← keyLess (key x) (key best) then minBy x xs else minBy best xs

variable {key}

lemma insertBy_perm {x : String} {xs ys : List String} (h : insertBy key x xs = .ok ys) :
    ys.Perm (x :: xs) := by
  induction xs generalizing ys with
  | nil =>
      cases h
      exact List.Perm.refl _
  | cons y rest ih =>
      obtain ⟨less, -, h⟩ := except_bind_eq_ok.mp h
      cases less with
      | true =>
          cases h
          exact List.Perm.refl _
      | false =>
          obtain ⟨zs, hzs, heq⟩ := except_bind_eq_ok.mp h
          cases heq
          exact ((ih hzs).cons y).trans (List.Perm.swap x y rest)

/-- A sorted list has the same elements. -/
lemma sortedBy_perm {xs ys : List String} (h : sortedBy key xs = .ok ys) : ys.Perm xs := by
  induction xs generalizing ys with
  | nil =>
      cases h
      exact List.Perm.refl _
  | cons x xs ih =>
      obtain ⟨zs, hzs, h⟩ := except_bind_eq_ok.mp h
      exact (insertBy_perm h).trans ((ih hzs).cons x)

lemma minBy_mem {best x : String} {xs : List String} (h : minBy key best xs = .ok x) :
    x = best ∨ x ∈ xs := by
  induction xs generalizing best with
  | nil =>
      cases h
      exact Or.inl rfl
  | cons y ys ih =>
      obtain ⟨less, -, h⟩ := except_bind_eq_ok.mp h
      cases less with
      | true =>
          exact Or.inr ((ih h).elim (fun heq => heq ▸ List.mem_cons_self) (List.mem_cons_of_mem _))
      | false => exact (ih h).imp id (List.mem_cons_of_mem _)

/-! ### Keys that compare as a linear order does -/

/-- The keys compare as the places of their texts do. -/
def KeysCompare {ρ : Type} [LinearOrder ρ] (key : String → Val × String) (place : String → ρ)
    (xs : List String) : Prop :=
  ∀ s ∈ xs, ∀ t ∈ xs, keyLess (key s) (key t) = .ok (decide (place s < place t))

section Compared

variable {ρ : Type} [LinearOrder ρ] {place : String → ρ} (hinj : Function.Injective place)

lemma KeysCompare.sublist {xs ys : List String} (h : KeysCompare key place ys) (hsub : xs ⊆ ys) :
    KeysCompare key place xs := fun s hs t ht => h s (hsub hs) t (hsub ht)

include hinj

end Compared

end Foundation
