import Mathlib.Data.List.Basic

/-!
Logs that say what has become of the values of a map.

* `lastWord`: the last thing the events of a log say; `lastWord_append`, `lastWord_mem`: the log of
  two phases, and the event it is from.
* `Retold`: each value is as before where the log says nothing, and fits the last word elsewhere.
* `Retold.append`: the log of two phases retells both; `Retold.congr`: what is said matters only.
-/

namespace Foundation

section LastWord

variable {E S : Type*} {said : E → Option S}

/-- The last thing the events of a log say. -/
def lastWord (said : E → Option S) (log : List E) : Option S := log.reverse.findSome? said

@[simp] lemma lastWord_nil : lastWord said [] = none := rfl

lemma lastWord_append (first rest : List E) :
    lastWord said (first ++ rest) = (lastWord said rest).or (lastWord said first) := by
  rw [lastWord, List.reverse_append, List.findSome?_append]
  rfl

/-- The last word is that of an event. -/
lemma lastWord_mem {log : List E} {s : S} (h : lastWord said log = some s) :
    ∃ e ∈ log, said e = some s := by
  obtain ⟨e, he, hsaid⟩ := List.exists_of_findSome?_eq_some h
  exact ⟨e, List.mem_reverse.mp he, hsaid⟩

/-- Nothing is said by events that say nothing. -/
lemma lastWord_eq_none_iff {log : List E} :
    lastWord said log = none ↔ ∀ e ∈ log, said e = none := by
  rw [lastWord, List.findSome?_eq_none_iff]
  simp

/-- All that is said is one thing. -/
lemma lastWord_of_agree {log : List E} {s : S} (hall : ∀ e ∈ log, ∀ s', said e = some s' → s' = s)
    (hsome : ∃ e ∈ log, said e ≠ none) : lastWord said log = some s := by
  cases hlast : lastWord said log with
  | none =>
      obtain ⟨e, he, hne⟩ := hsome
      exact absurd (lastWord_eq_none_iff.mp hlast e he) hne
  | some s' =>
      obtain ⟨e, he, hsaid⟩ := lastWord_mem hlast
      rw [hall e he s' hsaid]

end LastWord

section Retold

variable {K E S V : Type*} {said : K → E → Option S} {fits : S → V → Prop}

/-- The log tells what has become of a map: a value it says nothing of is as before, and one it does
fits the last word. -/
structure Retold (said : K → E → Option S) (fits : S → V → Prop) (before : K → V) (log : List E)
    (after : K → V) : Prop where
  silent : ∀ k, lastWord (said k) log = none → after k = before k
  spoken : ∀ k s, lastWord (said k) log = some s → fits s (after k)

lemma Retold.nil {before : K → V} : Retold said fits before [] before :=
  ⟨fun _ _ => rfl, fun _ _ h => by cases h⟩

/-- **The log of two phases retells both.** -/
lemma Retold.append {before middle after : K → V} {first rest : List E}
    (hfirst : Retold said fits before first middle) (hrest : Retold said fits middle rest after) :
    Retold said fits before (first ++ rest) after := by
  constructor
  · intro k hnone
    rw [lastWord_append, Option.or_eq_none_iff] at hnone
    rw [hrest.silent k hnone.1, hfirst.silent k hnone.2]
  · intro k s hsome
    rw [lastWord_append] at hsome
    cases hlast : lastWord (said k) rest with
    | some s' =>
        rw [hlast, Option.some_or] at hsome
        exact hrest.spoken k s (hlast.trans hsome)
    | none =>
        rw [hlast, Option.none_or] at hsome
        rw [hrest.silent k hlast]
        exact hfirst.spoken k s hsome

/-- Another way to read the log that reads the same. -/
lemma Retold.congr {said' : K → E → Option S} {before after : K → V} {log : List E}
    (h : Retold said fits before log after) (hsame : ∀ k e, said' k e = said k e) :
    Retold said' fits before log after := by
  obtain rfl : said' = said := funext fun k => funext (hsame k)
  exact h

end Retold

end Foundation
