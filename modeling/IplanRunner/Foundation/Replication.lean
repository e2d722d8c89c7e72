import Mathlib.Data.List.Nodup
import Mathlib.Data.List.Perm.Subperm

/-!
A log that records an element once for each key, fed by senders that repeat themselves and lose
answers.

* `recordOnce`: an element is recorded where its key is new.
* `Replica`: the log records elements of a list, each once, and is a first part of the list apart
  from the keys that are left out.
* `Replica.record`: it stays one when an element is recorded behind those before it;
  `Replica.leave`: and when more keys are left out; `Replica.complete`: it has caught up with the
  list when nothing is missing.
-/

namespace Foundation

variable {α κ : Type} [DecidableEq κ]

/-- What an idempotent receiver makes of an element. -/
def recordOnce (key : α → κ) (log : List α) (a : α) : List α :=
  if key a ∈ log.map key then log else log ++ [a]

variable {key : α → κ} {log l before after : List α} {a b : α}

/-- What has been recorded stays recorded. -/
lemma mem_recordOnce_of_mem (h : b ∈ log) : b ∈ recordOnce key log a := by
  rw [recordOnce]
  split_ifs
  · exact h
  · exact List.mem_append_left _ h

/-- Nothing else is recorded. -/
lemma mem_of_mem_recordOnce (h : b ∈ recordOnce key log a) : b ∈ log ∨ b = a := by
  rw [recordOnce] at h
  split_ifs at h
  · exact Or.inl h
  · simpa using h

/-- An element of the list is recorded once it has been sent, where keys tell elements apart. -/
lemma mem_recordOnce_self (hnodup : (l.map key).Nodup) (hlog : log ⊆ l) (ha : a ∈ l) :
    a ∈ recordOnce key log a := by
  rw [recordOnce]
  split_ifs with hkey
  · obtain ⟨b, hb, hsame⟩ := List.mem_map.mp hkey
    rwa [← List.inj_on_of_nodup_map hnodup (hlog hb) ha hsame]
  · simp

lemma nodup_recordOnce (h : (log.map key).Nodup) : ((recordOnce key log a).map key).Nodup := by
  rw [recordOnce]
  split_ifs with hkey
  · exact h
  · rw [List.map_append, List.map_singleton]
    exact List.Nodup.append h (List.nodup_singleton _) (List.disjoint_singleton.mpr hkey)

/-- A first part that holds what is before an element, and not the element, ends there. -/
lemma eq_before_of_prefix {p : List α} (h : p <+: before ++ a :: after)
    (hnodup : (before ++ a :: after).Nodup) (hbefore : before ⊆ p) (ha : a ∉ p) : p = before := by
  obtain ⟨rest, hrest⟩ := h
  rcases List.append_eq_append_iff.mp hrest with ⟨middle, hmiddle, -⟩ | ⟨middle, hmiddle, hlast⟩
  · have hp : p.Nodup := by
      rw [← hrest] at hnodup
      exact (List.nodup_append.mp hnodup).1
    have hlength : before.length ≤ p.length :=
      ((List.nodup_append.mp hnodup).1.subperm hbefore).length_le
    rw [hmiddle, List.length_append] at hlength
    rw [hmiddle, List.eq_nil_of_length_eq_zero (show middle.length = 0 by omega), List.append_nil]
  · cases middle with
    | nil => simpa using hmiddle
    | cons c middle =>
        rw [List.cons_append, List.cons.injEq] at hlast
        refine absurd ?_ ha
        rw [hmiddle, hlast.1]
        simp

/-! ### A replica -/

/-- The log records elements of the list, each once, and in their order without a gap apart from
the keys that are left out. -/
structure Replica (key : α → κ) (l : List α) (out : κ → Bool) (log : List α) : Prop where
  recorded : log ⊆ l
  once : (log.map key).Nodup
  inPlace : (log.filter fun a => !out (key a)) <+: l.filter fun a => !out (key a)

variable {out out' : κ → Bool}

omit [DecidableEq κ] in
lemma replica_nil : Replica key l out [] :=
  ⟨List.nil_subset _, List.nodup_nil, List.nil_prefix⟩

omit [DecidableEq κ] in
/-- More keys are left out. -/
lemma Replica.leave (h : Replica key l out log) (hout : ∀ k, out k = true → out' k = true) :
    Replica key l out' log := by
  refine ⟨h.recorded, h.once, ?_⟩
  have hfilter : ∀ m : List α, (m.filter fun a => !out' (key a))
      = (m.filter fun a => !out (key a)).filter fun a => !out' (key a) := by
    intro m
    rw [List.filter_filter]
    refine List.filter_congr fun a _ => ?_
    cases hkey : out (key a) with
    | false => simp
    | true => simp [hout _ hkey]
  rw [hfilter log, hfilter l]
  exact h.inPlace.filter _

/-- **An element is recorded behind those before it.**  Whatever is repeated, the log goes on in
place when the predecessors of what is sent are recorded or left out. -/
theorem Replica.record (h : Replica key l out log) (hnodup : (l.map key).Nodup)
    (hl : l = before ++ a :: after) (hbefore : ∀ b ∈ before, out (key b) = true ∨ b ∈ log) :
    Replica key l out (recordOnce key log a) := by
  have ha : a ∈ l := by
    rw [hl]
    simp
  refine ⟨fun b hb => ?_, nodup_recordOnce h.once, ?_⟩
  · rcases mem_of_mem_recordOnce hb with hb | rfl
    · exact h.recorded hb
    · exact ha
  · rw [recordOnce]
    split_ifs with hkey
    · exact h.inPlace
    · rw [List.filter_append]
      by_cases hleft : out (key a) = true
      · rw [List.filter_cons_of_neg (by simp [hleft]), List.filter_nil, List.append_nil]
        exact h.inPlace
      · have hsplit : l.filter (fun a => !out (key a))
            = before.filter (fun a => !out (key a)) ++ a :: after.filter fun a => !out (key a) := by
          rw [hl, List.filter_append, List.filter_cons_of_pos (by simp [hleft])]
        have hthere : log.filter (fun a => !out (key a))
            = before.filter fun a => !out (key a) := by
          have hleft := (List.Nodup.of_map key hnodup).filter fun a => !out (key a)
          refine eq_before_of_prefix (hsplit ▸ h.inPlace) (hsplit ▸ hleft) ?_ ?_
          · intro b hb
            obtain ⟨hb, hkept⟩ := List.mem_filter.mp hb
            refine List.mem_filter.mpr ⟨(hbefore b hb).resolve_left fun hout => ?_, hkept⟩
            rw [hout] at hkept
            cases hkept
          · exact fun hin => hkey (List.mem_map_of_mem (List.mem_filter.mp hin).1)
        rw [hthere, hsplit, List.filter_cons_of_pos (by simp [hleft]), List.filter_nil]
        exact ⟨_, by rw [List.append_assoc, List.singleton_append]⟩

omit [DecidableEq κ] in
/-- **The log has caught up with the list** when nothing but what is left out is missing. -/
theorem Replica.complete (h : Replica key l out log) (hnodup : (l.map key).Nodup)
    (hall : ∀ a ∈ l, out (key a) = true ∨ a ∈ log) :
    (log.filter fun a => !out (key a)) = l.filter fun a => !out (key a) := by
  have hleft := (List.Nodup.of_map key hnodup).filter fun a => !out (key a)
  refine h.inPlace.eq_of_length_le (List.Nodup.subperm hleft fun a ha => ?_).length_le
  obtain ⟨ha, hkept⟩ := List.mem_filter.mp ha
  refine List.mem_filter.mpr ⟨(hall a ha).resolve_left fun hout => ?_, hkept⟩
  rw [hout] at hkept
  cases hkept

end Foundation
