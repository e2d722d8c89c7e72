import Mathlib.Data.List.AList

/-!
Tables with a primary key, as an SQL database keeps them.

* `Table`: the rows by their keys, the newest first; `rows`: the keys and the rows, in the order of
  their `rowid`s.
* `insertIgnore`, `insertReplace`, `update`, `deleteWhere`: `INSERT OR IGNORE`, `INSERT OR REPLACE`,
  `UPDATE .. WHERE` on a key and `DELETE .. WHERE` on the rows; one lemma for each says what can be
  looked up afterwards.
-/

namespace Foundation

/-- A table. -/
abbrev Table (κ ρ : Type) : Type := AList fun _ : κ => ρ

namespace Table

variable {κ ρ : Type}

/-- `SELECT * .. ORDER BY rowid`. -/
def rows (t : Table κ ρ) : List (κ × ρ) := t.entries.reverse.map fun e => (e.1, e.2)

/-- `DELETE .. WHERE`. -/
def deleteWhere (p : ρ → Bool) (t : Table κ ρ) : Table κ ρ :=
  ⟨t.entries.filter fun e => !p e.2, t.nodupKeys.sublist (List.filter_sublist)⟩

/-- How many rows a `DELETE .. WHERE` deletes. -/
def countWhere (p : ρ → Bool) (t : Table κ ρ) : ℕ := t.entries.countP fun e => p e.2

variable [DecidableEq κ] {t : Table κ ρ} {k k' : κ} {r : ρ}

/-- `INSERT OR IGNORE`. -/
def insertIgnore (k : κ) (r : ρ) (t : Table κ ρ) : Table κ ρ := if k ∈ t then t else t.insert k r

/-- `INSERT OR REPLACE`: a row that is replaced is deleted first, so the new one is the newest. -/
def insertReplace (k : κ) (r : ρ) (t : Table κ ρ) : Table κ ρ := t.insert k r

/-- A row of `UPDATE .. WHERE`. -/
def updated (k : κ) (f : ρ → ρ) (e : Sigma fun _ : κ => ρ) : Sigma fun _ : κ => ρ :=
  if e.1 = k then ⟨e.1, f e.2⟩ else e

@[simp] lemma updated_fst (f : ρ → ρ) (e : Sigma fun _ : κ => ρ) :
    (updated k f e).1 = e.1 := by
  rw [updated]
  split_ifs
  · rfl
  · rfl

/-- `UPDATE .. WHERE` on a key. -/
def update (k : κ) (f : ρ → ρ) (t : Table κ ρ) : Table κ ρ :=
  ⟨t.entries.map (updated k f), by
    have hkeys : (t.entries.map (updated k f)).keys = t.entries.keys := by
      rw [List.keys, List.map_map]
      exact List.map_congr_left fun e _ => updated_fst f e
    rw [List.NodupKeys, hkeys]
    exact t.nodupKeys⟩

lemma mem_rows_iff : (k, r) ∈ t.rows ↔ t.lookup k = some r := by
  rw [rows, List.mem_map]
  constructor
  · rintro ⟨⟨k₁, r₁⟩, hmem, heq⟩
    cases heq
    exact AList.mem_lookup_iff.mpr (List.mem_reverse.mp hmem)
  · intro h
    exact ⟨⟨k, r⟩, List.mem_reverse.mpr (AList.mem_lookup_iff.mp h), rfl⟩

lemma lookup_insertIgnore : (t.insertIgnore k r).lookup k'
    = if k' = k then some ((t.lookup k).getD r) else t.lookup k' := by
  rw [insertIgnore]
  by_cases hmem : k ∈ t
  · rw [if_pos hmem]
    obtain ⟨r', hr'⟩ := Option.isSome_iff_exists.mp (AList.lookup_isSome.mpr hmem)
    by_cases hk : k' = k
    · rw [if_pos hk, hk, hr', Option.getD_some]
    · rw [if_neg hk]
  · rw [if_neg hmem]
    by_cases hk : k' = k
    · rw [if_pos hk, hk, AList.lookup_insert, AList.lookup_eq_none.mpr hmem, Option.getD_none]
    · rw [if_neg hk, AList.lookup_insert_ne hk]

lemma lookup_insertReplace : (t.insertReplace k r).lookup k'
    = if k' = k then some r else t.lookup k' := by
  rw [insertReplace]
  by_cases hk : k' = k
  · rw [if_pos hk, hk, AList.lookup_insert]
  · rw [if_neg hk, AList.lookup_insert_ne hk]

lemma lookup_update {f : ρ → ρ} : (t.update k f).lookup k'
    = if k' = k then (t.lookup k).map f else t.lookup k' := by
  have hmem : ∀ b, b ∈ (t.update k f).lookup k' ↔ ∃ a, a ∈ t.lookup k'
      ∧ b = if k' = k then f a else a := by
    intro b
    rw [AList.mem_lookup_iff, update, List.mem_map]
    constructor
    · rintro ⟨⟨k₁, a⟩, ha, heq⟩
      rw [updated] at heq
      split_ifs at heq with hk₁
      · cases heq
        exact ⟨a, AList.mem_lookup_iff.mpr ha, by rw [if_pos hk₁]⟩
      · cases heq
        exact ⟨b, AList.mem_lookup_iff.mpr ha, by rw [if_neg hk₁]⟩
    · rintro ⟨a, ha, rfl⟩
      refine ⟨⟨k', a⟩, AList.mem_lookup_iff.mp ha, ?_⟩
      rw [updated]
      split_ifs
      · rfl
      · rfl
  refine Option.ext fun b => (hmem b).trans ?_
  by_cases hk : k' = k
  · subst hk
    rw [if_pos rfl, Option.map_eq_some_iff]
    exact exists_congr fun a => and_congr_right fun _ => by rw [if_pos rfl, eq_comm]
  · simp only [if_neg hk]
    exact ⟨fun ⟨a, ha, heq⟩ => heq ▸ ha, fun h => ⟨b, h, rfl⟩⟩

lemma lookup_deleteWhere {p : ρ → Bool} :
    (t.deleteWhere p).lookup k = (t.lookup k).filter fun r => !p r := by
  refine Option.ext fun b => ?_
  rw [← Option.mem_def, ← Option.mem_def, AList.mem_lookup_iff, deleteWhere, List.mem_filter,
    ← AList.mem_lookup_iff, Option.mem_filter_iff]

/-- A row that is there is deleted exactly when it meets the condition. -/
lemma lookup_deleteWhere_of_some {p : ρ → Bool} {q : Prop} [Decidable q] (h : t.lookup k = some r)
    (hp : p r = true ↔ q) : (t.deleteWhere p).lookup k = if q then none else some r := by
  rw [lookup_deleteWhere, h, Option.filter_some]
  by_cases hq : q
  · rw [if_pos hq, hp.mpr hq]
    rfl
  · rw [if_neg hq, Bool.eq_false_iff.mpr fun htrue => hq (hp.mp htrue)]
    rfl

lemma lookup_deleteWhere_of_none {p : ρ → Bool} (h : t.lookup k = none) :
    (t.deleteWhere p).lookup k = none := by
  rw [lookup_deleteWhere, h]
  rfl

end Table

end Foundation
