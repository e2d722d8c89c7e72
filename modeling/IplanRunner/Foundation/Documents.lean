import Mathlib.Data.List.Nodup
import Mathlib.Data.List.Perm.Subperm
import IplanRunner.Foundation.Python

/-!
Documents as trees, read at a path.

* `distinctKeys`: the documents that can be built, no key of which occurs twice in one dictionary.
* `Members`, `pyEq_dict_iff`: two dictionaries are equal when the members under every key are.
* `NullAt`: a document holds `None` at a path; `nullAt_of_pyEq`: equal documents hold it at the same
  paths.
-/

namespace Foundation

/-! ### Distinct keys -/

mutual

/-- In no dictionary of the document does a key occur twice. -/
def distinctKeys : Val → Bool
  | .list xs => distinctKeysAll xs
  | .dict kvs => decide (kvs.map Prod.fst).Nodup && distinctKeysMembers kvs
  | _ => true

/-- The elements of a list. -/
def distinctKeysAll : List Val → Bool
  | [] => true
  | x :: xs => distinctKeys x && distinctKeysAll xs

/-- The members of a dictionary. -/
def distinctKeysMembers : List (String × Val) → Bool
  | [] => true
  | (_, v) :: kvs => distinctKeys v && distinctKeysMembers kvs

end

lemma distinctKeys_list_iff {xs : List Val} :
    distinctKeys (.list xs) = true ↔ ∀ x ∈ xs, distinctKeys x = true := by
  rw [distinctKeys]
  induction xs with
  | nil => simp [distinctKeysAll]
  | cons x xs ih => rw [distinctKeysAll, Bool.and_eq_true, ih, List.forall_mem_cons]

lemma distinctKeys_dict_iff {kvs : Dict} : distinctKeys (.dict kvs) = true
    ↔ (kvs.map Prod.fst).Nodup ∧ ∀ p ∈ kvs, distinctKeys p.2 = true := by
  have hmembers : distinctKeysMembers kvs = true ↔ ∀ p ∈ kvs, distinctKeys p.2 = true := by
    induction kvs with
    | nil => simp [distinctKeysMembers]
    | cons p kvs ih =>
        obtain ⟨k, v⟩ := p
        rw [distinctKeysMembers, Bool.and_eq_true, ih, List.forall_mem_cons]
  rw [distinctKeys, Bool.and_eq_true, decide_eq_true_iff, hmembers]

lemma mem_of_lookup {kvs : Dict} {k : String} {v : Val} (h : kvs.lookup k = some v) :
    (k, v) ∈ kvs := by
  obtain ⟨before, after, rfl, -⟩ := List.lookup_eq_some_iff.mp h
  simp

/-- Where keys are distinct, every member is found under its key. -/
lemma lookup_of_mem {kvs : Dict} (hnodup : (kvs.map Prod.fst).Nodup) {k : String} {v : Val}
    (h : (k, v) ∈ kvs) : kvs.lookup k = some v := by
  obtain ⟨before, after, rfl⟩ := List.append_of_mem h
  refine List.lookup_eq_some_iff.mpr ⟨before, after, rfl, fun p hp => ?_⟩
  rw [List.map_append, List.nodup_append] at hnodup
  exact bne_iff_ne.mpr (hnodup.2.2 p.1 (List.mem_map_of_mem hp) k (by simp)).symm

lemma mem_keys_iff {kvs : Dict} {k : String} :
    k ∈ kvs.map Prod.fst ↔ ∃ v, kvs.lookup k = some v := by
  constructor
  · intro h
    cases hl : kvs.lookup k with
    | some v => exact ⟨v, rfl⟩
    | none =>
        obtain ⟨p, hp, rfl⟩ := List.mem_map.mp h
        exact absurd (List.lookup_eq_none_iff.mp hl p hp) (by simp)
  · rintro ⟨v, hv⟩
    exact List.mem_map.mpr ⟨_, mem_of_lookup hv, rfl⟩

lemma distinctKeys_of_lookup {kvs : Dict} (h : distinctKeys (.dict kvs) = true) {k : String}
    {v : Val}
    (hv : kvs.lookup k = some v) : distinctKeys v = true :=
  (distinctKeys_dict_iff.mp h).2 _ (mem_of_lookup hv)

lemma distinctKeys_get {kvs : Dict} (h : distinctKeys (.dict kvs) = true) (k : String) :
    distinctKeys (Dict.get kvs k) = true := by
  rw [Dict.get]
  cases hl : kvs.lookup k with
  | none => rfl
  | some v => exact distinctKeys_of_lookup h hl

/-- Dictionaries with as many keys, those of one among those of the other, have the same keys. -/
lemma keys_subset_of_length {xs ys : Dict} (hnodup : (xs.map Prod.fst).Nodup)
    (hlen : ys.length ≤ xs.length) (h : xs.map Prod.fst ⊆ ys.map Prod.fst) :
    ys.map Prod.fst ⊆ xs.map Prod.fst := by
  have hperm := (hnodup.subperm h).perm_of_length_le (by simpa using hlen)
  exact hperm.symm.subset

/-! ### Members -/

/-- The members of two dictionaries under every key are related. -/
def Members (R : Val → Val → Prop) (xs ys : Dict) : Prop :=
  ∀ k, Option.Rel R (xs.lookup k) (ys.lookup k)

/-- A relation on the members of the first dictionary goes both ways when there are as many members
in the second. -/
lemma members_of_lookup {R : Val → Val → Prop} {xs ys : Dict} (hnodup : (xs.map Prod.fst).Nodup)
    (hlen : ys.length ≤ xs.length)
    (h : ∀ k v, xs.lookup k = some v → ∃ w, ys.lookup k = some w ∧ R v w) : Members R xs ys := by
  have hkeys : ys.map Prod.fst ⊆ xs.map Prod.fst := by
    refine keys_subset_of_length hnodup hlen fun k hk => ?_
    obtain ⟨v, hv⟩ := mem_keys_iff.mp hk
    obtain ⟨w, hw, -⟩ := h k v hv
    exact mem_keys_iff.mpr ⟨w, hw⟩
  intro k
  cases hx : xs.lookup k with
  | some v =>
      obtain ⟨w, hw, hr⟩ := h k v hx
      rw [hw]
      exact .some hr
  | none =>
      cases hy : ys.lookup k with
      | none => exact .none
      | some w =>
          obtain ⟨v, hv⟩ := mem_keys_iff.mp (hkeys (mem_keys_iff.mpr ⟨w, hy⟩))
          rw [hx] at hv
          cases hv

/-- Related members have the same keys, so there are as many. -/
lemma Members.length_eq {R : Val → Val → Prop} {xs ys : Dict} (h : Members R xs ys)
    (hx : (xs.map Prod.fst).Nodup) (hy : (ys.map Prod.fst).Nodup) : xs.length = ys.length := by
  have hkeys : ∀ k, k ∈ xs.map Prod.fst ↔ k ∈ ys.map Prod.fst := by
    intro k
    have hrel := h k
    rw [mem_keys_iff, mem_keys_iff]
    cases hl : xs.lookup k <;> cases hl' : ys.lookup k <;> rw [hl, hl'] at hrel <;> simp
    · cases hrel
    · cases hrel
  have hperm := (List.perm_ext_iff_of_nodup hx hy).mpr hkeys
  simpa using hperm.length_eq

/-! ### Equality -/

lemma pyEqDict_lookup {xs ys : Dict} (h : Val.pyEqDict xs ys = true) {k : String} {v : Val}
    (hv : xs.lookup k = some v) : ∃ w, ys.lookup k = some w ∧ v.pyEq w = true := by
  induction xs with
  | nil => cases hv
  | cons p xs ih =>
      obtain ⟨k', x⟩ := p
      rw [Val.pyEqDict, Bool.and_eq_true] at h
      rw [List.lookup_cons] at hv
      split at hv
      · rename_i hk
        obtain rfl : k = k' := by simpa using hk
        obtain rfl := Option.some.inj hv
        cases hl : ys.lookup k with
        | none => simp [hl] at h
        | some w => exact ⟨w, rfl, by simpa [hl] using h.1⟩
      · exact ih h.2 hv

lemma pyEqDict_of_mem {xs ys : Dict}
    (h : ∀ p ∈ xs, ∃ w, ys.lookup p.1 = some w ∧ p.2.pyEq w = true) :
      Val.pyEqDict xs ys = true := by
  induction xs with
  | nil => rfl
  | cons p xs ih =>
      obtain ⟨k, v⟩ := p
      obtain ⟨w, hw, heq⟩ := h (k, v) List.mem_cons_self
      rw [Val.pyEqDict, hw, ih fun q hq => h q (List.mem_cons_of_mem _ hq)]
      simpa using heq

/-- **Two dictionaries are equal** when their members under every key are. -/
theorem pyEq_dict_iff {xs ys : Dict} (hx : (xs.map Prod.fst).Nodup) (hy : (ys.map Prod.fst).Nodup) :
    (Val.dict xs).pyEq (.dict ys) = true ↔ Members (fun v w => v.pyEq w = true) xs ys := by
  rw [Val.pyEq, Bool.or_eq_true, Bool.and_eq_true, beq_iff_eq, Val.beqDict_iff]
  constructor
  · rintro (rfl | ⟨hlen, hdict⟩)
    · intro k
      cases xs.lookup k with
      | none => exact .none
      | some v => exact .some (Val.pyEq_refl v)
    · exact members_of_lookup hx hlen.ge fun k v hv => pyEqDict_lookup hdict hv
  · intro h
    refine .inr ⟨h.length_eq hx hy, pyEqDict_of_mem fun p hp => ?_⟩
    have hrel := h p.1
    rw [lookup_of_mem hx hp] at hrel
    cases hl : ys.lookup p.1 with
    | none => rw [hl] at hrel; cases hrel
    | some w =>
        rw [hl] at hrel
        cases hrel with | some heq => exact ⟨w, rfl, heq⟩

/-- Two dictionaries with the same keys in the same order are equal when their values are. -/
lemma pyEq_dict_of_keys {xs ys : Dict} (hkeys : xs.map Prod.fst = ys.map Prod.fst)
    (hnodup : (xs.map Prod.fst).Nodup) : (Val.dict xs).pyEq (.dict ys) = true
      ↔ List.Forall₂ (fun p q => p.2.pyEq q.2 = true) xs ys := by
  rw [pyEq_dict_iff hnodup (hkeys ▸ hnodup)]
  have hlen : xs.length = ys.length := by simpa using congrArg List.length hkeys
  constructor
  · intro h
    refine List.forall₂_iff_get.mpr ⟨hlen, fun i hi hi' => ?_⟩
    have hkey : (List.get xs ⟨i, hi⟩).1 = (List.get ys ⟨i, hi'⟩).1 := by
      have hget : (xs.map Prod.fst)[i]? = (ys.map Prod.fst)[i]? := by rw [hkeys]
      simpa [List.getElem?_eq_getElem hi, List.getElem?_eq_getElem hi'] using hget
    have hrel := h (List.get xs ⟨i, hi⟩).1
    rw [lookup_of_mem hnodup (List.get_mem xs ⟨i, hi⟩), hkey,
      lookup_of_mem (hkeys ▸ hnodup) (List.get_mem ys ⟨i, hi'⟩)] at hrel
    cases hrel with | some heq => exact heq
  · intro h
    refine members_of_lookup hnodup hlen.ge fun k v hv => ?_
    clear hnodup hlen
    induction h with
    | nil => cases hv
    | @cons p q xs ys heq hall ih =>
        obtain ⟨k₁, v₁⟩ := p
        obtain ⟨k₂, v₂⟩ := q
        obtain ⟨rfl, hrest⟩ : k₁ = k₂ ∧ xs.map Prod.fst = ys.map Prod.fst := by simpa using hkeys
        rw [List.lookup_cons] at hv ⊢
        split at hv
        · exact ⟨v₂, rfl, by rwa [← Option.some.inj hv]⟩
        · exact ih hrest hv

lemma pyEqList_getElem? {xs ys : List Val} (h : Val.pyEqList xs ys = true) (i : ℕ) :
    Option.Rel (fun v w => v.pyEq w = true) xs[i]? ys[i]? := by
  induction xs generalizing ys i with
  | nil =>
      cases ys with
      | nil => exact .none
      | cons y ys => cases h
  | cons x xs ih =>
      cases ys with
      | nil => cases h
      | cons y ys =>
          rw [Val.pyEqList, Bool.and_eq_true] at h
          cases i with
          | zero => exact .some h.1
          | succ i => exact ih h.2 i

/-! ### Paths -/

/-- A step into a document. -/
inductive DocStep where
  | key (k : String)
  | index (i : ℕ)

/-- The document holds `None` at the path. -/
def NullAt : Val → List DocStep → Prop
  | v, [] => v = .none
  | .dict kvs, .key k :: rest => ∃ v, kvs.lookup k = some v ∧ NullAt v rest
  | .list xs, .index i :: rest => ∃ v, xs[i]? = some v ∧ NullAt v rest
  | _, _ :: _ => False

@[simp] lemma nullAt_nil {v : Val} : NullAt v [] ↔ v = .none := by rw [NullAt]

lemma nullAt_key {kvs : Dict} {k : String} {rest : List DocStep} :
    NullAt (.dict kvs) (.key k :: rest) ↔ ∃ v, kvs.lookup k = some v ∧ NullAt v rest := by
      rw [NullAt]

lemma nullAt_index {xs : List Val} {i : ℕ} {rest : List DocStep} :
    NullAt (.list xs) (.index i :: rest) ↔ ∃ v, xs[i]? = some v ∧ NullAt v rest := by rw [NullAt]

/-- Only a dictionary holds something under a key. -/
lemma dict_of_nullAt {v : Val} {k : String} {rest : List DocStep} (h : NullAt v (.key k :: rest)) :
    ∃ kvs, v = .dict kvs := by
  cases v with
  | dict kvs => exact ⟨kvs, rfl⟩
  | _ => simp [NullAt] at h

lemma list_of_nullAt {v : Val} {i : ℕ} {rest : List DocStep} (h : NullAt v (.index i :: rest)) :
    ∃ xs, v = .list xs := by
  cases v with
  | list xs => exact ⟨xs, rfl⟩
  | _ => simp [NullAt] at h

/-- Below a key there is what there is below the value under it. -/
lemma nullAt_get {kvs : Dict} {k : String} {rest : List DocStep} (hrest : rest ≠ []) :
    NullAt (.dict kvs) (.key k :: rest) ↔ NullAt (Dict.get kvs k) rest := by
  rw [nullAt_key, Dict.get]
  cases kvs.lookup k with
  | some v => simp
  | none =>
      cases rest with
      | nil => exact absurd rfl hrest
      | cons step rest => simp [NullAt]

/-- **Equal documents** hold `None` at the same paths. -/
theorem nullAt_of_pyEq {path : List DocStep} {v w : Val} (hv : distinctKeys v = true)
    (hw : distinctKeys w = true) (h : v.pyEq w = true) : NullAt v path ↔ NullAt w path := by
  induction path generalizing v w with
  | nil =>
      rw [nullAt_nil, nullAt_nil]
      constructor
      · rintro rfl
        cases w <;> simp [Val.pyEq] at h ⊢
      · rintro rfl
        exact (Val.pyEq_none_iff v).mp h
  | cons step path ih =>
      have hsub : ∀ {o o' : Option Val}, (∀ x, o = some x → distinctKeys x = true) →
          (∀ x, o' = some x → distinctKeys x = true) →
            Option.Rel (fun v w => v.pyEq w = true) o o' →
          ((∃ x, o = some x ∧ NullAt x path) ↔ ∃ x, o' = some x ∧ NullAt x path) := by
        intro o o' ho ho' hrel
        cases hrel with
        | none => simp
        | some heq => simpa using ih (ho _ rfl) (ho' _ rfl) heq
      cases v with
      | dict xs =>
          cases w with
          | dict ys =>
              cases step with
              | key k =>
                  rw [nullAt_key, nullAt_key]
                  exact hsub (fun x hx => distinctKeys_of_lookup hv hx)
                    (fun x hx => distinctKeys_of_lookup hw hx) ((pyEq_dict_iff
                      (distinctKeys_dict_iff.mp hv).1 (distinctKeys_dict_iff.mp hw).1).mp h k)
              | index i => simp [NullAt]
          | _ => simp [Val.pyEq] at h
      | list xs =>
          cases w with
          | list ys =>
              cases step with
              | key k => simp [NullAt]
              | index i =>
                  rw [nullAt_index, nullAt_index]
                  rw [Val.pyEq] at h
                  exact hsub (fun x hx => distinctKeys_list_iff.mp hv x (List.mem_of_getElem? hx))
                    (fun x hx => distinctKeys_list_iff.mp hw x (List.mem_of_getElem? hx))
                    (pyEqList_getElem? h i)
          | _ => simp [Val.pyEq] at h
      | _ => cases w <;> simp [Val.pyEq, Val.num?, NullAt] at h ⊢

end Foundation
