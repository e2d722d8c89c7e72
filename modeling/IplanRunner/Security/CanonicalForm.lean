import IplanRunner.Foundation.Documents
import IplanRunner.Security.Canonical

/-!
Documents with the same canonical form.

* `SameForm`: equal up to the order of keys and to members that are `None` or absent.
* `SameForm.get`: so are the values under every key.
* `NullsAlike`, `pyEq_of_nulls`: such documents are equal when they hold `None` at the same places.
-/

namespace IplanRunner

open Foundation

/-- The documents have the same canonical form. -/
def SameForm (v w : Val) : Prop := (dropNull v).same (dropNull w) = true

instance (v w : Val) : Decidable (SameForm v w) := inferInstanceAs (Decidable (_ = true))

/-! ### Members that are dropped -/

/-- The members that stay are those that are not `None`. -/
lemma lookup_dropNullDict {kvs : Dict} (h : (kvs.map Prod.fst).Nodup) (k : String) :
    (dropNullDict kvs).lookup k = ((kvs.lookup k).filter (· ≠ .none)).map dropNull := by
  induction kvs with
  | nil => rfl
  | cons p kvs ih =>
      obtain ⟨k', v⟩ := p
      rw [List.map_cons, List.nodup_cons] at h
      rw [dropNullDict, List.lookup_cons]
      by_cases hk : k = k'
      · subst hk
        have hnone : kvs.lookup k = none := by
          cases hl : kvs.lookup k with
          | none => rfl
          | some w => exact absurd (mem_keys_iff.mpr ⟨w, hl⟩) h.1
        by_cases hv : v = .none
        · rw [if_pos hv, ih h.2, hnone]
          simp [hv, Option.filter]
        · rw [if_neg hv]
          simp [hv, Option.filter]
      · have hne : (k == k') = false := by simpa using hk
        by_cases hv : v = .none
        · rw [if_pos hv, ih h.2, hne]
        · rw [if_neg hv, List.lookup_cons, hne, ih h.2]

lemma nodup_dropNullDict {kvs : Dict} (h : (kvs.map Prod.fst).Nodup) :
    ((dropNullDict kvs).map Prod.fst).Nodup := by
  have hsub : ((dropNullDict kvs).map Prod.fst).Sublist (kvs.map Prod.fst) := by
    clear h
    induction kvs with
    | nil => exact .refl _
    | cons p kvs ih =>
        obtain ⟨k, v⟩ := p
        rw [dropNullDict]
        split
        · exact ih.cons k
        · exact ih.cons_cons k
  exact h.sublist hsub

/-! ### The parts of documents of one form -/

lemma sameForm_none_iff {w : Val} : SameForm .none w ↔ w = .none := by
  cases w <;> simp [SameForm, dropNull, Val.same]

lemma sameForm_to_none_iff {v : Val} : SameForm v .none ↔ v = .none := by
  cases v <;> simp [SameForm, dropNull, Val.same]

lemma SameForm.dict {kvs : Dict} {w : Val} (h : SameForm (.dict kvs) w) :
    ∃ kvs', w = .dict kvs' := by
  cases w with
  | dict kvs' => exact ⟨kvs', rfl⟩
  | _ => simp [SameForm, dropNull, Val.same] at h

lemma SameForm.list {xs : List Val} {w : Val} (h : SameForm (.list xs) w) :
    ∃ ys, w = .list ys ∧ List.Forall₂ SameForm xs ys := by
  cases w with
  | list ys =>
      refine ⟨ys, rfl, ?_⟩
      rw [SameForm, dropNull, dropNull, Val.same] at h
      induction xs generalizing ys with
      | nil =>
          cases ys with
          | nil => exact .nil
          | cons y ys => cases h
      | cons x xs ih =>
          cases ys with
          | nil => cases h
          | cons y ys =>
              rw [dropNullList, dropNullList, Val.sameList, Bool.and_eq_true] at h
              exact .cons h.1 (ih ys h.2)
  | _ => simp [SameForm, dropNull, Val.same] at h

/-- A value that is neither a list nor a dictionary has no other of its form. -/
lemma SameForm.eq_of_atom {v w : Val} (h : SameForm v w) (hlist : ∀ xs, v ≠ .list xs)
    (hdict : ∀ kvs, v ≠ .dict kvs) : w = v := by
  cases v with
  | list xs => exact absurd rfl (hlist xs)
  | dict kvs => exact absurd rfl (hdict kvs)
  | _ => cases w <;> simp_all [SameForm, dropNull, Val.same]

/-- **Under every key** of dictionaries of one form are values of one form. -/
theorem SameForm.get {d d' : Dict} (h : SameForm (.dict d) (.dict d'))
    (hd : distinctKeys (.dict d) = true) (hd' : distinctKeys (.dict d') = true) (k : String) :
    SameForm (Dict.get d k) (Dict.get d' k) := by
  have hnodup := (distinctKeys_dict_iff.mp hd).1
  have hnodup' := (distinctKeys_dict_iff.mp hd').1
  rw [SameForm, dropNull, dropNull, Val.same, Bool.and_eq_true, beq_iff_eq] at h
  have hrel := members_of_lookup (nodup_dropNullDict hnodup) h.1.ge
    (fun k v hv => Val.sameDict_lookup h.2 hv) k
  rw [lookup_dropNullDict hnodup, lookup_dropNullDict hnodup'] at hrel
  -- a member that is dropped reads as one that is absent
  have hread : ∀ o : Option Val, o.getD .none = ((o.filter (· ≠ .none)).getD .none) := by
    intro o
    cases o with
    | none => rfl
    | some v => by_cases hv : v = .none <;> simp [hv, Option.filter]
  rw [Dict.get, Dict.get, hread, hread (d'.lookup k)]
  generalize ho : (d.lookup k).filter (· ≠ .none) = o at hrel ⊢
  generalize ho' : (d'.lookup k).filter (· ≠ .none) = o' at hrel ⊢
  cases o with
  | none =>
      cases o' with
      | none => exact sameForm_none_iff.mpr rfl
      | some w => cases hrel
  | some v =>
      cases o' with
      | none => cases hrel
      | some w => cases hrel with | some hsame => exact hsame

/-! ### Where `None` is -/

/-- Below the top, the documents hold `None` at the same places. -/
def NullsAlike (v w : Val) : Prop := ∀ path ≠ [], (NullAt v path ↔ NullAt w path)

/-- The documents are well built, of one form, and hold `None` at the same places below the top. -/
structure Alike (v w : Val) : Prop where
  left : distinctKeys v = true
  right : distinctKeys w = true
  form : SameForm v w
  nulls : NullsAlike v w

/-- So are the members of two such dictionaries. -/
lemma Alike.members {d d' : Dict} (h : Alike (.dict d) (.dict d')) : Members Alike d d' := by
  intro k
  have hform := h.form.get h.left h.right k
  have hnull : d.lookup k = some .none ↔ d'.lookup k = some .none := by
    have hpath := h.nulls [.key k] (by simp)
    rw [nullAt_key, nullAt_key] at hpath
    simpa using hpath
  have hbelow : ∀ {v w : Val}, d.lookup k = some v → d'.lookup k = some w → NullsAlike v w := by
    intro v w hv hw path hne
    have hpath := h.nulls (.key k :: path) (by simp)
    rw [nullAt_key, nullAt_key, hv, hw] at hpath
    simpa using hpath
  rw [Dict.get, Dict.get] at hform
  cases hv : d.lookup k with
  | none =>
      rw [hv, Option.getD_none, sameForm_none_iff] at hform
      cases hw : d'.lookup k with
      | none => exact .none
      | some w =>
          rw [hw, Option.getD_some] at hform
          rw [hv, hw, hform] at hnull
          simp at hnull
  | some v =>
      cases hw : d'.lookup k with
      | none =>
          rw [hv, hw, Option.getD_none, Option.getD_some, sameForm_to_none_iff] at hform
          rw [hv, hw, hform] at hnull
          simp at hnull
      | some w =>
          rw [hv, hw, Option.getD_some, Option.getD_some] at hform
          exact .some ⟨distinctKeys_of_lookup h.left hv, distinctKeys_of_lookup h.right hw, hform,
            hbelow hv hw⟩

lemma Alike.elements {xs ys : List Val} (h : Alike (.list xs) (.list ys)) :
    List.Forall₂ Alike xs ys := by
  obtain ⟨ys', hys, hall⟩ := h.form.list
  obtain rfl := Val.list.inj hys
  rw [List.forall₂_iff_get] at hall ⊢
  refine ⟨hall.1, fun i hi hi' => ⟨distinctKeys_list_iff.mp h.left _ (List.get_mem xs ⟨i, hi⟩),
    distinctKeys_list_iff.mp h.right _ (List.get_mem ys ⟨i, hi'⟩), hall.2 i hi hi',
    fun path hne => ?_⟩⟩
  have hpath := h.nulls (.index i :: path) (by simp)
  rw [nullAt_index, nullAt_index] at hpath
  simpa [List.getElem?_eq_getElem hi, List.getElem?_eq_getElem hi'] using hpath

mutual

/-- **Documents of one form are equal** when they hold `None` at the same places. -/
theorem pyEq_of_alike : ∀ {v w : Val}, Alike v w → v.pyEq w = true
  | .list xs, w, h => by
      obtain ⟨ys, rfl, -⟩ := h.form.list
      rw [Val.pyEq]
      exact pyEqList_of_alike h.elements
  | .dict xs, w, h => by
      obtain ⟨ys, rfl⟩ := h.form.dict
      have hnodup := (distinctKeys_dict_iff.mp h.left).1
      have hlen : xs.length = ys.length :=
        h.members.length_eq hnodup (distinctKeys_dict_iff.mp h.right).1
      have hdict : Val.pyEqDict xs ys = true := by
        refine pyEqDict_of_alike fun p hp => ?_
        have hrel := h.members p.1
        rw [lookup_of_mem hnodup hp] at hrel
        cases hl : ys.lookup p.1 with
        | none => rw [hl] at hrel; cases hrel
        | some w =>
            rw [hl] at hrel
            cases hrel with | some halike => exact ⟨w, rfl, halike⟩
      rw [Val.pyEq, hlen, hdict]
      simp
  | .none, w, h => by rw [h.form.eq_of_atom (by simp) (by simp)]; exact Val.pyEq_refl _
  | .bool _, w, h => by rw [h.form.eq_of_atom (by simp) (by simp)]; exact Val.pyEq_refl _
  | .int _, w, h => by rw [h.form.eq_of_atom (by simp) (by simp)]; exact Val.pyEq_refl _
  | .float _ _, w, h => by rw [h.form.eq_of_atom (by simp) (by simp)]; exact Val.pyEq_refl _
  | .str _, w, h => by rw [h.form.eq_of_atom (by simp) (by simp)]; exact Val.pyEq_refl _
  | .stamp _, w, h => by rw [h.form.eq_of_atom (by simp) (by simp)]; exact Val.pyEq_refl _

theorem pyEqList_of_alike :
    ∀ {xs ys : List Val}, List.Forall₂ Alike xs ys → Val.pyEqList xs ys = true
  | [], _, h => by
      cases h
      rfl
  | x :: xs, _, h => by
      cases h with
      | cons hx hxs => rw [Val.pyEqList, pyEq_of_alike hx, pyEqList_of_alike hxs]; rfl

theorem pyEqDict_of_alike :
    ∀ {xs ys : Dict}, (∀ p ∈ xs, ∃ w, ys.lookup p.1 = some w ∧ Alike p.2 w) →
    Val.pyEqDict xs ys = true
  | [], _, _ => rfl
  | (k, v) :: xs, ys, h => by
      obtain ⟨w, hw, halike⟩ := h (k, v) List.mem_cons_self
      rw [Val.pyEqDict, hw, pyEqDict_of_alike fun p hp => h p (List.mem_cons_of_mem _ hp)]
      simpa using pyEq_of_alike halike

end

/-- Documents of one form are equal exactly when they hold `None` at the same places below the
top. -/
theorem pyEq_iff_nullsAlike {v w : Val} (hv : distinctKeys v = true) (hw : distinctKeys w = true)
    (h : SameForm v w) : v.pyEq w = true ↔ NullsAlike v w :=
  ⟨fun heq _ _ => nullAt_of_pyEq hv hw heq, fun hn => pyEq_of_alike ⟨hv, hw, h, hn⟩⟩

end IplanRunner
