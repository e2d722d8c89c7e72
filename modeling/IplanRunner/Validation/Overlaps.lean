import IplanRunner.Validation.LedgerRules

/-!
Leases that overlap, among those filed under one key.

* `filedBy`, `overlapsBy`: the loop the ledger rules and the chain rules share, over leases filed by
  a member; `leaseFindings_eq` says that the one of the ledger rules files them by task.
* `leasesOverlap_dicts`, `anyOverlap_eq_false_iff`, `groups_apart_iff`: no group has two leases that
  overlap exactly when no two of one key do.
* `overlapsBy_eq_nil_iff`: nothing is found exactly when the unreleased leases are `LeasesApart`.
-/

namespace IplanRunner

open Foundation

variable [PyRuntime]

/-! ### The loop over the leases -/

/-- The leases filed under a key. -/
def filedUnder (filed : List (String × Val)) (key : String) : List Val :=
  (filed.filter fun p => p.1 == key).map Prod.snd

/-- The unreleased leases, each with what it is filed under. -/
def filedBy (key : String) (leases : List Val) : Except PyErr (List (String × Val)) :=
  collect (fun lease => do
    if (← lease.get "released_at") == .none then return [((← lease.get key).pyStr, lease)]
    else return []) leases

/-- The finding of a key with two overlapping leases. -/
def overlapFinding (found : String → Finding) (filed : List (String × Val)) (key : String) :
    Except PyErr (List Finding) := do
  if ← anyOverlap (filedUnder filed key) then return [found key] else return []

/-- What is found of the leases, once for each key with two overlapping ones. -/
def overlapsBy (key : String) (found : String → Finding) (leases : List Val) :
    Except PyErr (List Finding) := do
  let filed ← filedBy key leases
  collect (overlapFinding found filed) (filed.map Prod.fst).eraseDups

/-- `LEDGER.LEASE_OVERLAP` is looked for among the leases of each task. -/
lemma leaseFindings_eq (leases : List Val) :
    leaseFindings leases = overlapsBy "task_id" (fun taskId =>
      finding .ledgerLeaseOverlap s!"task {taskId} has overlapping unreleased leases") leases := rfl

/-! ### Two leases, and those of one key -/

/-- The windows of two leases, compared as texts, overlap. -/
def WindowsOverlap (a b : Dict) : Prop :=
  (a.get "acquired_at").pyStr < (b.get "expires_at").pyStr
    ∧ (b.get "acquired_at").pyStr < (a.get "expires_at").pyStr

instance (a b : Dict) : Decidable (WindowsOverlap a b) := inferInstanceAs (Decidable (_ ∧ _))

lemma leasesOverlap_dicts (a b : Dict) :
    leasesOverlap (.dict a) (.dict b) = .ok (decide (WindowsOverlap a b)) := by
  rw [leasesOverlap, Val.get_dict, Val.get_dict, Val.get_dict, Val.get_dict]
  simp only [ok_bind, WindowsOverlap]
  by_cases h : (a.get "acquired_at").pyStr < (b.get "expires_at").pyStr
  · simp [h, pure, Except.pure]
  · simp [h, pure, Except.pure]

lemma anyOverlap_eq_false_iff {leases : List Val} :
    anyOverlap leases = .ok false ↔ leases.Pairwise fun a b => leasesOverlap a b = .ok false := by
  induction leases with
  | nil => simp [anyOverlap]
  | cons a rest ih =>
      rw [List.pairwise_cons, ← ih, ← anyE_eq_false_iff, anyOverlap]
      rcases anyE (leasesOverlap a) rest with e | b
      · simp [bind, Except.bind]
      · cases b <;> simp [bind, Except.bind, pure, Except.pure]

/-- Two filed leases do not overlap under one key. -/
def WindowsApart (p q : String × Dict) : Prop := p.1 = q.1 → ¬ WindowsOverlap p.2 q.2

omit [PyRuntime] in
lemma filedUnder_dicts (filed : List (String × Dict)) (key : String) :
    filedUnder (filed.map fun p => (p.1, .dict p.2)) key
      = ((filed.filter fun p => p.1 == key).map Prod.snd).map .dict := by
  rw [filedUnder, List.filter_map, List.map_map, List.map_map]
  rfl

/-- The groups are judged whatever is filed. -/
lemma returns_anyOverlap_filedUnder (filed : List (String × Dict)) (key : String) :
    Returns (anyOverlap (filedUnder (filed.map fun p => (p.1, .dict p.2)) key)) := by
  rw [filedUnder_dicts]
  induction (filed.filter fun p => p.1 == key).map Prod.snd with
  | nil => exact returns_ok false
  | cons a rest ih =>
      have hone : Returns (anyE (leasesOverlap (.dict a)) (rest.map .dict)) := by
        refine returns_anyE fun l hl => ?_
        obtain ⟨b, -, rfl⟩ := List.mem_map.mp hl
        rw [leasesOverlap_dicts]
        exact returns_ok _
      rw [List.map_cons, anyOverlap]
      exact hone.bind fun _ _ => returns_ite (fun _ => returns_pure true) fun _ => ih

/-- **In no group two leases overlap** exactly when no two under one key do. -/
theorem groups_apart_iff (filed : List (String × Dict)) :
    (∀ key ∈ (filed.map Prod.fst).eraseDups,
        anyOverlap (filedUnder (filed.map fun p => (p.1, .dict p.2)) key) = .ok false)
      ↔ filed.Pairwise WindowsApart := by
  have hgroup : ∀ key, anyOverlap (filedUnder (filed.map fun p => (p.1, .dict p.2)) key) = .ok false
      ↔ filed.Pairwise fun p q => p.1 = key → q.1 = key → ¬ WindowsOverlap p.2 q.2 := by
    intro key
    rw [filedUnder_dicts, anyOverlap_eq_false_iff, List.pairwise_map, List.pairwise_map,
      List.pairwise_filter]
    simp only [leasesOverlap_dicts, beq_iff_eq, Except.ok.injEq, decide_eq_false_iff_not]
  rw [List.pairwise_iff_forall_sublist]
  constructor
  · intro h p q hsub hkey
    have hp : p.1 ∈ (filed.map Prod.fst).eraseDups := by
      rw [List.mem_eraseDups]
      exact List.mem_map_of_mem (hsub.subset List.mem_cons_self)
    exact List.pairwise_iff_forall_sublist.mp ((hgroup p.1).mp (h p.1 hp)) hsub rfl hkey.symm
  · intro h key _
    rw [hgroup, List.pairwise_iff_forall_sublist]
    intro p q hsub hp hq
    exact h hsub (hp.trans hq.symm)

/-! ### What is found -/

/-- No two unreleased leases of one key overlap. -/
def LeasesApart (key : String) (leases : List Dict) : Prop :=
  leases.Pairwise fun a b => a.get "released_at" = .none → b.get "released_at" = .none →
    (a.get key).pyStr = (b.get key).pyStr → ¬ WindowsOverlap a b

lemma filedBy_dicts (key : String) (leases : List Dict) :
    filedBy key (leases.map .dict)
      = .ok (((leases.filter fun l => l.get "released_at" == .none).map fun l =>
          ((l.get key).pyStr, l)).map fun p => (p.1, .dict p.2)) := by
  rw [filedBy]
  induction leases with
  | nil => rfl
  | cons l rest ih =>
      rw [List.map_cons, collect, ih, Val.get_dict, Val.get_dict, List.filter_cons]
      by_cases hrel : l.get "released_at" = .none
      · simp [hrel, pure, Except.pure]
      · simp [hrel, pure, Except.pure]

variable {key : String} {found : String → Finding}

/-- Only dictionaries are judged, and those always. -/
lemma returns_overlapsBy_iff {leases : List Val} :
    Returns (overlapsBy key found leases) ↔ ∃ ds : List Dict, leases = ds.map .dict := by
  constructor
  · rintro ⟨fs, h⟩
    obtain ⟨filed, hfiled, -⟩ := except_bind_eq_ok.mp h
    have hall := returns_collect_iff.mp ⟨filed, hfiled⟩
    clear hfiled h
    induction leases with
    | nil => exact ⟨[], rfl⟩
    | cons l rest ih =>
        obtain ⟨⟨fl, hfl⟩, hrest⟩ := List.forall_mem_cons.mp hall
        obtain ⟨ds, rfl⟩ := ih hrest
        obtain ⟨v, hv, -⟩ := except_bind_eq_ok.mp hfl
        cases l with
        | dict kvs => exact ⟨kvs :: ds, rfl⟩
        | _ => cases hv
  · rintro ⟨ds, rfl⟩
    rw [overlapsBy, filedBy_dicts, ok_bind]
    refine returns_collect fun k _ => ?_
    exact (returns_anyOverlap_filedUnder _ k).bind fun _ _ =>
      returns_ite (fun _ => returns_pure _) fun _ => returns_pure _

/-- Every finding is of a key. -/
lemma mem_overlapsBy {leases : List Val} {fs : List Finding}
    (h : overlapsBy key found leases = .ok fs) : ∀ f ∈ fs, ∃ k, f = found k := by
  obtain ⟨filed, -, h⟩ := except_bind_eq_ok.mp h
  intro f hf
  obtain ⟨k, -, gs, hgs, hf⟩ := ((collect_eq_ok h).2 f).mp hf
  obtain ⟨b, -, hgs⟩ := except_bind_eq_ok.mp hgs
  cases b with
  | true =>
      cases hgs
      exact ⟨k, List.mem_singleton.mp hf⟩
  | false =>
      cases hgs
      cases hf

/-- **Nothing is found** exactly when no two unreleased leases of one key overlap. -/
theorem overlapsBy_eq_nil_iff (leases : List Dict) :
    overlapsBy key found (leases.map .dict) = .ok [] ↔ LeasesApart key leases := by
  have hpass : ∀ filed k, overlapFinding found filed k = .ok []
      ↔ anyOverlap (filedUnder filed k) = .ok false := by
    intro filed k
    rw [overlapFinding]
    rcases anyOverlap (filedUnder filed k) with e | b
    · simp [bind, Except.bind]
    · cases b <;> simp [pure, Except.pure]
  rw [overlapsBy, filedBy_dicts, ok_bind, collect_eq_nil_iff]
  simp only [hpass]
  rw [List.map_map]
  refine (groups_apart_iff _).trans ?_
  rw [LeasesApart, List.pairwise_map, List.pairwise_filter]
  simp only [WindowsApart, beq_iff_eq]

end IplanRunner
