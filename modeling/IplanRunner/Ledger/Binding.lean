import IplanRunner.Foundation.Calls
import IplanRunner.Foundation.Delimited
import IplanRunner.Foundation.Runtime
import IplanRunner.Ledger.Store

/-!
What the hashes of a verified log determine.

* `Continued`: what `verify_chain` has read of an event it lets pass, on an arbitrary document.
* `joinedText`: the part of the hashed text that is the event's own, `event_type|subject_id|at`.
* `hashes_bind`: two verified logs with the same hashes agree on this text, event by event, and on
  the three texts it is made of wherever at most one of them holds a `|`.
* `hashes_distinct`: no two events of a verified log have the same hash.
-/

namespace IplanRunner

open Foundation

section Runtime

variable [PyRuntime]

/-! ### Verified documents -/

/-- `str(event[key])`. -/
def fieldText (event : Val) (key : String) : Except PyErr String := do
  return (← event.item key).pyStr

/-- `f"{event_type}|{subject_id}|{at}"`. -/
def joinedText (event : Val) : Except PyErr String := do
  let eventType ← fieldText event "event_type"
  let subjectId ← fieldText event "subject_id"
  let atTime ← fieldText event "at"
  return s!"{eventType}|{subjectId}|{atTime}"

/-- An event that `verify_chain` lets pass after a chain that ended in `prevHash`. -/
structure Continued (prevHash : Option String) (index : ℕ) (event : Val) (hash : String) :
    Prop where
  sequence : ∃ seq, event.get "sequence" = .ok seq ∧ seq.pyEq (.int (index + 1)) = true
  texts : ∃ eventType subjectId atTime, fieldText event "event_type" = .ok eventType
    ∧ fieldText event "subject_id" = .ok subjectId ∧ fieldText event "at" = .ok atTime
    ∧ hash = computeEventHash (index + 1) prevHash eventType subjectId atTime
  hash : event.get "event_hash" = .ok (.str hash)

lemma verifyEvent_eq_some {prevHash : Option String} {index : ℕ} {event : Val} {hash : String}
    (h : verifyEvent prevHash index event = .ok (some hash)) :
    Continued prevHash index event hash := by
  rw [verifyEvent] at h
  obtain ⟨seq, hseq, h⟩ := except_bind_eq_ok.mp h
  by_cases hs : seq.pyEq (.int (index + 1)) = true
  · have hne : seq ≠ .none := by
      rintro rfl
      simp [Val.pyEq] at hs
    simp only [hs, Bool.not_true, Bool.false_eq_true, if_false] at h
    obtain ⟨prev, -, h⟩ := except_bind_eq_ok.mp h
    split at h
    · cases h
    · rw [Val.item_of_get hseq hne] at h
      simp only [ok_bind, Val.pyInt_of_pyEq hs] at h
      obtain ⟨t, ht, h⟩ := except_bind_eq_ok.mp h
      obtain ⟨s, hsub, h⟩ := except_bind_eq_ok.mp h
      obtain ⟨a, ha, h⟩ := except_bind_eq_ok.mp h
      obtain ⟨found, hfound, h⟩ := except_bind_eq_ok.mp h
      split at h
      · cases h
      · rename_i heq
        have hfound' : found = .str
          (computeEventHash (index + 1) prevHash t.pyStr s.pyStr a.pyStr) :=
          (Val.pyEq_str_iff _ _).mp (by simpa using heq)
        rw [hfound, hfound'] at h
        cases h
        refine ⟨⟨seq, hseq, hs⟩, ⟨t.pyStr, s.pyStr, a.pyStr, ?_, ?_, ?_, rfl⟩, ?_⟩
        · rw [fieldText, ht]; rfl
        · rw [fieldText, hsub]; rfl
        · rw [fieldText, ha]; rfl
        · rw [hfound, hfound']; rfl
  · simp only [hs, Bool.not_false, if_true] at h
    cases h

omit [PyRuntime] in
/-- `f"{sequence}|{prev}|"`, for the event at a position. -/
def chainText (prevHash : Option String) (index : ℕ) : String :=
  let sequence : ℤ := index + 1
  let prev := prevHash.getD ""
  s!"{sequence}|{prev}|"

/-- The hash of a verified event, its own text set apart. -/
lemma Continued.joined {prevHash : Option String} {index : ℕ} {event : Val} {hash : String}
    (h : Continued prevHash index event hash) :
    ∃ text, joinedText event = .ok text
      ∧ hash = "sha256:" ++ PyRuntime.sha256 (chainText prevHash index ++ text) := by
  obtain ⟨t, s, a, ht, hs, ha, hhash⟩ := h.texts
  refine ⟨s!"{t}|{s}|{a}", ?_, ?_⟩
  · rw [joinedText, ht, hs, ha]
    rfl
  · rw [hhash, computeEventHash, chainText]
    simp [String.append_assoc]

/-! ### Pairs of logs -/

/-- What is hashed of an event at a position. -/
def payload (prevHash : Option String) (index : ℕ) (event : Val) : String :=
  chainText prevHash index ++ (joinedText event).toOption.getD ""

/-- What is hashed of the events of a log, each after the hash of the one before it. -/
def payloadsFrom (prevHash : Option String) (index : ℕ) : List Val → List String
  | [] => []
  | event :: rest => payload prevHash index event
      :: payloadsFrom ((event.get "event_hash").toOption.map Val.pyStr) (index + 1) rest

/-- What is hashed of the events of a log. -/
def payloads (log : List Val) : List String := payloadsFrom none 0 log

/-- At most one of the three texts of two events holds a `|`. -/
def Unambiguous (a b : Val) : Prop :=
  ∀ t s x t' s' x', fieldText a "event_type" = .ok t → fieldText a "subject_id" = .ok s →
    fieldText a "at" = .ok x → fieldText b "event_type" = .ok t' →
    fieldText b "subject_id" = .ok s' → fieldText b "at" = .ok x' →
    Clear '|' t.toList t'.toList ∧ Clear '|' s.toList s'.toList
      ∨ Clear '|' t.toList t'.toList ∧ Clear '|' x.toList x'.toList
      ∨ Clear '|' s.toList s'.toList ∧ Clear '|' x.toList x'.toList

/-- What two events with the same hash have in common. -/
structure SameTexts (a b : Val) : Prop where
  joined : joinedText a = joinedText b
  fields : Unambiguous a b → fieldText a "event_type" = fieldText b "event_type"
    ∧ fieldText a "subject_id" = fieldText b "subject_id" ∧ fieldText a "at" = fieldText b "at"

lemma verifyChainFrom_cons {prevHash : Option String} {index : ℕ} {event : Val} {rest : List Val}
    (h : verifyChainFrom prevHash index (event :: rest) = .ok true) :
    ∃ hash, Continued prevHash index event hash
      ∧ verifyChainFrom (some hash) (index + 1) rest = .ok true := by
  rw [verifyChainFrom] at h
  obtain ⟨o, ho, h⟩ := except_bind_eq_ok.mp h
  cases o with
  | none => cases h
  | some hash => exact ⟨hash, verifyEvent_eq_some ho, h⟩

/-- Events with the same joined text have the same three texts, unless a separator is among them. -/
lemma sameTexts_of_joined {a b : Val} {p q : Option String} {i j : ℕ} {u v : String}
    (ha : Continued p i a u) (hb : Continued q j b v) (h : joinedText a = joinedText b) :
    SameTexts a b := by
  refine ⟨h, fun hclear => ?_⟩
  obtain ⟨t, s, x, ht, hs, hx, -⟩ := ha.texts
  obtain ⟨t', s', x', ht', hs', hx', -⟩ := hb.texts
  rw [joinedText, joinedText, ht, hs, hx, ht', hs', hx'] at h
  have htext := Except.ok.inj h
  have hlist : t.toList ++ '|' :: (s.toList ++ '|' :: x.toList)
      = t'.toList ++ '|' :: (s'.toList ++ '|' :: x'.toList) := by
    have hbar : "|".toList = ['|'] := rfl
    have h1 := congrArg String.toList htext
    simpa only [toString, String.toList_append, hbar, List.append_assoc,
      List.cons_append, List.nil_append] using h1
  obtain ⟨h1, h2, h3⟩ := split_three (hclear t s x t' s' x' ht hs hx ht' hs' hx') hlist
  rw [ht, hs, hx, ht', hs', hx', String.toList_inj.mp h1, String.toList_inj.mp h2,
    String.toList_inj.mp h3]
  exact ⟨rfl, rfl, rfl⟩

/-- Two chains that continue the same one and have the same hashes. -/
lemma hashesFrom_bind {A B : List Val} {prevHash : Option String} {index : ℕ}
    (hA : verifyChainFrom prevHash index A = .ok true)
    (hB : verifyChainFrom prevHash index B = .ok true)
    (hhash : A.map (·.get "event_hash") = B.map (·.get "event_hash"))
    (hsha : ∀ p ∈ payloadsFrom prevHash index A, ∀ q ∈ payloadsFrom prevHash index B,
      PyRuntime.sha256 p = PyRuntime.sha256 q → p = q) : List.Forall₂ SameTexts A B := by
  induction A generalizing B prevHash index with
  | nil =>
      obtain rfl : B = [] := by simpa using hhash.symm
      exact List.Forall₂.nil
  | cons a A ih =>
      cases B with
      | nil => simp at hhash
      | cons b B =>
          obtain ⟨hash, hca, hA'⟩ := verifyChainFrom_cons hA
          obtain ⟨hash', hcb, hB'⟩ := verifyChainFrom_cons hB
          obtain ⟨hhead, hrest⟩ := List.cons.inj hhash
          obtain rfl : hash = hash' := by
            have h1 : a.get "event_hash" = b.get "event_hash" := hhead
            rw [hca.hash, hcb.hash] at h1
            simpa using h1
          obtain ⟨u, hu, hau⟩ := hca.joined
          obtain ⟨v, hv, hbv⟩ := hcb.joined
          have hsame : joinedText a = joinedText b := by
            have hcollide := hsha _ List.mem_cons_self _ List.mem_cons_self
            rw [payload, payload, hu, hv] at hcollide
            have hpay := hcollide (by
              have h1 := hau.symm.trans hbv
              exact String.append_right_inj _ |>.mp h1)
            rw [hu, hv]
            exact congrArg Except.ok (String.append_right_inj _ |>.mp hpay)
          refine List.Forall₂.cons (sameTexts_of_joined hca hcb hsame) (ih hA' hB' hrest ?_)
          intro p hp q hq
          refine hsha p (List.mem_cons_of_mem _ ?_) q (List.mem_cons_of_mem _ ?_)
          · rw [hca.hash]
            exact hp
          · rw [hcb.hash]
            exact hq

/-! ### The positions of a log -/

omit [PyRuntime] in
/-- The position of an event can be told from what is hashed of it. -/
lemma chainText_index {p q : Option String} {i j : ℕ} {u v : String}
    (h : chainText p i ++ u = chainText q j ++ v) : i = j := by
  have htext : ∀ (r : Option String) (k : ℕ) (w : String), (chainText r k ++ w).toList
      = (k + 1).repr.toList ++ '|' :: ((r.getD "").toList ++ '|' :: w.toList) := by
    intro r k w
    have hbar : "|".toList = ['|'] := rfl
    have hrepr : toString ((k : ℤ) + 1) = (k + 1).repr := rfl
    rw [chainText, hrepr]
    simp only [toString, String.toList_append, hbar, List.append_assoc, List.cons_append,
      List.nil_append]
  have hlist := congrArg String.toList h
  rw [htext, htext] at hlist
  have hrepr := (split_first (decimal_clear (by decide) _) (decimal_clear (by decide) _) hlist).1
  have hindex := decimal_inj hrepr
  omega

/-- Where an event of a verified log stands, and what is hashed of it. -/
lemma chain_mem {log : List Val} {prevHash : Option String} {index : ℕ}
    (h : verifyChainFrom prevHash index log = .ok true) {event : Val} (hevent : event ∈ log) :
    ∃ prev j hash, index ≤ j ∧ payload prev j event ∈ payloadsFrom prevHash index log
      ∧ Continued prev j event hash := by
  induction log generalizing prevHash index with
  | nil => simp at hevent
  | cons e rest ih =>
      obtain ⟨hash, hcont, hrest⟩ := verifyChainFrom_cons h
      rcases List.mem_cons.mp hevent with rfl | hevent'
      · exact ⟨prevHash, index, hash, Nat.le_refl _, List.mem_cons_self, hcont⟩
      · obtain ⟨prev, j, hash', hj, hmem, hcont'⟩ := ih hrest hevent'
        refine ⟨prev, j, hash', by omega, ?_, hcont'⟩
        rw [payloadsFrom, hcont.hash]
        exact List.mem_cons_of_mem _ hmem

/-- **No two events of a verified log have the same hash**, where no two texts hashed in it share a
digest. -/
theorem hashes_distinct {log : List Val} {prevHash : Option String} {index : ℕ}
    (h : verifyChainFrom prevHash index log = .ok true)
    (hsha : ∀ p ∈ payloadsFrom prevHash index log, ∀ q ∈ payloadsFrom prevHash index log,
      PyRuntime.sha256 p = PyRuntime.sha256 q → p = q) :
    log.Pairwise fun a b => a.get "event_hash" ≠ b.get "event_hash" := by
  induction log generalizing prevHash index with
  | nil => exact List.Pairwise.nil
  | cons e rest ih =>
      obtain ⟨hash, hcont, hrest⟩ := verifyChainFrom_cons h
      have htail : payloadsFrom (some hash) (index + 1) rest ⊆ payloadsFrom prevHash index
        (e :: rest) := by
        rw [payloadsFrom, hcont.hash]
        exact List.subset_cons_self _ _
      refine List.Pairwise.cons ?_ (ih hrest fun p hp q hq => hsha p (htail hp) q (htail hq))
      intro b hb heq
      obtain ⟨prev, j, hash', hj, hmem, hcont'⟩ := chain_mem hrest hb
      rw [hcont.hash, hcont'.hash] at heq
      obtain ⟨u, hu, hau⟩ := hcont.joined
      obtain ⟨v, hv, hbv⟩ := hcont'.joined
      have hpayload : payload prevHash index e = payload prev j b := by
        refine hsha _ List.mem_cons_self _ (htail hmem) ?_
        rw [payload, payload, hu, hv]
        have hhash : hash = hash' := by simpa using heq
        rw [hau, hbv] at hhash
        exact (String.append_right_inj _).mp hhash
      have hindex := chainText_index hpayload
      omega

/-- **What the hashes bind.**  Two verified logs with the same hashes, no two different texts hashed
in them sharing a digest, agree on the text `event_type|subject_id|at` of every event, and on each
of its three parts wherever at most one of them holds a `|`. -/
theorem hashes_bind {A B : List Val} (hA : verifyChain A = .ok true)
    (hB : verifyChain B = .ok true)
    (hhash : A.map (·.get "event_hash") = B.map (·.get "event_hash"))
    (hsha : ∀ p ∈ payloads A, ∀ q ∈ payloads B,
      PyRuntime.sha256 p = PyRuntime.sha256 q → p = q) : List.Forall₂ SameTexts A B :=
  hashesFrom_bind hA hB hhash hsha

end Runtime

section Example

attribute [local instance] cpython

/-- The only event of a log. -/
def onlyEvent (eventType subjectId atTime : Val) : Val :=
  .dict
    [("event_type", eventType), ("subject_id", subjectId), ("at", atTime), ("sequence", .int 1),
      ("previous_event_hash", .none),
      ("event_hash", .str (computeEventHash 1 none eventType.pyStr subjectId.pyStr atTime.pyStr))]

set_option maxRecDepth 4096 in
/-- A subject that is `None` and one that is the text `"None"`. -/
theorem hashes_bind_none :
    List.Forall₂ SameTexts [onlyEvent (.str "resolution") .none (.str "t1")]
      [onlyEvent (.str "resolution") (.str "None") (.str "t1")] :=
  hashes_bind (by decide +kernel) (by decide +kernel) (by decide +kernel) (by decide +kernel)

set_option maxRecDepth 4096 in
/-- Two verified logs with the same hash, over the same text: a `|` moved from one field to the
other, and the same with `None` and its text. -/
theorem separator_moved :
    (verifyChain [onlyEvent (.str "task_started") (.str "T1|x") (.str "t1")] = .ok true
      ∧ verifyChain [onlyEvent (.str "task_started|T1") (.str "x") (.str "t1")] = .ok true
      ∧ (onlyEvent (.str "task_started") (.str "T1|x") (.str "t1")).get "event_hash"
        = (onlyEvent (.str "task_started|T1") (.str "x") (.str "t1")).get "event_hash"
      ∧ (onlyEvent (.str "task_started") (.str "T1|x") (.str "t1")).get "subject_id"
        ≠ (onlyEvent (.str "task_started|T1") (.str "x") (.str "t1")).get "subject_id")
    ∧ verifyChain [onlyEvent (.str "resolution") .none (.str "t1")] = .ok true
      ∧ verifyChain [onlyEvent (.str "resolution") (.str "None") (.str "t1")] = .ok true
      ∧ (onlyEvent (.str "resolution") .none (.str "t1")).get "event_hash"
        = (onlyEvent (.str "resolution") (.str "None") (.str "t1")).get "event_hash"
      ∧ (onlyEvent (.str "resolution") .none (.str "t1")).get "subject_id"
        ≠ (onlyEvent (.str "resolution") (.str "None") (.str "t1")).get "subject_id" := by
  decide +kernel

end Example

end IplanRunner
