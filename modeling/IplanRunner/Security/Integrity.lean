import IplanRunner.Ledger.Binding
import IplanRunner.Security.Signing

/-!
What a signed ledger protects against.

* `SameUnsigned`: two events without their signatures are the same document.
* `sequence_of_chain`: the event at position `i` of a verified log carries the sequence `i + 1`.
* `signed_prefix`: a log that verifies under a key with which only the events of `L` were ever
  signed is, signatures aside, a prefix of `L`.
-/

namespace IplanRunner

open Foundation

/-- Two events without their signatures are the same, up to the order of their members. -/
def SameUnsigned (a b : Val) : Prop :=
  ∃ u v, unsigned a = .ok u ∧ unsigned b = .ok v ∧ u.same v = true

instance (a b : Val) : Decidable (SameUnsigned a b) :=
  decidable_of_iff ((unsigned a).toOption.any fun u => (unsigned b).toOption.any fun v => u.same v)
    (by
      rw [SameUnsigned]
      cases unsigned a <;> cases unsigned b <;> simp [Except.toOption])

/-- The sequence of an event equals a number. -/
def Sequenced (event : Val) (n : ℤ) : Prop :=
  ∃ seq, event.get "sequence" = .ok seq ∧ seq.pyEq (.int n) = true

/-- The signature aside, an event reads the same. -/
lemma get_unsigned {event u : Val} (h : unsigned event = .ok u) {key : String}
    (hkey : key ≠ "signature") : u.get key = event.get key := by
  cases event with
  | dict kvs =>
      cases h
      rw [Val.get, Val.get, Dict.lookup_erase_of_ne kvs hkey]
  | _ => cases h

/-- An event has one number for a sequence. -/
lemma Sequenced.unique {event : Val} {m n : ℤ} (hm : Sequenced event m) (hn : Sequenced event n) :
    m = n := by
  obtain ⟨v, hv, hvm⟩ := hm
  obtain ⟨w, hw, hwn⟩ := hn
  obtain rfl : v = w := by rw [hv] at hw; exact Except.ok.inj hw
  have h1 := (Val.pyInt_of_pyEq hvm).symm.trans (Val.pyInt_of_pyEq hwn)
  exact Except.ok.inj h1

/-- An event that only got another signature has the same sequence. -/
lemma Sequenced.of_unsigned {a b : Val} {n : ℤ} (ha : Sequenced a n)
    (h : unsigned b = unsigned a) : Sequenced b n := by
  obtain ⟨seq, hseq, hn⟩ := ha
  have hne : "sequence" ≠ "signature" := by decide
  cases a with
  | dict kvs =>
      have hu : unsigned (.dict kvs) = .ok (.dict (Dict.erase kvs "signature")) := rfl
      refine ⟨seq, ?_, hn⟩
      rw [← get_unsigned (h.trans hu) hne, get_unsigned hu hne]
      exact hseq
  | _ => simp [Val.get] at hseq

/-- Events that are the same without their signatures have the same sequence. -/
lemma Sequenced.of_same {a b : Val} {n : ℤ} (ha : Sequenced a n) (h : SameUnsigned a b) :
    Sequenced b n := by
  obtain ⟨u, v, hu, hv, hsame⟩ := h
  obtain ⟨seq, hseq, hn⟩ := ha
  have hne : "sequence" ≠ "signature" := by decide
  rw [← get_unsigned hu hne] at hseq
  have hitem : u.item "sequence" = .ok seq := Val.item_of_get hseq fun hnone => by
    rw [hnone] at hn
    simp [Val.pyEq] at hn
  cases u with
  | dict xs =>
      cases v with
      | dict ys =>
          rw [Val.same, Bool.and_eq_true] at hsame
          have hlook : xs.lookup "sequence" = some seq := by
            rw [Val.item] at hitem
            cases hl : xs.lookup "sequence" with
            | none => rw [hl] at hitem; cases hitem
            | some w => rw [hl] at hitem; cases hitem; rfl
          obtain ⟨w, hw, hsw⟩ := Val.sameDict_lookup hsame.2 hlook
          obtain rfl := Val.eq_of_same_number hn hsw
          refine ⟨w, ?_, hn⟩
          rw [← get_unsigned hv hne, Val.get, hw]
          rfl
      | _ => simp [Val.same] at hsame
  | _ => simp [Val.item] at hitem

section Runtime

variable [PyRuntime]

/-- The events of a verified log are numbered. -/
lemma sequence_of_chain {prevHash : Option String} {index : ℕ} {log : List Val}
    (h : verifyChainFrom prevHash index log = .ok true) :
    ∀ (i : ℕ) e, log[i]? = some e → Sequenced e (index + i + 1) := by
  induction log generalizing prevHash index with
  | nil => simp
  | cons x rest ih =>
      obtain ⟨hash, hx, hrest⟩ := verifyChainFrom_cons h
      intro i e he
      cases i with
      | zero =>
          obtain rfl : x = e := by simpa using he
          have hfirst : Sequenced x (index + 1) := hx.sequence
          simpa using hfirst
      | succ i =>
          have h1 := ih hrest i e (by simpa using he)
          have hn : ((index + 1 : ℕ) : ℤ) + i + 1 = index + (i + 1 : ℕ) + 1 := by
            push_cast
            omega
          rwa [hn] at h1

/-- Signing an event changes nothing but its signature. -/
lemma addSignature_unsigned {key : String} {a b : Val} (h : addSignature key a = .ok b) :
    unsigned b = unsigned a := by
  cases a with
  | dict kvs =>
      obtain ⟨s, -, hs⟩ := except_bind_eq_ok.mp h
      cases hs
      rw [unsigned, unsigned, Dict.erase_set_self]
  | _ => cases h

/-- A log that passes the loop of `verify_ledger` carries a matching signature on every event. -/
lemma signaturesOk_forall {key : String} {log : List Val} (h : signaturesOk key log = .ok true) :
    ∀ e ∈ log, signatureOk key e = .ok true := by
  induction log with
  | nil => simp
  | cons x rest ih =>
      rw [signaturesOk] at h
      obtain ⟨ok, hok, h⟩ := except_bind_eq_ok.mp h
      cases ok with
      | false => cases h
      | true =>
          intro e he
          rcases List.mem_cons.mp he with rfl | he'
          · exact hok
          · exact ih h e he'

/-- `verify_ledger` has checked the chain and every signature. -/
lemma verifyLedger_eq_true {log : List Val} {key : String} (h : verifyLedger log key = .ok true) :
    verifyChain log = .ok true ∧ ∀ e ∈ log, signatureOk key e = .ok true := by
  rw [verifyLedger] at h
  obtain ⟨ok, hok, h⟩ := except_bind_eq_ok.mp h
  cases ok with
  | false => cases h
  | true => exact ⟨hok, signaturesOk_forall h⟩

/-- **Signed ledger integrity.**  Let `L` be a verified log signed with `key`, and let no other text
than those of its events be signed with it.  A log that verifies under the key is a prefix of `L`,
signatures aside, provided a signature matches on signed texts only and the JSON text of an event
determines it. -/
theorem signed_prefix {key : String} {L₀ L M : List Val} {signed : Set String}
    (hchain : verifyChain L₀ = .ok true) (hsign : signLog key L₀ = (.ok (), L))
    (honly : ∀ text ∈ signed, ∃ e ∈ L, canonical e = .ok text)
    (hunforged : ∀ m ∈ M, signatureOk key m = .ok true →
      ∃ text ∈ signed, canonical m = .ok text)
    (hjson : ∀ m ∈ M, ∀ e ∈ L, ∀ text, canonical m = .ok text → canonical e = .ok text →
      SameUnsigned m e)
    (hverify : verifyLedger M key = .ok true) :
    ∃ P, P <+: L ∧ List.Forall₂ SameUnsigned M P := by
  obtain ⟨hchainM, hsigs⟩ := verifyLedger_eq_true hverify
  have hadd := updateEach_ok hsign
  -- signing keeps the numbers of the events
  have hseqL : ∀ (j : ℕ) e, L[j]? = some e → Sequenced e (j + 1) := by
    intro j e he
    obtain ⟨hj, rfl⟩ := List.getElem?_eq_some_iff.mp he
    have hj₀ : j < L₀.length := by rw [hadd.length_eq]; exact hj
    have hsame := addSignature_unsigned (List.Forall₂.get hadd hj₀ hj)
    have h₀ := sequence_of_chain hchain j L₀[j] (List.getElem?_eq_getElem hj₀)
    simpa using h₀.of_unsigned hsame
  refine forall₂_of_getElem? fun i m hm => ?_
  have hmem : m ∈ M := List.mem_of_getElem? hm
  obtain ⟨text, htext, hcanon⟩ := hunforged m hmem (hsigs m hmem)
  obtain ⟨e, he, hcanonE⟩ := honly text htext
  have hsame := hjson m hmem e he text hcanon hcanonE
  -- the event of `L` stands where its number says, which is the place of `m`
  obtain ⟨j, hj⟩ := List.mem_iff_getElem?.mp he
  have hi : Sequenced e (i + 1) := by
    simpa using (sequence_of_chain hchainM i m hm).of_same hsame
  have hij : (i : ℤ) + 1 = j + 1 := hi.unique (hseqL j e hj)
  obtain rfl : i = j := by omega
  exact ⟨e, hj, hsame⟩

end Runtime

section Example

attribute [local instance] cpython

/-- An event of task `T1`, as a document. -/
def loggedEvent (eventType : String) (sequence : ℤ) (previous : Val) (hash : String) : Dict :=
  [("event_type", .str eventType), ("subject_id", .str "T1"), ("at", .str "t1"),
    ("sequence", .int sequence), ("previous_event_hash", previous), ("event_hash", .str hash)]

/-- The hash of the first event of `T1`. -/
def firstHash : String :=
  "sha256:ea14826b2f82f4ad51836a0058a543d52effe6ee325e8e7436d2e928b295cc08"

/-- A start and a completion. -/
def startAndCompletion : List Val :=
  [.dict (loggedEvent "task_started" 1 .none firstHash),
    .dict (loggedEvent "task_completed" 2 (.str firstHash)
      "sha256:cde90fc5ac78fe9b725f86f207a4a2b4b4e966273ede8546034db09ddf0b9272")]

/-- The start alone, signed. -/
def signedStart : Val :=
  .dict (loggedEvent "task_started" 1 .none firstHash ++ [("signature", .str
    "hmac-sha256:d3c0561a9677c4be8b04526539b28d010381c9d0a4d4a1e37ab1f5408f2e63b8")])

set_option maxRecDepth 8192 in
/-- The signed start is accepted without the completion, which takes nothing from the middle. -/
theorem signed_prefix_start :
    ∃ P, P <+: (signLog "key" startAndCompletion).2
      ∧ List.Forall₂ SameUnsigned [signedStart] P := by
  have hsign : signLog "key" startAndCompletion
      = (.ok (), (signLog "key" startAndCompletion).2) :=
    Prod.ext (by decide +kernel) rfl
  have hone : ∀ e ∈ (signLog "key" startAndCompletion).2, canonical signedStart = canonical e →
      SameUnsigned signedStart e := by
    decide +kernel
  have htext : ∃ e ∈ (signLog "key" startAndCompletion).2,
      canonical signedStart = canonical e ∧ (canonical e).toOption.isSome := by
    decide +kernel
  refine signed_prefix (by decide +kernel) hsign (fun text (h : text ∈ {text : String |
    ∃ e ∈ (signLog "key" startAndCompletion).2, canonical e = .ok text}) => h) ?_ ?_
    (by decide +kernel)
  · intro m hm _
    obtain rfl := List.mem_singleton.mp hm
    obtain ⟨e, he, hsame, hsome⟩ := htext
    cases htext : canonical e with
    | error err => simp [htext, Except.toOption] at hsome
    | ok text => exact ⟨text, ⟨e, he, htext⟩, hsame.trans htext⟩
  · intro m hm e he text hcm hce
    obtain rfl := List.mem_singleton.mp hm
    exact hone e he (hcm.trans hce.symm)

end Example

end IplanRunner
