import Mathlib.Algebra.Group.Nat.Defs
import IplanRunner.Foundation.Calls
import IplanRunner.Foundation.Python
import IplanRunner.Foundation.Runtime

/-!
The signed form of an execution event (`security/iplan_canonical`).

* `dropNull`, `canonicalize`: the canonical text of a value, its absent members dropped.
* `signingPayload`, `sign`, `verify`: what of an event is signed, and its HMAC signature.
* `not_holdsStamp`: what has a canonical text has a JSON text.
* `signingPayload_set`: what is left out of the signed form may have any value.
-/

namespace IplanRunner

open Foundation

mutual

/-- `drop_null`. -/
def dropNull : Val → Val
  | .list xs => .list (dropNullList xs)
  | .dict kvs => .dict (dropNullDict kvs)
  | v => v

/-- `drop_null` on the elements of a list. -/
def dropNullList : List Val → List Val
  | [] => []
  | x :: xs => dropNull x :: dropNullList xs

/-- `drop_null` on the members of an object. -/
def dropNullDict : List (String × Val) → List (String × Val)
  | [] => []
  | (k, v) :: kvs => if v = .none then dropNullDict kvs else (k, dropNull v) :: dropNullDict kvs

end

mutual

/-- RFC 8785 has a text for the value: no timestamp, and no integer a double cannot hold. -/
def hasCanonicalText : Val → Bool
  | .stamp _ => false
  | .int n => decide (n.natAbs < 2 ^ 53)
  | .list xs => hasCanonicalTexts xs
  | .dict kvs => haveCanonicalTexts kvs
  | _ => true

/-- Every element has a canonical text. -/
def hasCanonicalTexts : List Val → Bool
  | [] => true
  | x :: xs => hasCanonicalText x && hasCanonicalTexts xs

/-- Every member has a canonical text. -/
def haveCanonicalTexts : List (String × Val) → Bool
  | [] => true
  | (_, v) :: kvs => hasCanonicalText v && haveCanonicalTexts kvs

end

/-- `EXCLUDED_EVENT_FIELDS`. -/
def excludedEventFields : List String := ["signature", "received_at"]

/-- `signing_payload`. -/
def signingPayload (event : Dict) : Val :=
  dropNull (.dict (event.filter fun p => p.1 ∉ excludedEventFields))

lemma haveCanonicalTexts_iff (kvs : List (String × Val)) :
    haveCanonicalTexts kvs = true ↔ ∀ p ∈ kvs, hasCanonicalText p.2 = true := by
  induction kvs with
  | nil => simp [haveCanonicalTexts]
  | cons p kvs ih =>
      obtain ⟨k, v⟩ := p
      rw [haveCanonicalTexts, Bool.and_eq_true, ih, List.forall_mem_cons]

mutual

/-- Dropping absent members changes nothing about the texts of the others. -/
theorem hasCanonicalText_dropNull : ∀ v : Val, hasCanonicalText (dropNull v) = hasCanonicalText v
  | .list xs => by
      rw [dropNull, hasCanonicalText, hasCanonicalText]
      exact hasCanonicalTexts_dropNull xs
  | .dict kvs => by
      rw [dropNull, hasCanonicalText, hasCanonicalText]
      exact haveCanonicalTexts_dropNull kvs
  | .none => rfl
  | .bool _ => rfl
  | .int _ => rfl
  | .float _ _ => rfl
  | .str _ => rfl
  | .stamp _ => rfl

theorem hasCanonicalTexts_dropNull : ∀ xs : List Val,
    hasCanonicalTexts (dropNullList xs) = hasCanonicalTexts xs
  | [] => rfl
  | x :: xs => by
      rw [dropNullList, hasCanonicalTexts, hasCanonicalTexts, hasCanonicalText_dropNull x,
        hasCanonicalTexts_dropNull xs]

theorem haveCanonicalTexts_dropNull : ∀ kvs : List (String × Val),
    haveCanonicalTexts (dropNullDict kvs) = haveCanonicalTexts kvs
  | [] => rfl
  | (k, v) :: kvs => by
      rw [dropNullDict, haveCanonicalTexts]
      split_ifs with hnone
      · rw [hnone, haveCanonicalTexts_dropNull kvs]
        exact (Bool.true_and _).symm
      · rw [haveCanonicalTexts, hasCanonicalText_dropNull v, haveCanonicalTexts_dropNull kvs]

end

/-! ### Timestamps -/

lemma holdsStampDict_iff (kvs : List (String × Val)) :
    holdsStampDict kvs = false ↔ ∀ p ∈ kvs, holdsStamp p.2 = false := by
  induction kvs with
  | nil => simp [holdsStampDict]
  | cons p kvs ih =>
      obtain ⟨k, v⟩ := p
      rw [holdsStampDict, Bool.or_eq_false_iff, ih, List.forall_mem_cons]

mutual

/-- Dropping absent members drops no timestamp. -/
theorem holdsStamp_dropNull : ∀ v : Val, holdsStamp (dropNull v) = holdsStamp v
  | .list xs => by rw [dropNull, holdsStamp, holdsStamp, holdsStamp_dropNullList xs]
  | .dict kvs => by rw [dropNull, holdsStamp, holdsStamp, holdsStamp_dropNullDict kvs]
  | .none => rfl
  | .bool _ => rfl
  | .int _ => rfl
  | .float _ _ => rfl
  | .str _ => rfl
  | .stamp _ => rfl

theorem holdsStamp_dropNullList : ∀ xs :
    List Val, holdsStampList (dropNullList xs) = holdsStampList xs
  | [] => rfl
  | x :: xs => by
      rw [dropNullList, holdsStampList, holdsStampList, holdsStamp_dropNull x,
        holdsStamp_dropNullList xs]

theorem holdsStamp_dropNullDict : ∀ kvs : List (String × Val),
    holdsStampDict (dropNullDict kvs) = holdsStampDict kvs
  | [] => rfl
  | (k, v) :: kvs => by
      rw [dropNullDict, holdsStampDict]
      split_ifs with hnone
      · rw [hnone, holdsStamp_dropNullDict kvs]
        rfl
      · rw [holdsStampDict, holdsStamp_dropNull v, holdsStamp_dropNullDict kvs]

end

mutual

/-- What has a canonical text holds no timestamp. -/
theorem not_holdsStamp : ∀ v : Val, hasCanonicalText v = true → holdsStamp v = false
  | .list xs, h => not_holdsStampList xs h
  | .dict kvs, h => not_holdsStampDict kvs h
  | .none, _ => rfl
  | .bool _, _ => rfl
  | .int _, _ => rfl
  | .float _ _, _ => rfl
  | .str _, _ => rfl
  | .stamp _, h => (Bool.false_ne_true h).elim

theorem not_holdsStampList : ∀ xs :
    List Val, hasCanonicalTexts xs = true → holdsStampList xs = false
  | [], _ => rfl
  | x :: xs, h => by
      rw [hasCanonicalTexts, Bool.and_eq_true] at h
      rw [holdsStampList, not_holdsStamp x h.1, not_holdsStampList xs h.2]
      rfl

theorem not_holdsStampDict : ∀ kvs : List (String × Val), haveCanonicalTexts kvs = true →
    holdsStampDict kvs = false
  | [], _ => rfl
  | (k, v) :: kvs, h => by
      rw [haveCanonicalTexts, Bool.and_eq_true] at h
      rw [holdsStampDict, not_holdsStamp v h.1, not_holdsStampDict kvs h.2]
      rfl

end

variable [PyRuntime]

/-- `canonicalize`. -/
def canonicalize (value : Val) : Except PyErr String :=
  if hasCanonicalText (dropNull value) then .ok (PyRuntime.canonicalJson (dropNull value))
  else .error (.valueError "no canonical text")

/-- `sign`, with the algorithm `hmac-sha256`. -/
def sign (payload : Val) (key : String) : Except PyErr String := do
  return PyRuntime.hmacSha256 key (← canonicalize payload)

/-- `verify`, with the algorithm `hmac-sha256`; both values are hexadecimal texts. -/
def verify (payload : Val) (value key : String) : Except PyErr Bool := do
  return PyRuntime.hmacSha256 key (← canonicalize payload) == value

/-! ### What is signed -/

omit [PyRuntime] in
/-- What is left out of the signed form may have any value, or none. -/
lemma signingPayload_set (event : Dict) {field : String} (h : field ∈ excludedEventFields)
    (v : Val) :
    signingPayload (Dict.set event field v) = signingPayload event := by
  have hfilter := @Dict.filter_set event field (fun k => decide (k ∉ excludedEventFields))
    (by simpa using h) v
  rw [signingPayload, signingPayload]
  exact congrArg (fun kvs => dropNull (.dict kvs)) hfilter

omit [PyRuntime] in
lemma signingPayload_append (event : Dict) {field : String} (h : field ∈ excludedEventFields)
    (v : Val) : signingPayload (event ++ [(field, v)]) = signingPayload event := by
  simp [signingPayload, List.filter_append, h]

/-- A document whose members have texts can be signed. -/
lemma returns_sign {event : Dict} (h : ∀ p ∈ event, hasCanonicalText p.2 = true) (key : String) :
    Returns (sign (signingPayload event) key) := by
  have hkept : hasCanonicalText
    (.dict (event.filter fun p => p.1 ∉ excludedEventFields)) = true := by
    rw [hasCanonicalText, haveCanonicalTexts_iff]
    exact fun p hp => h p (List.mem_filter.mp hp).1
  have htext : hasCanonicalText (dropNull (signingPayload event)) = true := by
    rw [hasCanonicalText_dropNull, signingPayload, hasCanonicalText_dropNull]
    exact hkept
  rw [sign, canonicalize, if_pos htext]
  exact returns_pure _

lemma verify_of_sign {payload : Val} {value key : String} (h : sign payload key = .ok value) :
    verify payload value key = .ok true := by
  rw [sign] at h
  obtain ⟨text, htext, h⟩ := except_bind_eq_ok.mp h
  cases h
  rw [verify, htext]
  simp [bind, Except.bind, pure, Except.pure]

end IplanRunner
