import IplanRunner.Foundation.Codecs
import IplanRunner.Foundation.Python

/-!
What the handler of the receiver reads off a request (`receiver/http.py`, `receiver/auth.py`).

* `PostRequest`, `headerText`: a request, and the text of a header.
* `verifyBearer`, `validateContentLength`: the two checks on headers.
* `jsonLoads`: `json.loads` on the bytes of a body.
-/

namespace IplanRunner

open Foundation

/-- A `POST` request: the two headers the handler reads, as they came, and the bytes behind them. -/
structure PostRequest where
  path : String
  authorization : Option (List UInt8)
  contentLength : Option (List UInt8)
  body : List UInt8

/-- The text of a header: each byte is a character. -/
def headerText (raw : List UInt8) : String := String.ofList (raw.map fun b => Char.ofNat b.toNat)

/-! ### The bearer token -/

/-- `text.isascii()`. -/
def isAscii (text : String) : Bool := text.toList.all fun c => decide (c.toNat < 128)

/-- `hmac.compare_digest`, on two texts. -/
def compareTexts (a b : String) : Except PyErr Bool :=
  if isAscii a && isAscii b then .ok (a == b) else .error .typeError

/-- `_BEARER`. -/
def bearer : String := "Bearer "

/-- `verify_bearer`. -/
def verifyBearer (headerValue : Option String) (expected : String) : Except PyErr Bool :=
  match headerValue with
  | none => .ok false
  | some value =>
      if expected = "" ∨ value = "" ∨ ¬ bearer.toList <+: value.toList then .ok false
      else compareTexts (String.ofList (value.toList.drop bearer.toList.length)) expected

/-- A text with the prefix, taken apart. -/
lemma bearer_prefix_iff (value : String) :
    bearer.toList <+: value.toList ↔ ∃ presented, value = bearer ++ presented := by
  constructor
  · rintro ⟨rest, hrest⟩
    refine ⟨String.ofList rest, ?_⟩
    rw [← String.toList_inj, String.toList_append, String.toList_ofList, hrest]
  · rintro ⟨presented, rfl⟩
    rw [String.toList_append]
    exact List.prefix_append _ _

/-- A header with the prefix: its token is compared. -/
lemma verifyBearer_bearer {token : String} (htoken : token ≠ "") (presented : String) :
    verifyBearer (some (bearer ++ presented)) token = compareTexts presented token := by
  have hne : bearer ++ presented ≠ "" := by simp [bearer]
  have hrest : (bearer ++ presented).toList.drop bearer.toList.length = presented.toList := by
    rw [String.toList_append, List.drop_left]
  have hprefix : bearer.toList <+: (bearer ++ presented).toList :=
    (bearer_prefix_iff _).mpr ⟨presented, rfl⟩
  rw [verifyBearer, if_neg (by simp [htoken, hne, hprefix]), hrest, String.ofList_toList]

/-- No token is expected, or none presented. -/
lemma verifyBearer_false {header : Option String} {token : String}
    (h : token = "" ∨ ∀ presented, header ≠ some (bearer ++ presented)) :
    verifyBearer header token = .ok false := by
  cases header with
  | none => rfl
  | some value =>
      rw [verifyBearer, if_pos]
      rcases h with htoken | hnone
      · exact Or.inl htoken
      · refine Or.inr (Or.inr fun hprefix => ?_)
        obtain ⟨presented, rfl⟩ := (bearer_prefix_iff value).mp hprefix
        exact hnone presented rfl

/-! ### The length of the body -/

/-- The blanks `int()` drops around a text whose characters are bytes. -/
def intBlank (c : Char) : Bool := c.toNat ∈ [9, 10, 11, 12, 13, 32, 0x85, 0xA0]

/-- `sys.get_int_max_str_digits()`. -/
def maxStrDigits : ℕ := 4300

/-- `int(header)`; none where it raises a `ValueError`. -/
def headerInt (header : String) : Option ℤ :=
  let text := ((header.toList.dropWhile intBlank).reverse.dropWhile intBlank).reverse
  if maxStrDigits < text.countP Char.isDigit then none
  else
    match text with
    | '-' :: cs => (Val.digits cs none).map fun n => -(n : ℤ)
    | '+' :: cs => (Val.digits cs none).map fun n => (n : ℤ)
    | cs => (Val.digits cs none).map fun n => (n : ℤ)

/-- `_MAX_BODY_BYTES`. -/
def maxBodyBytes : ℤ := 1048576

/-- `_validate_content_length`: the length, or the status and the reason of the reply. -/
def validateContentLength (header : Option String) : Except (ℕ × String) ℕ :=
  let length := match header with
    | none => some 0
    | some text => if text = "" then some 0 else headerInt text
  match length with
  | none => .error (400, "invalid Content-Length")
  | some length =>
      if length < 0 then .error (400, "invalid Content-Length")
      else if maxBodyBytes < length then .error (413, "request body too large")
      else .ok length.toNat

/-- A length that is refused is refused with one of two statuses. -/
lemma validateContentLength_error {header : Option String} {status : ℕ} {detail : String}
    (h : validateContentLength header = .error (status, detail)) : status = 400 ∨ status = 413 := by
  unfold validateContentLength at h
  dsimp only at h
  split at h
  · cases h
    exact Or.inl rfl
  · split_ifs at h
    · cases h
      exact Or.inl rfl
    · cases h
      exact Or.inr rfl

/-! ### The body -/

/-- `raw.decode(detect_encoding(raw), "surrogatepass")`; none where it raises. -/
def jsonText (raw : List UInt8) : Option (List ℕ) :=
  if [0x00, 0x00, 0xFE, 0xFF].isPrefixOf raw then decodeUtf32 .big (raw.drop 4)
  else if [0xFF, 0xFE, 0x00, 0x00].isPrefixOf raw then decodeUtf32 .little (raw.drop 4)
  else if [0xFE, 0xFF].isPrefixOf raw then decodeUtf16 .big (raw.drop 2)
  else if [0xFF, 0xFE].isPrefixOf raw then decodeUtf16 .little (raw.drop 2)
  else if [0xEF, 0xBB, 0xBF].isPrefixOf raw then decodeUtf8 (raw.drop 3)
  else
    match raw with
    | a :: b :: c :: d :: _ =>
        if a = 0 then if b ≠ 0 then decodeUtf16 .big raw else decodeUtf32 .big raw
        else if b = 0 then
          if c ≠ 0 ∨ d ≠ 0 then decodeUtf16 .little raw else decodeUtf32 .little raw
        else decodeUtf8 raw
    | [a, b] =>
        if a = 0 then decodeUtf16 .big raw
        else if b = 0 then decodeUtf16 .little raw
        else decodeUtf8 raw
    | _ => decodeUtf8 raw

/-- `JSONDecoder().decode`, on the code points of a text: a document, or what the decoder raises,
which is a `JSONDecodeError` where the text is malformed, and may be another exception where it is
nested too deep or holds a number with too many digits. -/
class JsonDecoder where
  decode : List ℕ → Except PyErr Val

/-- `json.JSONDecodeError`. -/
def jsonDecodeError : PyErr := .other "JSONDecodeError"

/-- `json.loads(raw)`. -/
def jsonLoads [JsonDecoder] (raw : List UInt8) : Except PyErr Val :=
  match jsonText raw with
  | none => .error (.other "UnicodeDecodeError")
  | some text => JsonDecoder.decode text

end IplanRunner
