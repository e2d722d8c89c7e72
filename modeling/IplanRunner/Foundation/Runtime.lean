import IplanRunner.Foundation.Python

/-!
A runtime that computes: SHA-256 and HMAC-SHA-256 over UTF-8, `repr`, RFC 8785 text and the
ISO-8601 reader, for the documents a ledger or an intake manifest is made of.

* `sha256Hex`, `hmacSha256Hex`: the two digests (FIPS 180-4, RFC 2104).
* `reprText`, `jcsText`, `jsonText`, `isoStamp`: the texts and the reader; the escapes of characters
  outside printable ASCII are left out.
* `cpython`: all of it put together.
-/

namespace Foundation

/-! ### Bytes -/

/-- The UTF-8 bytes of a character. -/
def utf8 (c : Char) : List ℕ :=
  let n := c.toNat
  if n < 0x80 then [n]
  else if n < 0x800 then [0xc0 ||| (n >>> 6), 0x80 ||| (n &&& 0x3f)]
  else if n < 0x10000 then
    [0xe0 ||| (n >>> 12), 0x80 ||| ((n >>> 6) &&& 0x3f), 0x80 ||| (n &&& 0x3f)]
  else
    [0xf0 ||| (n >>> 18), 0x80 ||| ((n >>> 12) &&& 0x3f), 0x80 ||| ((n >>> 6) &&& 0x3f),
      0x80 ||| (n &&& 0x3f)]

/-- `s.encode()`. -/
def encode (s : String) : List ℕ := s.toList.flatMap utf8

/-- The last `k` bytes of a number, the most significant first. -/
def bytesOf (k n : ℕ) : List ℕ := (List.range k).map fun i => (n >>> (8 * (k - 1 - i))) % 256

/-- Two lowercase hexadecimal digits for each byte. -/
def hexdigest (bytes : List ℕ) : String :=
  String.ofList (bytes.flatMap fun b => [Nat.digitChar (b / 16), Nat.digitChar (b % 16)])

/-- A digest is written in ASCII. -/
lemma hexdigest_ascii (bytes : List ℕ) : (hexdigest bytes).toList.all (·.toNat < 128) = true := by
  have hdigit : ∀ n, (Nat.digitChar n).toNat < 128 := by
    intro n
    rcases Nat.lt_or_ge n 16 with h | h
    · exact (by decide : ∀ n < 16, (Nat.digitChar n).toNat < 128) n h
    · obtain ⟨k, rfl⟩ := Nat.exists_eq_add_of_le' h
      exact (by decide : ('*').toNat < 128)
  rw [hexdigest, String.toList_ofList, List.all_eq_true]
  intro c hc
  obtain ⟨b, -, hmem⟩ := List.mem_flatMap.mp hc
  rw [decide_eq_true_eq]
  simp only [List.mem_cons, List.not_mem_nil, or_false] at hmem
  rcases hmem with rfl | rfl <;> exact hdigit _

/-! ### SHA-256 -/

/-- The round constants. -/
def sha256Constants : List ℕ :=
  [0x428a2f98, 0x71374491, 0xb5c0fbcf, 0xe9b5dba5, 0x3956c25b, 0x59f111f1, 0x923f82a4, 0xab1c5ed5,
    0xd807aa98, 0x12835b01, 0x243185be, 0x550c7dc3, 0x72be5d74, 0x80deb1fe, 0x9bdc06a7, 0xc19bf174,
    0xe49b69c1, 0xefbe4786, 0x0fc19dc6, 0x240ca1cc, 0x2de92c6f, 0x4a7484aa, 0x5cb0a9dc, 0x76f988da,
    0x983e5152, 0xa831c66d, 0xb00327c8, 0xbf597fc7, 0xc6e00bf3, 0xd5a79147, 0x06ca6351, 0x14292967,
    0x27b70a85, 0x2e1b2138, 0x4d2c6dfc, 0x53380d13, 0x650a7354, 0x766a0abb, 0x81c2c92e, 0x92722c85,
    0xa2bfe8a1, 0xa81a664b, 0xc24b8b70, 0xc76c51a3, 0xd192e819, 0xd6990624, 0xf40e3585, 0x106aa070,
    0x19a4c116, 0x1e376c08, 0x2748774c, 0x34b0bcb5, 0x391c0cb3, 0x4ed8aa4a, 0x5b9cca4f, 0x682e6ff3,
    0x748f82ee, 0x78a5636f, 0x84c87814, 0x8cc70208, 0x90befffa, 0xa4506ceb, 0xbef9a3f7, 0xc67178f2]

/-- The eight working words. -/
structure Sha256 where
  a : ℕ
  b : ℕ
  c : ℕ
  d : ℕ
  e : ℕ
  f : ℕ
  g : ℕ
  h : ℕ

/-- The initial hash value. -/
def Sha256.init : Sha256 :=
  ⟨0x6a09e667, 0xbb67ae85, 0x3c6ef372, 0xa54ff53a, 0x510e527f, 0x9b05688c, 0x1f83d9ab, 0x5be0cd19⟩

/-- A 32-bit rotation to the right. -/
def rotr (n x : ℕ) : ℕ := (x >>> n) ||| ((x <<< (32 - n)) % 0x100000000)

/-- The next word of the message schedule, whose last sixteen words come latest first. -/
def nextWord (w : List ℕ) : ℕ :=
  let w2 := w.getD 1 0
  let w15 := w.getD 14 0
  let s0 := rotr 7 w15 ^^^ rotr 18 w15 ^^^ (w15 >>> 3)
  let s1 := rotr 17 w2 ^^^ rotr 19 w2 ^^^ (w2 >>> 10)
  (w.getD 15 0 + s0 + w.getD 6 0 + s1) % 0x100000000

/-- The message schedule, latest word first. -/
def schedule : ℕ → List ℕ → List ℕ
  | 0, w => w
  | n + 1, w => schedule n (nextWord w :: w)

/-- One round. -/
def Sha256.round (s : Sha256) (k w : ℕ) : Sha256 :=
  let s1 := rotr 6 s.e ^^^ rotr 11 s.e ^^^ rotr 25 s.e
  let ch := (s.e &&& s.f) ^^^ ((0xffffffff - s.e) &&& s.g)
  let t1 := s.h + s1 + ch + k + w
  let s0 := rotr 2 s.a ^^^ rotr 13 s.a ^^^ rotr 22 s.a
  let maj := (s.a &&& s.b) ^^^ (s.a &&& s.c) ^^^ (s.b &&& s.c)
  ⟨(t1 + s0 + maj) % 0x100000000, s.a, s.b, s.c, (s.d + t1) % 0x100000000, s.e, s.f, s.g⟩

/-- The rounds over constants and schedule. -/
def Sha256.rounds : Sha256 → List ℕ → List ℕ → Sha256
  | s, k :: ks, w :: ws => Sha256.rounds (s.round k w) ks ws
  | s, _, _ => s

/-- The compression of a block of sixteen words. -/
def Sha256.compress (s : Sha256) (block : List ℕ) : Sha256 :=
  let t := s.rounds sha256Constants (schedule 48 block.reverse).reverse
  ⟨(s.a + t.a) % 0x100000000, (s.b + t.b) % 0x100000000, (s.c + t.c) % 0x100000000,
    (s.d + t.d) % 0x100000000, (s.e + t.e) % 0x100000000, (s.f + t.f) % 0x100000000,
    (s.g + t.g) % 0x100000000, (s.h + t.h) % 0x100000000⟩

/-- The compressions of the first `n` blocks. -/
def Sha256.blocks : ℕ → Sha256 → List ℕ → Sha256
  | 0, s, _ => s
  | n + 1, s, ws => Sha256.blocks n (s.compress (ws.take 16)) (ws.drop 16)

/-- The padded message. -/
def padMessage (bytes : List ℕ) : List ℕ :=
  bytes ++ 0x80 :: List.replicate ((119 - bytes.length % 64) % 64) 0 ++ bytesOf 8 (8 * bytes.length)

/-- Four bytes to a word. -/
def wordsOf : List ℕ → List ℕ
  | a :: b :: c :: d :: rest => (a <<< 24 + b <<< 16 + c <<< 8 + d) :: wordsOf rest
  | _ => []

/-- `hashlib.sha256(data).digest()`. -/
def sha256Digest (bytes : List ℕ) : List ℕ :=
  let ws := wordsOf (padMessage bytes)
  let s := Sha256.init.blocks (ws.length / 16) ws
  [s.a, s.b, s.c, s.d, s.e, s.f, s.g, s.h].flatMap (bytesOf 4)

/-- `hashlib.sha256(text.encode()).hexdigest()`. -/
def sha256Hex (text : String) : String := hexdigest (sha256Digest (encode text))

set_option maxRecDepth 4096 in
example : sha256Hex "abc" = "ba7816bf8f01cfea414140de5dae2223b00361a396177a9cb410ff61f20015ad" := by
  decide +kernel

/-- `hmac.new(key.encode(), text.encode(), hashlib.sha256).hexdigest()`. -/
def hmacSha256Hex (key text : String) : String :=
  let bytes := encode key
  let short := if 64 < bytes.length then sha256Digest bytes else bytes
  let padded := short ++ List.replicate (64 - short.length) 0
  let inner := sha256Digest ((padded.map (0x36 ^^^ ·)) ++ encode text)
  hexdigest (sha256Digest ((padded.map (0x5c ^^^ ·)) ++ inner))

/-! ### Texts -/

/-- A string between quotes, quote and backslash being escaped. -/
def quoted (quote : Char) (s : String) : String :=
  let body := s.toList.flatMap fun c => if c = quote ∨ c = Char.ofNat 92 then [Char.ofNat 92, c]
    else [c]
  String.ofList (quote :: body ++ [quote])

/-- The text of a string inside `repr`: single quotes, unless only they need an escape. -/
def reprString (s : String) : String :=
  let single := Char.ofNat 39
  let double := Char.ofNat 34
  if single ∈ s.toList ∧ double ∉ s.toList then quoted double s else quoted single s

mutual

/-- `repr(v)`. -/
def reprText : Val → String
  | .none => "None"
  | .bool b => if b then "True" else "False"
  | .int n => toString n
  | .float _ text => text
  | .str s => reprString s
  | .stamp text => text
  | .list xs => "[" ++ String.intercalate ", " (reprList xs) ++ "]"
  | .dict kvs => "\x7b" ++ String.intercalate ", " (reprDict kvs) ++ "\x7d"

/-- The texts of the elements. -/
def reprList : List Val → List String
  | [] => []
  | x :: xs => reprText x :: reprList xs

/-- The texts of the members. -/
def reprDict : List (String × Val) → List String
  | [] => []
  | (k, v) :: kvs => (reprString k ++ ": " ++ reprText v) :: reprDict kvs

end

/-- Inserts a member by its key. -/
def insertMember (m : String × String) : List (String × String) → List (String × String)
  | [] => [m]
  | n :: rest => if m.1 < n.1 then m :: n :: rest else n :: insertMember m rest

mutual

/-- The RFC 8785 text of a document. -/
def jcsText : Val → String
  | .none => "null"
  | .bool b => if b then "true" else "false"
  | .int n => toString n
  | .float _ text => text
  | .str s => quoted (Char.ofNat 34) s
  | .stamp text => quoted (Char.ofNat 34) text
  | .list xs => "[" ++ String.intercalate "," (jcsList xs) ++ "]"
  | .dict kvs =>
      let members := (jcsDict kvs).foldr insertMember []
      "\x7b" ++ String.intercalate "," (members.map fun m =>
        quoted (Char.ofNat 34) m.1 ++ ":" ++ m.2) ++ "\x7d"

/-- The texts of the elements. -/
def jcsList : List Val → List String
  | [] => []
  | x :: xs => jcsText x :: jcsList xs

/-- The keys with the texts of their values. -/
def jcsDict : List (String × Val) → List (String × String)
  | [] => []
  | (k, v) :: kvs => (k, jcsText v) :: jcsDict kvs

end

mutual

/-- Whether a document holds a timestamp, which JSON has no form for. -/
def holdsStamp : Val → Bool
  | .stamp _ => true
  | .list xs => holdsStampList xs
  | .dict kvs => holdsStampDict kvs
  | _ => false

/-- Whether an element holds a timestamp. -/
def holdsStampList : List Val → Bool
  | [] => false
  | x :: xs => holdsStamp x || holdsStampList xs

/-- Whether a member holds a timestamp. -/
def holdsStampDict : List (String × Val) → Bool
  | [] => false
  | (_, v) :: kvs => holdsStamp v || holdsStampDict kvs

end

/-- `json.dumps(v, sort_keys=True, separators=(",", ":"))`. -/
def jsonText (v : Val) : Except PyErr String :=
  if holdsStamp v then .error .typeError else .ok (jcsText v)

/-! ### ISO-8601 -/

/-- The number `n` decimal digits stand for, at position `i`. -/
def field (cs : List Char) (i n : ℕ) : Option ℕ :=
  let ds := (cs.drop i).take n
  if ds.length = n ∧ ds.all Char.isDigit then
    some (ds.foldl (fun a d => 10 * a + (d.toNat - '0'.toNat)) 0)
  else none

/-- The days from the first of March of year 0 to a date. -/
def dayNumber (year month day : ℕ) : ℤ :=
  let y : ℤ := if month ≤ 2 then year - 1 else year
  let m : ℤ := (month + 9) % 12
  365 * y + y / 4 - y / 100 + y / 400 + (153 * m + 2) / 5 + (day - 1)

/-- The offset after the time, in minutes; `none` where there is none. -/
def isoOffset : List Char → Option (Option ℤ)
  | [] => some none
  | ['Z'] => some (some 0)
  | '+' :: cs => do
      let h ← field cs 0 2
      let m ← field cs 3 2
      if cs.length = 5 ∧ cs.getD 2 ' ' = ':' then some (some (60 * h + m)) else none
  | '-' :: cs => do
      let h ← field cs 0 2
      let m ← field cs 3 2
      if cs.length = 5 ∧ cs.getD 2 ' ' = ':' then some (some (-(60 * h + m))) else none
  | _ => none

/-- `datetime.fromisoformat(s)` for `YYYY-MM-DDTHH:MM:SS` with an optional offset. -/
def isoStamp (s : String) : Option IsoStamp := do
  let cs := s.toList
  let year ← field cs 0 4
  let month ← field cs 5 2
  let day ← field cs 8 2
  let hour ← field cs 11 2
  let minute ← field cs 14 2
  let second ← field cs 17 2
  let offset ← isoOffset (cs.drop 19)
  if cs.getD 4 ' ' = '-' ∧ cs.getD 7 ' ' = '-' ∧ cs.getD 13 ' ' = ':' ∧ cs.getD 16 ' ' = ':'
      ∧ 1 ≤ month ∧ month ≤ 12 ∧ 1 ≤ day ∧ day ≤ 31 ∧ hour < 24 ∧ minute < 60 ∧ second < 60 then
    let seconds : ℤ := dayNumber year month day * 86400 + hour * 3600 + minute * 60 + second
    match offset with
    | none => some (.naive (seconds * 1000000))
    | some minutes => some (.aware ((seconds - 60 * minutes) * 1000000))
  else none

/-- The runtime. -/
@[reducible] def cpython : PyRuntime where
  sha256 := sha256Hex
  hmacSha256 := hmacSha256Hex
  repr := reprText
  canonicalJson := jcsText
  jsonDumps := jsonText
  fromisoformat := isoStamp

end Foundation
