import Mathlib.Tactic.Common

/-!
The text of a byte string, as code points, where a single surrogate stands for itself (the error
handler `surrogatepass`).

* `codePoint`, `ByteOrder.number`: the value of a sequence of UTF-8, within its bounds, and of a
  unit.
* `decodeUtf8`, `decodeUtf16`, `decodeUtf32`: the three decoders; none where they raise.
-/

namespace Foundation

/-- The value of a sequence with the given leading bits, when it lies between two bounds. -/
def codePoint (low high lead : ℕ) (tail : List UInt8) : Option ℕ :=
  let value := tail.foldl (fun n b => 64 * n + (b.toNat - 0x80)) lead
  if tail.all (fun b => 0x80 ≤ b.toNat ∧ b.toNat < 0xC0) ∧ low ≤ value
    ∧ value ≤ high then some value
  else none

/-- A code point in front of a text. -/
def inFront (point : Option ℕ) (text : Option (List ℕ)) : Option (List ℕ) := do
  return (← point) :: (← text)

/-- UTF-8.  A lower bound rules out the sequences that are longer than they need be. -/
def decodeUtf8 : List UInt8 → Option (List ℕ)
  | [] => some []
  | a :: rest =>
      if a.toNat < 0x80 then inFront (some a.toNat) (decodeUtf8 rest)
      else match rest with
        | [] => none
        | b :: rest =>
            if a.toNat < 0xE0 then
              inFront (codePoint 0x80 0x7FF (a.toNat - 0xC0) [b]) (decodeUtf8 rest)
            else match rest with
              | [] => none
              | c :: rest =>
                  if a.toNat < 0xF0 then
                    inFront (codePoint 0x800 0xFFFF (a.toNat - 0xE0) [b, c]) (decodeUtf8 rest)
                  else match rest with
                    | [] => none
                    | d :: rest =>
                        inFront (codePoint 0x10000 0x10FFFF (a.toNat - 0xF0) [b, c, d])
                          (decodeUtf8 rest)

/-- The order of the bytes of a unit. -/
inductive ByteOrder where
  | little
  | big
  deriving DecidableEq, Repr

/-- The number of a unit. -/
def ByteOrder.number : ByteOrder → List UInt8 → ℕ
  | .big, bytes => bytes.foldl (fun n b => 256 * n + b.toNat) 0
  | .little, bytes => bytes.foldr (fun b n => 256 * n + b.toNat) 0

/-- A unit that begins a pair. -/
def highSurrogate (n : ℕ) : Bool := 0xD800 ≤ n && n < 0xDC00

/-- A unit that ends a pair. -/
def lowSurrogate (n : ℕ) : Bool := 0xDC00 ≤ n && n < 0xE000

/-- The units of two bytes each. -/
def units16 (order : ByteOrder) : List UInt8 → Option (List ℕ)
  | [] => some []
  | [_] => none
  | a :: b :: rest => inFront (some (order.number [a, b])) (units16 order rest)

/-- The pairs of units put together. -/
def joinPairs : List ℕ → List ℕ
  | [] => []
  | [u] => [u]
  | u :: v :: rest =>
      if highSurrogate u && lowSurrogate v then
        (0x10000 + 0x400 * (u - 0xD800) + (v - 0xDC00)) :: joinPairs rest
      else u :: joinPairs (v :: rest)

/-- UTF-16. -/
def decodeUtf16 (order : ByteOrder) (bytes : List UInt8) : Option (List ℕ) :=
  (units16 order bytes).map joinPairs

/-- UTF-32. -/
def decodeUtf32 (order : ByteOrder) : List UInt8 → Option (List ℕ)
  | [] => some []
  | a :: b :: c :: d :: rest =>
      let point := order.number [a, b, c, d]
      if point ≤ 0x10FFFF then inFront (some point) (decodeUtf32 order rest) else none
  | _ => none

end Foundation
