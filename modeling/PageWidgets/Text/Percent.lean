import PageWidgets.Text.Utf8

/-! The percent form of a text: every byte of its UTF-8 form that is no plain byte becomes `%` and two
    upper-case hex digits. Reading it back leaves a percent sign alone when no two hex digits follow. -/

namespace PageWidgets
namespace Text

/-- A byte that the percent form leaves as it is: an ASCII letter or digit, or one of `-_.!~*'()`. -/
def isPlainByte (b : UInt8) : Bool :=
  let n := b.toNat
  (0x41 ≤ n && n ≤ 0x5A) || (0x61 ≤ n && n ≤ 0x7A) || (0x30 ≤ n && n ≤ 0x39)
    || n == 0x2D || n == 0x5F || n == 0x2E || n == 0x21 || n == 0x7E || n == 0x2A || n == 0x27 || n == 0x28
    || n == 0x29

/-- The upper-case hex digit of a number below 16. -/
def upperHexDigit (n : Nat) : Char := Char.ofNat (if n < 10 then 0x30 + n else 0x37 + n)

/-- The percent form of one byte. -/
def percentByte (b : UInt8) : List Char :=
  if isPlainByte b then [Char.ofNat b.toNat]
  else ['%', upperHexDigit (b.toNat / 16), upperHexDigit (b.toNat % 16)]

/-- The percent form of a text. -/
def percentEncode (l : List Char) : List Char := (utf8 l).flatMap percentByte

/-- The value of an ASCII hex digit of either case. -/
def hexValue (n : Nat) : Option Nat :=
  if 0x30 ≤ n ∧ n ≤ 0x39 then some (n - 0x30)
  else if 0x41 ≤ n ∧ n ≤ 0x46 then some (n - 0x37)
  else if 0x61 ≤ n ∧ n ≤ 0x66 then some (n - 0x57)
  else none

/-- The byte that two hex digits spell. -/
def hexPair (a b : UInt8) : Option UInt8 :=
  match hexValue a.toNat, hexValue b.toNat with
  | some x, some y => some (UInt8.ofNat (x * 16 + y))
  | _, _ => none

/-- The bytes with every `%` and two hex digits replaced by the byte they spell. -/
def percentDecode : List UInt8 → List UInt8
  | 0x25 :: a :: b :: rest =>
    match hexPair a b with
    | some x => x :: percentDecode rest
    | none => 0x25 :: percentDecode (a :: b :: rest)
  | x :: rest => x :: percentDecode rest
  | [] => []

end Text
end PageWidgets
