/-! Base64: three bytes as four characters of an alphabet of 64. The last group may be shorter; it is filled up
    with `=`, and the bits that belong to no byte are zero. -/

namespace PageWidgets
namespace Text

/-- The value of a character of the alphabet. -/
def base64Value (c : Char) : Option Nat :=
  let n := c.toNat
  if 0x41 ≤ n ∧ n ≤ 0x5A then some (n - 0x41)
  else if 0x61 ≤ n ∧ n ≤ 0x7A then some (n - 0x61 + 26)
  else if 0x30 ≤ n ∧ n ≤ 0x39 then some (n - 0x30 + 52)
  else if c = '+' then some 62
  else if c = '/' then some 63
  else none

/-- The three bytes of four values. -/
def base64Group (a b c d : Nat) : List UInt8 :=
  [UInt8.ofNat (a * 4 + b / 16), UInt8.ofNat (b % 16 * 16 + c / 4), UInt8.ofNat (c % 4 * 64 + d)]

/-- The bytes of the last four characters. -/
def base64Last (a b c d : Char) : Option (List UInt8) := do
  let x ← base64Value a
  let y ← base64Value b
  if c = '=' ∧ d = '=' then
    if y % 16 = 0 then some ((base64Group x y 0 0).take 1) else none
  else
    let z ← base64Value c
    if d = '=' then
      if z % 4 = 0 then some ((base64Group x y z 0).take 2) else none
    else
      let w ← base64Value d
      some (base64Group x y z w)

/-- The bytes that a Base64 text spells. -/
def base64Decode : List Char → Option (List UInt8)
  | [] => some []
  | [a, b, c, d] => base64Last a b c d
  | a :: b :: c :: d :: rest => do
    let x ← base64Value a
    let y ← base64Value b
    let z ← base64Value c
    let w ← base64Value d
    let bytes ← base64Decode rest
    some (base64Group x y z w ++ bytes)
  | _ => none

end Text
end PageWidgets
