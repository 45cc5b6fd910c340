/-! Names compared without regard to case. Every name looked up this way is ASCII, so it is enough to know
    which characters have a lower-case form in ASCII: the capitals A to Z, and the Kelvin sign U+212A, whose
    lower-case form is `k`. Any other character stands for itself and keeps a name from matching. -/

namespace PageWidgets
namespace Text

/-- The ASCII lower-case form of a character, when it has one, else the character. -/
def foldChar (c : Char) : Char :=
  if 0x41 ≤ c.toNat ∧ c.toNat ≤ 0x5A then Char.ofNat (c.toNat + 0x20)
  else if c.toNat = 0x212A then 'k'
  else c

/-- A name with every character folded. -/
def fold (s : String) : String := String.ofList (s.toList.map foldChar)

/-- The ASCII letter of the other case folded away; other characters are left alone. -/
def lowerAscii (c : Char) : Char :=
  if 0x41 ≤ c.toNat ∧ c.toNat ≤ 0x5A then Char.ofNat (c.toNat + 0x20) else c

/-- A text with its ASCII capitals in lower case. -/
def lowerAsciiText (s : String) : String := String.ofList (s.toList.map lowerAscii)

end Text
end PageWidgets
