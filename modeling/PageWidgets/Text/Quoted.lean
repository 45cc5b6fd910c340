import PageWidgets.Text.Printable

/-! The quoted form of a text, for messages: between double quotes, with a backslash before a quote or a
    backslash, short names for the usual controls, and `\u` with the code point in braces for every other
    character that has no printed form. -/

namespace PageWidgets
namespace Text

/-- The hex digits of a number, lower case, no leading zeros. -/
def lowerHex (n : Nat) : String := String.ofList (Nat.toDigits 16 n)

/-- A character inside a quoted text. -/
def quotedChar (c : Char) : String :=
  if c = '"' then "\\\""
  else if c = '\\' then "\\\\"
  else if c = '\n' then "\\n"
  else if c = '\r' then "\\r"
  else if c = '\t' then "\\t"
  else if c.toNat = 0 then "\\0"
  else if isPrintable c then c.toString
  else "\\u\x7b" ++ lowerHex c.toNat ++ "\x7d"

/-- A text between double quotes. -/
def quoted (s : String) : String :=
  "\"" ++ String.join (s.toList.map quotedChar) ++ "\""

end Text
end PageWidgets
