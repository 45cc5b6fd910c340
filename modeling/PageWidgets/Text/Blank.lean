/-! Blanks: the characters with the `White_Space` property, and cutting them from the ends of a text. A text
    is blank when it holds nothing else. -/

namespace PageWidgets
namespace Text

/-- A character with the `White_Space` property. -/
def isBlank (c : Char) : Bool :=
  let n := c.toNat
  (0x09 ≤ n && n ≤ 0x0D) || n == 0x20 || n == 0x85 || n == 0xA0 || n == 0x1680
    || (0x2000 ≤ n && n ≤ 0x200A) || n == 0x2028 || n == 0x2029 || n == 0x202F || n == 0x205F || n == 0x3000

/-- The text without its leading blanks. -/
def trimStart (l : List Char) : List Char := l.dropWhile isBlank

/-- The text without its trailing blanks. -/
def trimEnd (l : List Char) : List Char := (l.reverse.dropWhile isBlank).reverse

/-- The text without the blanks at its ends. -/
def trim (l : List Char) : List Char := trimEnd (trimStart l)

/-- A string without the blanks at its ends. -/
def trimmed (s : String) : String := String.ofList (trim s.toList)

/-- Nothing but blanks. -/
def isBlankText (s : String) : Bool := s.toList.all isBlank

end Text
end PageWidgets
