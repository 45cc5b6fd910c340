/-! Coloured text for terminals: a code before the text, and one after it that ends the style. A text that ends
    a style itself takes up the style again right after. -/

namespace PageWidgets
namespace Tester

/-- The colours in use. -/
inductive Colour where
  | red
  | green
  | yellow
  | blue
  | cyan
  | brightYellow
  | brightBlue
  | brightCyan
  | brightWhite
  deriving DecidableEq, Repr

namespace Colour

/-- The terminal's number of a colour. -/
def code : Colour → String
  | .red => "31"
  | .green => "32"
  | .yellow => "33"
  | .blue => "34"
  | .cyan => "36"
  | .brightYellow => "93"
  | .brightBlue => "94"
  | .brightCyan => "96"
  | .brightWhite => "97"

end Colour

/-- A style: bold or not, and a colour if any. -/
structure Style where
  bold : Bool
  colour : Option Colour
  deriving DecidableEq, Repr

namespace Style

/-- A colour alone. -/
def plain (c : Colour) : Style := ⟨false, some c⟩

/-- A bold colour. -/
def strong (c : Colour) : Style := ⟨true, some c⟩

/-- Bold alone. -/
def bare : Style := ⟨true, none⟩

/-- The code that starts the style. -/
def start (s : Style) : List Char :=
  let codes := (if s.bold then ["1"] else []) ++ (s.colour.map Colour.code).toList
  '\x1b' :: '[' :: (String.intercalate ";" codes).toList ++ ['m']

/-- The code that ends any style. -/
def stop : List Char := ['\x1b', '[', '0', 'm']

/-- The text with the style taken up again after every end of a style in it. -/
def resumed (s : Style) : List Char → List Char
  | '\x1b' :: '[' :: '0' :: 'm' :: rest => stop ++ s.start ++ resumed s rest
  | c :: rest => c :: resumed s rest
  | [] => []

end Style

/-- A pen, which writes in colour or not. -/
structure Pen where
  coloured : Bool
  deriving DecidableEq, Repr

namespace Pen

/-- Writes a text in a style. -/
def write (p : Pen) (s : Style) (text : String) : String :=
  if p.coloured then String.ofList (s.start ++ s.resumed text.toList ++ Style.stop) else text

end Pen
end Tester
end PageWidgets
