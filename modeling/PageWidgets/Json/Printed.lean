import PageWidgets.Json.Value
import PageWidgets.Text.Quoted
import PageWidgets.Text.Split

/-! The written forms of a JSON value: on one line without blanks, or over several lines with two blanks for
    every level. Strings escape the quote, the backslash and the controls below U+0020, and nothing else. -/

namespace PageWidgets
namespace Json

/-- The escape of a character inside a string. -/
def escapeChar (c : Char) : List Char :=
  if c = '"' then ['\\', '"']
  else if c = '\\' then ['\\', '\\']
  else if c = '\x08' then ['\\', 'b']
  else if c = '\x0c' then ['\\', 'f']
  else if c = '\n' then ['\\', 'n']
  else if c = '\r' then ['\\', 'r']
  else if c = '\t' then ['\\', 't']
  else if c.toNat < 0x20 then
    ['\\', 'u', '0', '0', Nat.digitChar (c.toNat / 16), Nat.digitChar (c.toNat % 16)]
  else [c]

/-- A text as a JSON string. -/
def stringText (s : String) : String :=
  String.ofList ('"' :: s.toList.flatMap escapeChar ++ ['"'])

def wordText (b : Bool) : String := if b then "true" else "false"

namespace Value

mutual

/-- The value on one line. -/
def compact : Value → String
  | .null => "null"
  | .bool b => wordText b
  | .number n => n.text
  | .string s => stringText s
  | .array items => "[" ++ Text.join "," (compactItems items) ++ "]"
  | .object members => "\x7b" ++ Text.join "," (compactMembers members) ++ "\x7d"

def compactItems : List Value → List String
  | [] => []
  | v :: rest => compact v :: compactItems rest

def compactMembers : List (String × Value) → List String
  | [] => []
  | (key, v) :: rest => (stringText key ++ ":" ++ compact v) :: compactMembers rest

end

/-- A line break and the blanks that start a line of that level. -/
def lineStart (level : Nat) : String := String.ofList ('\n' :: List.replicate (2 * level) ' ')

/-- Texts between brackets, each on a line of its own. -/
def block (opening closing : String) (level : Nat) (lines : List String) : String :=
  if lines.isEmpty then opening ++ closing
  else opening ++ lineStart (level + 1) ++ Text.join ("," ++ lineStart (level + 1)) lines ++ lineStart level ++ closing

mutual

/-- The value over several lines, at that level of nesting. -/
def prettyAt (level : Nat) : Value → String
  | .array items => block "[" "]" level (prettyItems (level + 1) items)
  | .object members => block "\x7b" "\x7d" level (prettyMembers (level + 1) members)
  | v => compact v

def prettyItems (level : Nat) : List Value → List String
  | [] => []
  | v :: rest => prettyAt level v :: prettyItems level rest

def prettyMembers (level : Nat) : List (String × Value) → List String
  | [] => []
  | (key, v) :: rest => (stringText key ++ ": " ++ prettyAt level v) :: prettyMembers level rest

end

/-- The value over several lines. -/
def pretty (v : Value) : String := prettyAt 0 v

end Value
end Json
end PageWidgets
