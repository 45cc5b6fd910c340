import PageWidgets.Json.Value
import PageWidgets.Text.Quoted
import PageWidgets.Text.Utf8

/-! What is wrong with a JSON text or value, and where: the causes, their wording, and the place as a line and
    a count of bytes in that line. -/

namespace PageWidgets
namespace Json

/-- The kind of value that was met where another was wanted. -/
inductive Found where
  | null
  | bool (b : Bool)
  | number (n : Number)
  | string (s : String)
  | sequence
  | map
  deriving DecidableEq, Repr

namespace Found

def text : Found → String
  | .null => "null"
  | .bool b => "boolean `" ++ (if b then "true" else "false") ++ "`"
  | .number (.integer i) => "integer `" ++ toString i ++ "`"
  | .number (.float x) => "floating point `" ++ x.text ++ "`"
  | .string s => "string " ++ Text.quoted s
  | .sequence => "sequence"
  | .map => "map"

/-- The kind of a value. -/
def ofValue : Value → Found
  | .null => .null
  | .bool b => .bool b
  | .number n => .number n
  | .string s => .string s
  | .array _ => .sequence
  | .object _ => .map

end Found

/-- A cause for refusing a text or a value. -/
inductive Fault where
  | endInValue
  | endInList
  | endInObject
  | endInString
  | expectedColon
  | expectedCommaOrBracket
  | expectedCommaOrBrace
  | expectedValue
  | expectedWord
  | keyNotText
  | trailingComma
  | trailingCharacters
  | invalidEscape
  | controlCharacter
  | loneSurrogate
  | endOfHexEscape
  | invalidNumber
  | numberOutOfRange
  | tooDeep
  | wrongType (found : Found) (wanted : String)
  | wrongValue (found : Found) (wanted : String)
  | wrongLength (length : Nat) (wanted : String)
  | missingField (name : String)
  | duplicateField (name : String)
  | unknownVariant (name : String) (known : List String)
  deriving DecidableEq, Repr

namespace Fault

/-- Names between backticks, with commas. -/
def ticked (names : List String) : String :=
  String.intercalate ", " (names.map fun n => "`" ++ n ++ "`")

def message : Fault → String
  | .endInValue => "EOF while parsing a value"
  | .endInList => "EOF while parsing a list"
  | .endInObject => "EOF while parsing an object"
  | .endInString => "EOF while parsing a string"
  | .expectedColon => "expected `:`"
  | .expectedCommaOrBracket => "expected `,` or `]`"
  | .expectedCommaOrBrace => "expected `,` or `\x7d`"
  | .expectedValue => "expected value"
  | .expectedWord => "expected ident"
  | .keyNotText => "key must be a string"
  | .trailingComma => "trailing comma"
  | .trailingCharacters => "trailing characters"
  | .invalidEscape => "invalid escape"
  | .controlCharacter => "control character (\\u0000-\\u001F) found while parsing a string"
  | .loneSurrogate => "lone leading surrogate in hex escape"
  | .endOfHexEscape => "unexpected end of hex escape"
  | .invalidNumber => "invalid number"
  | .numberOutOfRange => "number out of range"
  | .tooDeep => "recursion limit exceeded"
  | .wrongType found wanted => "invalid type: " ++ found.text ++ ", expected " ++ wanted
  | .wrongValue found wanted => "invalid value: " ++ found.text ++ ", expected " ++ wanted
  | .wrongLength length wanted => "invalid length " ++ toString length ++ ", expected " ++ wanted
  | .missingField name => "missing field `" ++ name ++ "`"
  | .duplicateField name => "duplicate field `" ++ name ++ "`"
  | .unknownVariant name known => "unknown variant `" ++ name ++ "`, expected one of " ++ ticked known

end Fault

/-- A refused text: the cause, the text that was still unread, and how many of its bytes the place counts. -/
structure Refusal where
  fault : Fault
  rest : List Char
  ahead : Nat
  deriving DecidableEq, Repr

/-- A refusal at the next byte of the unread text. -/
def Refusal.next (fault : Fault) (rest : List Char) : Refusal := ⟨fault, rest, 1⟩

/-- A refusal right after what was read. -/
def Refusal.here (fault : Fault) (rest : List Char) : Refusal := ⟨fault, rest, 0⟩

/-- A line, counted from one, and a number of bytes of that line. -/
structure Place where
  line : Nat
  column : Nat
  deriving DecidableEq, Repr

/-- The place after the given bytes. -/
def Place.after (bytes : List UInt8) : Place :=
  ⟨1 + bytes.count 0x0A, (bytes.reverse.takeWhile (· ≠ 0x0A)).length⟩

/-- The place a refusal of the text names. -/
def Refusal.place (r : Refusal) (text : List Char) : Place :=
  let all := Text.utf8 text
  .after (all.take (all.length - (Text.utf8 r.rest).length + r.ahead))

/-- A cause with its place, when the text and not a value was read. -/
structure ReadError where
  fault : Fault
  place : Option Place
  deriving DecidableEq, Repr

/-- The refusal of a text, with its place in that text. -/
def Refusal.inText (r : Refusal) (text : List Char) : ReadError := ⟨r.fault, some (r.place text)⟩

def ReadError.message (e : ReadError) : String :=
  match e.place with
  | none => e.fault.message
  | some p => e.fault.message ++ " at line " ++ toString p.line ++ " column " ++ toString p.column

end Json
end PageWidgets
