import PageWidgets.Json.Fault
import PageWidgets.Text.Percent

/-! The smallest pieces of a JSON text: blanks, words, strings and numbers, read from the front of a list of
    characters. Each reader returns what it read and the rest, or a refusal. A value that nobody asked for is
    passed over with its own, laxer readers: they check no surrogates and no number ranges. -/

namespace PageWidgets
namespace Json

/-! ### Blanks and words -/

/-- A blank between the pieces. -/
def isSpace (c : Char) : Bool := c == ' ' || c == '\n' || c == '\t' || c == '\r'

/-- The text from its first character that is no blank. -/
def skipBlanks (l : List Char) : List Char := l.dropWhile isSpace

/-- Reads exactly the given word. -/
def scanWord : List Char → List Char → Except Refusal (List Char)
  | [], l => .ok l
  | _ :: _, [] => .error (.here .endInValue [])
  | w :: ws, c :: cs => if w = c then scanWord ws cs else .error (.next .expectedWord (c :: cs))

/-! ### Strings -/

/-- Four hex digits that are not: the text ends before four bytes, or the four bytes are refused together. -/
def hexRefusal (l : List Char) : Refusal :=
  if (Text.utf8 l).length < 4 then .here .endInString [] else ⟨.invalidEscape, l, 4⟩

/-- Reads four hex digits. -/
def scanHex : List Char → Except Refusal (Nat × List Char)
  | l@(a :: b :: c :: d :: rest) =>
    match Text.hexValue a.toNat, Text.hexValue b.toNat, Text.hexValue c.toNat, Text.hexValue d.toNat with
    | some a, some b, some c, some d => .ok (((a * 16 + b) * 16 + c) * 16 + d, rest)
    | _, _, _, _ => .error (hexRefusal l)
  | l => .error (hexRefusal l)

def isHighSurrogate (n : Nat) : Bool := 0xD800 ≤ n && n ≤ 0xDBFF

def isLowSurrogate (n : Nat) : Bool := 0xDC00 ≤ n && n ≤ 0xDFFF

/-- Reads the second half of a character written as two surrogates. -/
def scanLowSurrogate (high : Nat) : List Char → Except Refusal (Char × List Char)
  | '\\' :: 'u' :: rest => do
    let (low, rest) ← scanHex rest
    if isLowSurrogate low then
      .ok (Char.ofNat (0x10000 + (high - 0xD800) * 0x400 + (low - 0xDC00)), rest)
    else .error (.here .loneSurrogate rest)
  | [] => .error (.here .endInString [])
  | ['\\'] => .error (.here .endInString [])
  | '\\' :: rest => .error (.next .endOfHexEscape rest)
  | rest => .error (.next .endOfHexEscape rest)

/-- The character that a backslash and this character stand for. -/
def shortEscape (c : Char) : Option Char :=
  if c = '"' then some '"'
  else if c = '\\' then some '\\'
  else if c = '/' then some '/'
  else if c = 'b' then some '\x08'
  else if c = 'f' then some '\x0c'
  else if c = 'n' then some '\n'
  else if c = 'r' then some '\r'
  else if c = 't' then some '\t'
  else none

/-- Reads what follows a backslash. -/
def scanEscape : List Char → Except Refusal (Char × List Char)
  | [] => .error (.here .endInString [])
  | c :: rest =>
    match shortEscape c with
    | some e => .ok (e, rest)
    | none =>
      if c = 'u' then do
        let (n, rest) ← scanHex rest
        if isLowSurrogate n then .error (.here .loneSurrogate rest)
        else if isHighSurrogate n then scanLowSurrogate n rest
        else .ok (Char.ofNat n, rest)
      else .error (.next .invalidEscape (c :: rest))

/-- Reads a string up to its closing quote; every character takes at least one step of the fuel. -/
def scanStringFrom : Nat → List Char → Except Refusal (List Char × List Char)
  | 0, l => .error (.here .endInString l)
  | _ + 1, [] => .error (.here .endInString [])
  | fuel + 1, c :: rest =>
    if c = '"' then .ok ([], rest)
    else if c = '\\' then do
      let (e, rest) ← scanEscape rest
      let (s, rest) ← scanStringFrom fuel rest
      .ok (e :: s, rest)
    else if c.toNat < 0x20 then .error (.next .controlCharacter (c :: rest))
    else do
      let (s, rest) ← scanStringFrom fuel rest
      .ok (c :: s, rest)

/-- Reads a string after its opening quote. -/
def scanString (l : List Char) : Except Refusal (String × List Char) := do
  let (s, rest) ← scanStringFrom (l.length + 1) l
  .ok (String.ofList s, rest)

/-- Passes over a string up to its closing quote. -/
def skipStringFrom : Nat → List Char → Except Refusal (List Char)
  | 0, l => .error (.here .endInString l)
  | _ + 1, [] => .error (.here .endInString [])
  | fuel + 1, c :: rest =>
    if c = '"' then .ok rest
    else if c = '\\' then
      match rest with
      | [] => .error (.here .endInString [])
      | e :: rest =>
        if (shortEscape e).isSome then skipStringFrom fuel rest
        else if e = 'u' then do
          let (_, rest) ← scanHex rest
          skipStringFrom fuel rest
        else .error (.next .invalidEscape (e :: rest))
    else if c.toNat < 0x20 then .error (.here .controlCharacter (c :: rest))
    else skipStringFrom fuel rest

/-- Passes over a string after its opening quote. -/
def skipString (l : List Char) : Except Refusal (List Char) := skipStringFrom (l.length + 1) l

/-! ### Numbers -/

def isDigit (c : Char) : Bool := '0' ≤ c && c ≤ '9'

def digitValue (c : Char) : Nat := c.toNat - 0x30

/-- The largest significand that is kept exactly. -/
def largestSignificand : Nat := Nat.pow 2 64 - 1

/-- The largest exponent that is read digit by digit. -/
def largestExponent : Nat := Nat.pow 2 31 - 1

/-- Reads digits into a significand as long as it stays small enough; the digits it stops before are left. -/
def scanDigits : Nat → List Char → Nat × List Char
  | n, [] => (n, [])
  | n, c :: rest =>
    if isDigit c ∧ n * 10 + digitValue c ≤ largestSignificand then scanDigits (n * 10 + digitValue c) rest
    else (n, c :: rest)

/-- The number of a significand and a decimal exponent; one that is too large is refused. -/
def floatNumber (negative : Bool) (significand : Nat) (exponent : Int) (rest : List Char) : Except Refusal (Number × List Char) :=
  match Binary64.ofDecimal significand exponent with
  | some (mantissa, e) => .ok (.float ⟨negative, mantissa, e⟩, rest)
  | none => .error (.here .numberOutOfRange rest)

/-- Reads the digits of an exponent and makes the number. An exponent beyond all measure makes zero when it is
    negative or the significand is zero, else it is refused. -/
def scanExponentDigits (negative : Bool) (significand : Nat) (start : Int) (below : Bool) :
    Nat → List Char → Except Refusal (Number × List Char)
  | e, [] => floatNumber negative significand (if below then start - e else start + e) []
  | e, c :: rest =>
    if isDigit c then
      if e * 10 + digitValue c ≤ largestExponent then
        scanExponentDigits negative significand start below (e * 10 + digitValue c) rest
      else if significand ≠ 0 ∧ !below then .error (.here .numberOutOfRange rest)
      else .ok (.float ⟨negative, 0, -1074⟩, rest.dropWhile isDigit)
    else floatNumber negative significand (if below then start - e else start + e) (c :: rest)

/-- Takes the sign from the front of an exponent. -/
def exponentSign : List Char → Bool × List Char
  | c :: rest => if c = '+' then (false, rest) else if c = '-' then (true, rest) else (false, c :: rest)
  | [] => (false, [])

/-- Reads what follows the `e` of a number. -/
def scanExponent (negative : Bool) (significand : Nat) (start : Int) (l : List Char) : Except Refusal (Number × List Char) :=
  let (below, rest) := exponentSign l
  match rest with
  | [] => .error (.here .endInValue [])
  | c :: rest =>
    if isDigit c then scanExponentDigits negative significand start below (digitValue c) rest
    else .error (.next .invalidNumber (c :: rest))

def isExponentMark (c : Char) : Bool := c == 'e' || c == 'E'

/-- Finishes a number whose digits are all read. -/
def scanFloatEnd (negative : Bool) (significand : Nat) (exponent : Int) : List Char → Except Refusal (Number × List Char)
  | c :: rest =>
    if isExponentMark c then scanExponent negative significand exponent rest
    else floatNumber negative significand exponent (c :: rest)
  | [] => floatNumber negative significand exponent []

/-- Reads what follows the point of a number. Digits that the significand cannot take are dropped. -/
def scanFraction (negative : Bool) (significand : Nat) (exponent : Int) (l : List Char) : Except Refusal (Number × List Char) :=
  match l with
  | [] => .error (.here .endInValue [])
  | c :: _ =>
    if isDigit c then
      let (n, rest) := scanDigits significand l
      let places := l.length - rest.length
      scanFloatEnd negative n (exponent - places) (rest.dropWhile isDigit)
    else .error (.next .invalidNumber l)

/-- A whole number: negative zero, and one that leaves the 64-bit ranges, has no exact whole form. -/
def wholeNumber (negative : Bool) (significand : Nat) (rest : List Char) : Except Refusal (Number × List Char) :=
  if negative then
    if 0 < significand ∧ significand ≤ Nat.pow 2 63 then .ok (.integer (-(significand : Int)), rest)
    else floatNumber true significand 0 rest
  else .ok (.integer significand, rest)

/-- Finishes a number after its whole digits: `dropped` of them no longer fitted the significand. -/
def scanNumberEnd (negative : Bool) (significand dropped : Nat) : List Char → Except Refusal (Number × List Char)
  | c :: rest =>
    if c = '.' then scanFraction negative significand dropped rest
    else if isExponentMark c then scanExponent negative significand dropped rest
    else if dropped = 0 then wholeNumber negative significand (c :: rest)
    else floatNumber negative significand dropped (c :: rest)
  | [] =>
    if dropped = 0 then wholeNumber negative significand []
    else floatNumber negative significand dropped []

/-- Reads a number after its sign. -/
def scanUnsigned (negative : Bool) : List Char → Except Refusal (Number × List Char)
  | [] => .error (.here .endInValue [])
  | c :: rest =>
    if c = '0' then
      match rest with
      | d :: _ => if isDigit d then .error (.next .invalidNumber rest) else scanNumberEnd negative 0 0 rest
      | [] => scanNumberEnd negative 0 0 []
    else if isDigit c then
      let (n, rest) := scanDigits (digitValue c) rest
      let after := rest.dropWhile isDigit
      scanNumberEnd negative n (rest.length - after.length) after
    else .error (.next .invalidNumber (c :: rest))

/-- Reads a number. -/
def scanNumber : List Char → Except Refusal (Number × List Char)
  | c :: rest => if c = '-' then scanUnsigned true rest else scanUnsigned false (c :: rest)
  | [] => scanUnsigned false []

/-- Passes over an exponent after its `e`. -/
def skipExponent (l : List Char) : Except Refusal (List Char) :=
  match (exponentSign l).2 with
  | c :: rest => if isDigit c then .ok (rest.dropWhile isDigit) else .error (.next .invalidNumber (c :: rest))
  | [] => .error (.next .invalidNumber [])

/-- Passes over what follows the whole digits of a number. -/
def skipNumberEnd : List Char → Except Refusal (List Char)
  | c :: rest =>
    if c = '.' then
      match rest with
      | d :: _ =>
        if isDigit d then
          match rest.dropWhile isDigit with
          | e :: after => if isExponentMark e then skipExponent after else .ok (e :: after)
          | [] => .ok []
        else .error (.next .invalidNumber rest)
      | [] => .error (.next .invalidNumber [])
    else if isExponentMark c then skipExponent rest
    else .ok (c :: rest)
  | [] => .ok []

/-- Passes over a number after its sign. -/
def skipUnsigned : List Char → Except Refusal (List Char)
  | [] => .error (.next .invalidNumber [])
  | c :: rest =>
    if c = '0' then
      match rest with
      | d :: _ => if isDigit d then .error (.next .invalidNumber rest) else skipNumberEnd rest
      | [] => .ok []
    else if isDigit c then skipNumberEnd (rest.dropWhile isDigit)
    else .error (.next .invalidNumber (c :: rest))

/-! ### Values nobody asked for -/

inductive Bracket where
  | list
  | object
  deriving DecidableEq, Repr

namespace Bracket

/-- The text ends while the bracket is open. -/
def ending : Bracket → Fault
  | .list => .endInList
  | .object => .endInObject

/-- An item is over, and neither a comma nor the closing bracket follows. -/
def separator : Bracket → Fault
  | .list => .expectedCommaOrBracket
  | .object => .expectedCommaOrBrace

def closing : Bracket → Char
  | .list => ']'
  | .object => '\x7d'

end Bracket

/-- Reads the colon after a key. -/
def scanColon (l : List Char) : Except Refusal (List Char) :=
  match skipBlanks l with
  | c :: rest => if c = ':' then .ok rest else .error (.next .expectedColon (c :: rest))
  | [] => .error (.here .endInObject [])

/-- Passes over a key and its colon. -/
def skipKey (l : List Char) : Except Refusal (List Char) :=
  match skipBlanks l with
  | c :: rest =>
    if c = '"' then do
      let rest ← skipString rest
      scanColon rest
    else .error (.next .keyNotText (c :: rest))
  | [] => .error (.here .endInObject [])

/-- What the text is about to hold: a value, the first item of the open bracket, or what follows an item. -/
inductive Ahead where
  | value
  | firstItem
  | separator
  deriving DecidableEq, Repr

/-- Passes over a value, with the open brackets on a stack, so that nesting has no limit. Each step but those
    that pass from a bracket to its first item reads a character. -/
def skipFrom : Nat → Ahead → List Bracket → List Char → Except Refusal (List Char)
  | 0, _, _, l => .error (.here .endInValue l)
  | fuel + 1, .value, open_, l =>
    match skipBlanks l with
    | [] => .error (.here .endInValue [])
    | c :: rest =>
      if c = 'n' then do
        let rest ← scanWord "ull".toList rest
        skipFrom fuel .separator open_ rest
      else if c = 't' then do
        let rest ← scanWord "rue".toList rest
        skipFrom fuel .separator open_ rest
      else if c = 'f' then do
        let rest ← scanWord "alse".toList rest
        skipFrom fuel .separator open_ rest
      else if c = '-' then do
        let rest ← skipUnsigned rest
        skipFrom fuel .separator open_ rest
      else if isDigit c then do
        let rest ← skipUnsigned (c :: rest)
        skipFrom fuel .separator open_ rest
      else if c = '"' then do
        let rest ← skipString rest
        skipFrom fuel .separator open_ rest
      else if c = '[' then skipFrom fuel .firstItem (.list :: open_) rest
      else if c = '\x7b' then skipFrom fuel .firstItem (.object :: open_) rest
      else .error (.next .expectedValue (c :: rest))
  | _ + 1, _, [], l => .ok l
  | fuel + 1, ahead, b :: outer, l =>
    match skipBlanks l with
    | [] => .error (.here b.ending [])
    | c :: rest =>
      if c = b.closing then skipFrom fuel .separator outer rest
      else if c = ',' ∧ ahead = .separator then do
        let rest ← if b = .object then skipKey rest else .ok rest
        skipFrom fuel .value (b :: outer) rest
      else if ahead = .separator then .error (.next b.separator (c :: rest))
      else do
        let rest ← if b = .object then skipKey (c :: rest) else .ok (c :: rest)
        skipFrom fuel .value (b :: outer) rest

/-- Passes over a value. -/
def skipValue (l : List Char) : Except Refusal (List Char) := skipFrom (2 * l.length + 2) .value [] l

end Json
end PageWidgets
