import PageWidgets.Json.Reader

/-! Spans of time in nanoseconds, their text in the largest unit that fits at least once, and their form in JSON
    as whole milliseconds. -/

namespace PageWidgets
namespace Tester

/-- A span of time. -/
structure Duration where
  nanos : Nat
  deriving DecidableEq, Repr

namespace Duration

def zero : Duration := ⟨0⟩

/-- That many seconds and nanoseconds. -/
def ofParts (secs nanos : Nat) : Duration := ⟨secs * Nat.pow 10 9 + nanos⟩

/-- That many milliseconds. -/
def ofMillis (n : Nat) : Duration := ⟨n * Nat.pow 10 6⟩

/-- The whole seconds. -/
def secs (d : Duration) : Nat := d.nanos / Nat.pow 10 9

/-- The nanoseconds beyond the whole seconds. -/
def subsecNanos (d : Duration) : Nat := d.nanos % Nat.pow 10 9

/-- The whole milliseconds. -/
def millis (d : Duration) : Nat := d.nanos / Nat.pow 10 6

/-- A point and that many digits, the zeros at the end left out; nothing when all are zero. -/
def fractionText (places n : Nat) : String :=
  if n = 0 then ""
  else
    let ds := Nat.toDigits 10 n
    let padded := List.replicate (places - ds.length) '0' ++ ds
    String.ofList ('.' :: (padded.reverse.dropWhile (· = '0')).reverse)

/-- The text of a quantity in a unit of `10 ^ places` nanoseconds. -/
def textIn (places : Nat) (unit : String) (nanos : Nat) : String :=
  toString (nanos / Nat.pow 10 places) ++ fractionText places (nanos % Nat.pow 10 places) ++ unit

/-- The text of a span. -/
def text (d : Duration) : String :=
  if Nat.pow 10 9 ≤ d.nanos then textIn 9 "s" d.nanos
  else if Nat.pow 10 6 ≤ d.nanos then textIn 6 "ms" d.nanos
  else if Nat.pow 10 3 ≤ d.nanos then textIn 3 "µs" d.nanos
  else textIn 0 "ns" d.nanos

/-! ### JSON -/

/-- The JSON value of a span. -/
def toValue (d : Duration) : Json.Value := .nat d.millis

/-- The span of that many milliseconds, when they fit in 64 bits, else none at all. -/
def ofCount (n : Nat) : Duration := if n < Nat.pow 2 64 then ofMillis n else zero

/-- The largest count that is read. -/
def countBound : Nat := Nat.pow 2 128 - 1

/-- Reads the digits of a count: a zero that stands alone, or digits that start with another one. -/
def scanCount (l : List Char) : Except Json.Refusal (Nat × List Char) :=
  match l with
  | [] => .error (.here .endInValue [])
  | c :: rest =>
    if c = '-' then .error (.next .numberOutOfRange (c :: rest))
    else if !Json.isDigit c then .error (.next .invalidNumber (c :: rest))
    else if c = '0' then
      match rest with
      | d :: _ => if Json.isDigit d then .error (.next .invalidNumber rest) else .ok (0, rest)
      | [] => .ok (0, [])
    else
      let digits := (c :: rest).takeWhile Json.isDigit
      let after := (c :: rest).dropWhile Json.isDigit
      let n := digits.foldl (fun n d => 10 * n + (d.toNat - 0x30)) 0
      if n ≤ countBound then .ok (n, after) else .error (.here .numberOutOfRange after)

/-- Reads a span. -/
def reader : Json.Reader Duration where
  text l :=
    match scanCount (Json.skipBlanks l) with
    | .error r => .error r
    | .ok (n, rest) => .ok (ofCount n, rest)
  value
    | .number n => (Json.Reader.naturalOf "u128" countBound n).map ofCount
    | v => .error (Json.mismatch "u128" v)

end Duration
end Tester
end PageWidgets
