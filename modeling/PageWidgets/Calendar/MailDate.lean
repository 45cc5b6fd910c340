import PageWidgets.Calendar.Instant
import PageWidgets.Text.Blank
import PageWidgets.Text.Fold

/-! Dates as mail and cookie headers write them: `Sun, 06 Nov 1994 08:49:37 GMT`. The written form has one
    shape. The reader takes many: the day of the week may be missing, blanks may be more than one, a year may be
    short, the seconds may be missing, the zone may be an offset or an old name, and comments in parentheses may
    follow. -/

namespace PageWidgets
namespace Calendar
namespace MailDate

/-! ### The written form -/

/-- A number with at least `width` digits. -/
def padded (width n : Nat) : String :=
  let digits := toString n
  String.ofList (List.replicate (width - digits.length) '0') ++ digits

/-- A year: four digits, or a sign and at least four digits outside 0 to 9999. -/
def yearText (year : Int) : String :=
  if 0 ≤ year ∧ year ≤ 9999 then padded 4 year.toNat
  else (if year < 0 then "-" else "+") ++ padded 4 year.natAbs

/-- The written form of an instant; a part of a second is dropped. -/
def text (t : Instant) : String :=
  let date := Date.ofDays t.day
  let s := t.secondOfDay
  weekdayNames.getD (weekday t.day) "" ++ ", " ++ padded 2 date.day ++ " "
    ++ monthNames.getD (date.month - 1) "" ++ " " ++ yearText date.year ++ " "
    ++ padded 2 (s / 3600) ++ ":" ++ padded 2 (s / 60 % 60) ++ ":" ++ padded 2 (s % 60) ++ " GMT"

/-! ### Reading -/

def isDigit (c : Char) : Bool := '0' ≤ c && c ≤ '9'

/-- The number of a list of digits. -/
def ofDigits (l : List Char) : Nat := l.foldl (fun n c => n * 10 + (c.toNat - 0x30)) 0

/-- Reads digits: at least `least`, at most `most`. -/
def number (least most : Nat) (l : List Char) : Option (Nat × List Char) :=
  let digits := (l.takeWhile isDigit).take most
  if least ≤ digits.length then some (ofDigits digits, l.drop digits.length) else none

/-- Reads one blank or more. -/
def blanks : List Char → Option (List Char)
  | [] => none
  | c :: rest => if Text.isBlank c then some (Text.trimStart rest) else none

/-- Reads exactly that character. -/
def mark (m : Char) : List Char → Option (List Char)
  | [] => none
  | c :: rest => if c = m then some rest else none

/-- Reads a name of three letters in any case: its index among the names. -/
def shortName (names : List String) : List Char → Option (Nat × List Char)
  | a :: b :: c :: rest =>
    let word := [a, b, c].map Text.lowerAscii
    match names.findIdx? fun n => n.toList.map Text.lowerAscii = word with
    | some i => some (i, rest)
    | none => none
  | _ => none

/-- Reads the day of the week, which needs a comma right after it, when there is one. -/
def dayName (l : List Char) : Option (Option Nat × List Char) :=
  match shortName weekdayNames l with
  | none => some (none, l)
  | some (i, rest) => (mark ',' rest).map fun rest => (some i, rest)

/-- Reads a year: two digits mean 2000 to 2049 or 1950 to 1999, three count from 1900. -/
def year (l : List Char) : Option (Nat × List Char) :=
  match number 2 l.length l with
  | none => none
  | some (n, rest) =>
    match l.length - rest.length with
    | 2 => some (if n < 50 then n + 2000 else n + 1900, rest)
    | 3 => some (n + 1900, rest)
    | _ => some (n, rest)

/-- Reads the seconds, when a colon follows; none are zero. -/
def seconds (l : List Char) : Option (Nat × List Char) :=
  match mark ':' (Text.trimStart l) with
  | none => some (0, l)
  | some rest => number 2 2 rest

/-- The old names of zones, with their hours. -/
def zoneNames : List (String × Int) :=
  [("gmt", 0), ("ut", 0), ("z", 0), ("edt", -4), ("est", -5), ("cdt", -5), ("cst", -6), ("mdt", -6),
   ("mst", -7), ("pdt", -7), ("pst", -8)]

def isLetter (c : Char) : Bool := (0x41 ≤ c.toNat && c.toNat ≤ 0x5A) || (0x61 ≤ c.toNat && c.toNat ≤ 0x7A)

/-- The offset in minutes that a zone's name stands for; a single letter other than `j` stands for zero. -/
def namedZone (name : List Char) : Option Int :=
  let low := name.map Text.lowerAscii
  match zoneNames.find? fun z => z.1.toList = low with
  | some z => some (z.2 * 60)
  | none => if low.length = 1 ∧ low ≠ ['j'] then some 0 else none

/-- Reads a zone: a name, or a sign with two digits of hours and two of minutes. The offset is in minutes. -/
def zone (l : List Char) : Option (Int × List Char) :=
  match l with
  | [] => none
  | c :: rest =>
    if isLetter c then (namedZone (l.takeWhile isLetter)).map fun o => (o, l.dropWhile isLetter)
    else if c = '+' ∨ c = '-' then
      match number 4 4 rest with
      | none => none
      | some (n, rest) =>
        if n % 100 < 60 ∧ n / 100 < 24 then
          let minutes : Int := n / 100 * 60 + n % 100
          some (if c = '-' then -minutes else minutes, rest)
        else none
    else none

/-- Reads a comment up to the parenthesis that closes it, `depth` more of them being open. -/
def commentEnd : Nat → List Char → Option (List Char)
  | _, [] => none
  | depth, c :: rest =>
    if c = ')' then
      match depth with
      | 0 => some rest
      | depth + 1 => commentEnd depth rest
    else if c = '(' then commentEnd (depth + 1) rest
    else if c = '\\' then
      match rest with
      | [] => none
      | _ :: rest => commentEnd depth rest
    else commentEnd depth rest

/-- Reads the comments at the end; each is at least two characters long. -/
def comments : Nat → List Char → List Char
  | 0, l => l
  | fuel + 1, l =>
    match Text.trimStart l with
    | c :: rest =>
      if c = '(' then
        match commentEnd 0 rest with
        | some rest => comments fuel rest
        | none => l
      else l
    | [] => l

/-- The parts of a date as they were read. -/
structure Parts where
  weekday : Option Nat
  date : Date
  hour : Nat
  minute : Nat
  second : Nat
  zone : Int
  deriving DecidableEq, Repr

namespace Parts

/-- The parts name a day and a time of day, and the day of the week is the right one. -/
def valid (p : Parts) : Bool :=
  p.date.valid && p.hour < 24 && p.minute < 60 && p.second ≤ 60
    && (match p.weekday with
        | none => true
        | some w => w == Calendar.weekday p.date.days)

/-- The instant that the parts name. A leap second is the second after the one before it. -/
def instant (p : Parts) : Instant :=
  p.date.days * dayMillis + (p.hour * 3600 + p.minute * 60 + p.second) * 1000 - p.zone * 60000

end Parts

/-- Reads the parts of a date; nothing may follow them. -/
def parts (l : List Char) : Option Parts := do
  let (weekday, l) ← dayName (Text.trimStart l)
  let (day, l) ← number 1 2 (Text.trimStart l)
  let l ← blanks l
  let (month, l) ← shortName monthNames l
  let l ← blanks l
  let (year, l) ← year l
  let l ← blanks l
  let (hour, l) ← number 2 2 l
  let l ← mark ':' (Text.trimStart l)
  let (minute, l) ← number 2 2 (Text.trimStart l)
  let (second, l) ← seconds l
  let l ← blanks l
  let (zone, l) ← zone l
  if (comments l.length l).isEmpty then
    some ⟨weekday, ⟨year, month + 1, day⟩, hour, minute, second, zone⟩
  else none

/-- The instant that a text names, when it is a date. -/
def read (l : List Char) : Option Instant :=
  match parts l with
  | none => none
  | some p => if p.valid then some p.instant else none

end MailDate
end Calendar
end PageWidgets
