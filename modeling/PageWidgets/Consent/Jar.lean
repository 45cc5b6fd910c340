import PageWidgets.Calendar.MailDate
import PageWidgets.NameMap
import PageWidgets.Text.Split

/-! A jar of cookies. Assignments are stored in it; it reads back as one text of names and values; and a value is
    found in such a text by its name. -/

namespace PageWidgets
namespace Consent

open Calendar Text

/-- The cookies of a page. -/
structure Jar where
  cookies : NameMap String
  deriving DecidableEq, Repr

/-- A pair of texts around the first equals sign, blanks at the ends of the whole dropped. -/
def pair? (l : List Char) : Option (String × String) :=
  (splitOnce '=' (trim l)).map fun (a, b) => (String.ofList a, String.ofList b)

/-- The text with every `GMT` written as an offset. -/
def offsetForm : List Char → List Char
  | 'G' :: 'M' :: 'T' :: rest => '+' :: '0' :: '0' :: '0' :: '0' :: offsetForm rest
  | c :: rest => c :: offsetForm rest
  | [] => []

/-- The instant that an attribute names as the end of a cookie, when it is a readable expiry date. -/
def expiry? (part : List Char) : Option Instant :=
  match splitOnce '=' (trim part) with
  | none => none
  | some (key, date) =>
    if key.map lowerAscii = "expires".toList then MailDate.read (offsetForm date) else none

/-- Does any of the attributes say that the cookie has ended? -/
def expired (attributes : List (List Char)) (now : Instant) : Bool :=
  attributes.any fun a =>
    match expiry? a with
    | some t => t ≤ now
    | none => false

namespace Jar

def empty : Jar := ⟨.empty⟩

/-- Stores an assignment; one that has ended removes the cookie, and one without a name and value changes
    nothing. -/
def store (j : Jar) (assignment : String) (now : Instant) : Jar :=
  let (first, attributes) := parts ';' assignment.toList
  match pair? first with
  | none => j
  | some (name, value) =>
    if expired attributes now then ⟨j.cookies.erase name⟩ else ⟨j.cookies.insert name value⟩

/-- The text that the jar reads back as. -/
def document (j : Jar) : String :=
  join "; " (j.cookies.entries.map fun e => e.1 ++ "=" ++ e.2)

end Jar

/-- The value of the first cookie of that name in a document's text. -/
def findCookie (document name : String) : Option String :=
  ((split ';' document.toList).filterMap pair?).findSome? fun p => if p.1 = name then some p.2 else none

/-- Is there a cookie of that name? -/
def hasCookie (document name : String) : Bool := (findCookie document name).isSome

end Consent
end PageWidgets
