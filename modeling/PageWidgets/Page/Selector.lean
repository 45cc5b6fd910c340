import PageWidgets.Page.Element

/-! Selectors: an optional tag, and after it classes, identifiers and attributes that an element must have. -/

namespace PageWidgets
namespace Page

/-- A demand on an element. -/
inductive Demand where
  | cls (name : String)
  | id (name : String)
  | attr (name : String)
  | attrIs (name value : String)
  deriving DecidableEq, Repr

/-- What a selector asks of an element. -/
structure Selector where
  tag : Option String
  demands : List Demand
  deriving DecidableEq, Repr

namespace Selector

/-- A character of a name. -/
def isNameChar (c : Char) : Bool :=
  let n := c.toNat
  (0x41 ≤ n && n ≤ 0x5A) || (0x61 ≤ n && n ≤ 0x7A) || (0x30 ≤ n && n ≤ 0x39) || n == 0x2D || n == 0x5F || 0x80 ≤ n

def isDigit (c : Char) : Bool := '0' ≤ c && c ≤ '9'

/-- A name: not empty, and starting neither with a digit nor with a hyphen and a digit. -/
def validName : List Char → Bool
  | [] => false
  | ['-'] => true
  | '-' :: c :: _ => !isDigit c
  | c :: _ => !isDigit c

/-- Reads a name from the front. -/
def name (l : List Char) : Option (String × List Char) :=
  let n := l.takeWhile isNameChar
  if validName n then some (String.ofList n, l.dropWhile isNameChar) else none

/-- Reads what follows the opening bracket of an attribute. -/
def attrDemand (l : List Char) : Option (Demand × List Char) :=
  match name l with
  | none => none
  | some (n, ']' :: rest) => some (.attr n, rest)
  | some (n, '=' :: '"' :: rest) =>
    match rest.dropWhile (· ≠ '"') with
    | '"' :: ']' :: after => some (.attrIs n (String.ofList (rest.takeWhile (· ≠ '"'))), after)
    | _ => none
  | some _ => none

/-- Reads demands up to the end; each takes a character at least. -/
def readDemands : Nat → List Char → Option (List Demand)
  | _, [] => some []
  | 0, _ :: _ => none
  | fuel + 1, c :: rest =>
    if c = '.' then
      match name rest with
      | some (n, rest) => (readDemands fuel rest).map (.cls n :: ·)
      | none => none
    else if c = '#' then
      match name rest with
      | some (n, rest) => (readDemands fuel rest).map (.id n :: ·)
      | none => none
    else if c = '[' then
      match attrDemand rest with
      | some (d, rest) => (readDemands fuel rest).map (d :: ·)
      | none => none
    else none

/-- The text without the blanks at its ends. -/
def trim (l : List Char) : List Char := ((l.dropWhile isSpace).reverse.dropWhile isSpace).reverse

/-- Reads a selector; it has one part at least. -/
def read (s : String) : Except Fault Selector :=
  match trim s.toList with
  | [] => .error (.invalidSelector s)
  | l@(c :: _) =>
    if isNameChar c then
      match name l with
      | none => .error (.invalidSelector s)
      | some (tag, rest) =>
        match readDemands rest.length rest with
        | some ds => .ok ⟨some tag, ds⟩
        | none => .error (.invalidSelector s)
    else
      match readDemands l.length l with
      | some ds => .ok ⟨none, ds⟩
      | none => .error (.invalidSelector s)

end Selector

namespace Element

/-- Does the element meet the demand? -/
def meets (e : Element) : Demand → Bool
  | .cls name => e.hasClass name
  | .id name => e.attr? "id" == some name
  | .attr name => e.hasAttr name
  | .attrIs name value => e.attr? name == some value

/-- Does the selector select the element? -/
def isSelected (e : Element) (s : Selector) : Bool :=
  (match s.tag with
    | none => true
    | some tag => Text.lowerAsciiText e.tag == Text.lowerAsciiText tag) && s.demands.all e.meets

end Element
end Page
end PageWidgets
