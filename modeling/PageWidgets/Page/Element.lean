import PageWidgets.Text.Blank
import PageWidgets.Text.Fold
import PageWidgets.Text.Split

/-! Elements: a tag, attributes, and what a visitor has done to a control. Class names and style declarations are
    read from their attributes and written back to them. -/

namespace PageWidgets
namespace Page

/-- What a page throws at a program. -/
inductive Fault where
  | invalidSelector (selector : String)
  | invalidName (name : String)
  | emptyToken
  | blankInToken (token : String)
  deriving DecidableEq, Repr

namespace Fault

def message : Fault → String
  | .invalidSelector selector => "'" ++ selector ++ "' is not a valid selector"
  | .invalidName name => "'" ++ name ++ "' is not a valid attribute name"
  | .emptyToken => "the token must not be empty"
  | .blankInToken token => "the token '" ++ token ++ "' contains whitespace"

end Fault

/-- A blank between class names. -/
def isSpace (c : Char) : Bool := c == ' ' || c == '\t' || c == '\n' || c == '\x0c' || c == '\r'

/-- An element: `html` elements have lower-case names and the behaviour of their tag. A control is `checked`, an
    option `chosen`, when it was last made so. -/
structure Element where
  tag : String
  html : Bool
  attrs : List (String × String)
  checked : Bool := false
  chosen : Bool := false
  deriving DecidableEq, Repr

instance : Inhabited Element := ⟨⟨"", false, [], false, false⟩⟩

namespace Element

/-- Is it the HTML element of that tag? -/
def isA (e : Element) (tag : String) : Bool := e.html && e.tag == tag

/-- The name under which the element keeps an attribute. -/
def key (e : Element) (name : String) : String := if e.html then Text.lowerAsciiText name else name

/-- The value of an attribute. -/
def attr? (e : Element) (name : String) : Option String :=
  (e.attrs.find? fun a => a.1 = e.key name).map (·.2)

def hasAttr (e : Element) (name : String) : Bool := (e.attr? name).isSome

/-- A list of named texts with one of them set, at its place or at the end. -/
def setIn (name value : String) : List (String × String) → List (String × String)
  | [] => [(name, value)]
  | (n, v) :: rest => if n = name then (name, value) :: rest else (n, v) :: setIn name value rest

/-- The element with an attribute set. -/
def withAttr (e : Element) (name value : String) : Element :=
  { e with attrs := setIn (e.key name) value e.attrs }

/-- The element without an attribute. -/
def withoutAttr (e : Element) (name : String) : Element :=
  { e with attrs := e.attrs.filter fun a => a.1 ≠ e.key name }

/-- May an attribute have that name? -/
def validName (name : String) : Bool :=
  !name.isEmpty && !name.toList.any fun c => isSpace c || c == '/' || c == '>' || c == '=' || c.toNat == 0

/-- Sets an attribute. -/
def setAttr (e : Element) (name value : String) : Except Fault Element :=
  if validName name then .ok (e.withAttr name value) else .error (.invalidName name)

/-- The identifier, empty when there is none. -/
def identifier (e : Element) : String := (e.attr? "id").getD ""

/-! ### Class names -/

/-- The words between blanks. -/
def words : List Char → List (List Char)
  | [] => []
  | c :: rest =>
    if isSpace c then words rest
    else
      match rest with
      | [] => [[c]]
      | d :: _ =>
        if isSpace d then [c] :: words rest
        else
          match words rest with
          | w :: ws => (c :: w) :: ws
          | [] => [[c]]

/-- The distinct class names in order. -/
def classes (e : Element) : List String :=
  ((words ((e.attr? "class").getD "").toList).map String.ofList).foldl
    (fun seen w => if seen.contains w then seen else seen ++ [w]) []

def hasClass (e : Element) (name : String) : Bool := e.classes.contains name

/-- Refuses a class name that is empty or holds a blank. -/
def checkToken (token : String) : Except Fault Unit :=
  if token.isEmpty then .error .emptyToken
  else if token.toList.any isSpace then .error (.blankInToken token)
  else .ok ()

/-- The element with those class names; none are not written where there is no attribute for them. -/
def withClasses (e : Element) (names : List String) : Element :=
  if names.isEmpty && !e.hasAttr "class" then e else e.withAttr "class" (Text.join " " names)

/-- Adds a class name. -/
def addClass (e : Element) (token : String) : Except Fault Element :=
  match checkToken token with
  | .error f => .error f
  | .ok () => .ok (e.withClasses (if e.hasClass token then e.classes else e.classes ++ [token]))

/-- Removes a class name. -/
def removeClass (e : Element) (token : String) : Except Fault Element :=
  match checkToken token with
  | .error f => .error f
  | .ok () => .ok (e.withClasses (e.classes.filter (· ≠ token)))

/-! ### Style -/

/-- The declarations of the style attribute; a piece without a colon is none. -/
def style (e : Element) : List (String × String) :=
  (Text.split ';' ((e.attr? "style").getD "").toList).filterMap fun piece =>
    (Text.splitOnce ':' piece).map fun (name, value) =>
      (String.ofList (Text.trim name), String.ofList (Text.trim value))

/-- The element with those declarations. -/
def withStyle (e : Element) (declarations : List (String × String)) : Element :=
  e.withAttr "style" (Text.join " " (declarations.map fun d => d.1 ++ ": " ++ d.2 ++ ";"))

/-- The element with a style property set. -/
def setStyle (e : Element) (name value : String) : Element := e.withStyle (setIn name value e.style)

/-- The element without a style property. -/
def removeStyle (e : Element) (name : String) : Element :=
  if e.style.any fun d => d.1 = name then e.withStyle (e.style.filter fun d => d.1 ≠ name) else e

/-! ### Controls -/

/-- A whole number with an optional sign. -/
def isInteger (s : String) : Bool :=
  let digits := match s.toList with
    | c :: rest => if c = '-' ∨ c = '+' then rest else c :: rest
    | [] => []
  !digits.isEmpty && digits.all Char.isDigit

/-- A control that a visitor cannot use. -/
def isInert (e : Element) : Bool :=
  (e.isA "button" || e.isA "input" || e.isA "select") && e.hasAttr "disabled"

/-- May the element be focused, as far as itself is concerned? -/
def isFocusable (e : Element) : Bool :=
  !e.hasAttr "disabled"
    && (e.isA "button" || e.isA "input" || e.isA "select" || e.isA "textarea"
      || (match e.attr? "tabindex" with
          | some s => isInteger s
          | none => false))

def isCheckbox (e : Element) : Bool := e.isA "input" && e.attr? "type" == some "checkbox"

end Element
end Page
end PageWidgets
