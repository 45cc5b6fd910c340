import PageWidgets.Text.Blank
import PageWidgets.Text.Fold
import PageWidgets.Text.Split

/-! The scenarios: their keys, names and descriptions, and the lists of them that a user writes. -/

namespace PageWidgets
namespace Tester

/-- A scenario. -/
inductive Scenario where
  | cookieIdempotence
  | customizeRoundtrip
  | viewTransitions
  | initialFallback
  | keyboardWrap
  | commitChange
  | doubleEnhance
  | outsideClose
  deriving DecidableEq, Repr

namespace Scenario

/-- The scenarios in the order they are listed and run. -/
def all : List Scenario :=
  [.cookieIdempotence, .customizeRoundtrip, .viewTransitions, .initialFallback, .keyboardWrap, .commitChange,
   .doubleEnhance, .outsideClose]

/-- The key of a scenario. -/
def key : Scenario → String
  | .cookieIdempotence => "cookie-idempotence"
  | .customizeRoundtrip => "customize-roundtrip"
  | .viewTransitions => "view-transitions"
  | .initialFallback => "initial-fallback"
  | .keyboardWrap => "keyboard-wrap"
  | .commitChange => "commit-change"
  | .doubleEnhance => "double-enhance"
  | .outsideClose => "outside-close"

/-- A shorter key, where there is one. -/
def shortKey? : Scenario → Option String
  | .cookieIdempotence => some "cookie"
  | .customizeRoundtrip => some "customize"
  | .viewTransitions => some "views"
  | .initialFallback => some "fallback"
  | .keyboardWrap => some "keyboard"
  | .commitChange => some "commit"
  | .doubleEnhance => none
  | .outsideClose => some "outside"

/-- The name of a scenario in a report. -/
def name : Scenario → String
  | .cookieIdempotence => "Cookie Idempotence"
  | .customizeRoundtrip => "Customize Roundtrip"
  | .viewTransitions => "View Transitions"
  | .initialFallback => "Initial Fallback"
  | .keyboardWrap => "Keyboard Wrap"
  | .commitChange => "Commit Change"
  | .doubleEnhance => "Double Enhance"
  | .outsideClose => "Outside Close"

/-- What a scenario checks. -/
def description : Scenario → String
  | .cookieIdempotence => "Any stored choice suppresses the overlay"
  | .customizeRoundtrip => "Saved category choices round-trip through the cookie"
  | .viewTransitions => "Customize and back swap views; dismissal clears the marker"
  | .initialFallback => "A disabled initial selection falls forward to an enabled option"
  | .keyboardWrap => "Arrow keys skip disabled options and wrap"
  | .commitChange => "Committing fires exactly one change and closes"
  | .doubleEnhance => "Enhancing a wrapper twice is a no-op"
  | .outsideClose => "Pointer-down outside closes without committing"

/-- All keys of a scenario. -/
def keys (s : Scenario) : List String := s.key :: s.shortKey?.toList

/-- The scenario of that key, in any case. -/
def ofName? (name : String) : Option Scenario := all.find? fun s => s.keys.contains (Text.fold name)

/-- A line of the listing: the key in a column of 22, and the description. -/
def listingLine (s : Scenario) : String :=
  "  " ++ s.key ++ String.ofList (List.replicate (22 - s.key.length) ' ') ++ " - " ++ s.description

/-- The listing of all scenarios. -/
def listing : List String := "Available scenarios:" :: all.map listingLine

end Scenario

/-! ### Lists of names -/

/-- The parts between commas, blanks around them dropped, and empty ones left out. -/
def splitList (s : String) : List String :=
  ((Text.split ',' s.toList).map fun part => String.ofList (Text.trim part)).filter fun part => !part.isEmpty

/-- The word that stands for every scenario. -/
def everything : String := "all"

/-- The names that a list asks for. The word for every scenario gives way to the keys that the list does not
    spell itself. -/
def expandNames (s : String) : List String :=
  let names := splitList s
  if names.contains everything then
    let others := names.filter (· ≠ everything)
    others ++ (Scenario.all.map Scenario.key).filter fun key => !others.contains key
  else names

end Tester
end PageWidgets
