import PageWidgets.Text.Quoted
import PageWidgets.Text.Split

/-! The shown form of values in messages. A missing value is `None` and one that is there stands in `Some`;
    lists stand between brackets, maps and records between braces. -/

namespace PageWidgets
namespace Text

/-- The shown form of a truth value. -/
def shownBool (b : Bool) : String := if b then "true" else "false"

/-- The shown form of a value that may be missing. -/
def shownOption {α : Type} (shown : α → String) : Option α → String
  | none => "None"
  | some a => "Some(" ++ shown a ++ ")"

/-- The shown form of a list. -/
def shownList {α : Type} (shown : α → String) (l : List α) : String := "[" ++ join ", " (l.map shown) ++ "]"

/-- The shown form of a map from names. -/
def shownMap {α : Type} (shown : α → String) (entries : List (String × α)) : String :=
  "\x7b" ++ join ", " (entries.map fun e => quoted e.1 ++ ": " ++ shown e.2) ++ "\x7d"

/-- The shown form of a record: its name, and its fields with their shown values. -/
def shownRecord (name : String) (fields : List (String × String)) : String :=
  name ++ " \x7b " ++ join ", " (fields.map fun f => f.1 ++ ": " ++ f.2) ++ " \x7d"

end Text
end PageWidgets
