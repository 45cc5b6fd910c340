/-! Keys that a listbox knows, by the names that browsers report for them, old names included. -/

namespace PageWidgets
namespace Listbox

/-- A key, as far as a listbox tells keys apart. -/
inductive Key where
  | arrowDown
  | arrowUp
  | home
  | «end»
  | enter
  | space
  | escape
  | tab
  | other
  deriving DecidableEq, Repr

namespace Key

/-- The key that a browser reports by this name. -/
def ofName (name : String) : Key :=
  if name = "ArrowDown" ∨ name = "Down" then .arrowDown
  else if name = "ArrowUp" ∨ name = "Up" then .arrowUp
  else if name = "Home" then .home
  else if name = "End" then .end
  else if name = "Enter" then .enter
  else if name = " " ∨ name = "Spacebar" then .space
  else if name = "Escape" ∨ name = "Esc" then .escape
  else if name = "Tab" then .tab
  else .other

/-- What a key is called. -/
def label : Key → String
  | .arrowDown => "ArrowDown"
  | .arrowUp => "ArrowUp"
  | .home => "Home"
  | .end => "End"
  | .enter => "Enter"
  | .space => "Space"
  | .escape => "Escape"
  | .tab => "Tab"
  | .other => "Other"

end Key
end Listbox
end PageWidgets
