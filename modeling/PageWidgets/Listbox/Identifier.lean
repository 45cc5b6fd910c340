/-! Identifiers for the parts of a listbox. A menu is named after its native control and six digits of base 36;
    an entry after its menu and its index. -/

namespace PageWidgets
namespace Listbox

/-- A digit of base 36. -/
def digit36 (n : Nat) : Char := Char.ofNat (if n < 10 then 0x30 + n else 0x57 + n)

/-- The last `count` digits of a number in base 36, leading zeros included. -/
def digits36 : Nat → Nat → List Char
  | 0, _ => []
  | count + 1, n => digits36 count (n / 36) ++ [digit36 (n % 36)]

/-- The name that a menu is built on: that of the native control, when it has one, else the fallback. -/
def menuBase (id : Option String) (fallback : String) : String :=
  match id with
  | some id => if id.isEmpty then fallback else id
  | none => fallback

/-- The identifier of a menu; the entropy picks its last six characters. -/
def menuId (id : Option String) (fallback : String) (entropy : Nat) : String :=
  menuBase id fallback ++ "-menu-" ++ String.ofList (digits36 6 entropy)

/-- The identifier of an entry of a menu. -/
def entryId (menu : String) (index : Nat) : String := menu ++ "-option-" ++ toString index

end Listbox
end PageWidgets
