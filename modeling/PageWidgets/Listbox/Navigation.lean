import PageWidgets.Listbox.Entry

/-! Moving among the enabled entries of a list, which is taken as a circle. -/

namespace PageWidgets
namespace Listbox

inductive Direction where
  | forward
  | backward
  deriving DecidableEq, Repr

/-- The index `k` places from `start` on a circle of `n`. -/
def circular (n start : Nat) (d : Direction) (k : Nat) : Nat :=
  match d with
  | .forward => (start + k) % n
  | .backward => (start + n - k % n) % n

/-- The nearest enabled entry in that direction; the entry at `start` itself comes last. -/
def stepEnabled (entries : List Entry) (start : Nat) (d : Direction) : Option Nat :=
  let n := entries.length
  if n = 0 then none
  else ((List.range n).map fun k => circular n (start % n) d (k + 1)).find? (enabledAt entries)

/-- The first enabled entry. -/
def firstEnabled (entries : List Entry) : Option Nat :=
  (List.range entries.length).find? (enabledAt entries)

/-- The last enabled entry. -/
def lastEnabled (entries : List Entry) : Option Nat :=
  (List.range entries.length).reverse.find? (enabledAt entries)

/-- Is the entry at that index enabled and chosen from the start? -/
def chosenAt (entries : List Entry) (i : Nat) : Bool :=
  match entries[i]? with
  | some e => e.selected && e.enabled
  | none => false

/-- The index to start with: the first chosen enabled entry, else the first enabled one, else zero. -/
def initialIndex (entries : List Entry) : Nat :=
  (((List.range entries.length).find? (chosenAt entries)).or (firstEnabled entries)).getD 0

end Listbox
end PageWidgets
