import PageWidgets.Page.Basic
import PageWidgets.Text.Blank

/-! Snapshots: what the elements of a document look like at one moment, by their places, and what differs between
    two moments. -/

namespace PageWidgets
namespace Page

/-- What an element looks like, without the elements below it. -/
structure Looks where
  tag : String
  attrs : NameMap String
  text : Option String
  checked : Option Bool
  /-- The index and the value that a select has chosen. -/
  choice : Option (Option Nat × String)
  deriving DecidableEq, Repr

/-- What an element looks like. -/
def looks (p : Page) (id : Nat) : Looks :=
  let e := p.element id
  let text := Node.textAmong (p.children id)
  { tag := e.tag
    attrs := .ofList e.attrs
    text := if Text.isBlankText text then none else some text
    checked := if e.isA "input" then some e.checked else none
    choice := if e.isA "select" then some (p.selectedIndex id, p.selectValue id) else none }

/-- The elements of the document with their places. -/
def places (p : Page) : List (String × Nat) := p.tree.toList.flatMap Node.places

/-- What the elements of the document look like, by their places. -/
def snapshot (p : Page) : List (String × Looks) := p.places.map fun (place, id) => (place, p.looks id)

/-- The place of an element, a hyphen when it is not in the document. -/
def placeOf (p : Page) (id : Nat) : String := ((p.places.find? fun e => e.2 = id).map (·.1)).getD "-"

/-- What is new or different at its place. -/
def changes (before after : List (String × Looks)) : List (String × Looks) :=
  after.filter fun (place, looks) => (before.find? fun b => b.1 = place).map (·.2) ≠ some looks

/-- The places that are gone, as texts in ascending order. -/
def gone (before after : List (String × Looks)) : List String :=
  (NameMap.ofList ((before.filter fun b => !after.any fun a => a.1 = b.1).map fun b => (b.1, ()))).entries.map (·.1)

end Page
end PageWidgets
