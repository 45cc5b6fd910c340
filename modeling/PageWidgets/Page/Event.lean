import PageWidgets.Page.Basic

/-! Events and the way they take: from the document down to the target's parent, to the target, and, for an event
    that bubbles, up again. -/

namespace PageWidgets
namespace Page

/-- Where an event happens, and where one listens for it. -/
inductive Target where
  | document
  | element (id : Nat)
  deriving DecidableEq, Repr

/-- Something that happens. Only an event of the keyboard names a key. -/
structure Event where
  type : String
  target : Target
  bubbles : Bool
  cancelable : Bool
  key : Option String := none
  deriving DecidableEq, Repr

/-- A stop on the way of an event: a place, and whether listeners for the way down are called there. -/
structure Stop where
  place : Target
  capture : Bool
  deriving DecidableEq, Repr

/-- The places from the outermost down to the target. -/
def route (p : Page) : Target → List Target
  | .document => [.document]
  | .element id =>
    let way := (p.path id).map Target.element
    if p.inDocument id then .document :: way else way

/-- The stops of an event in order. -/
def stops (p : Page) (e : Event) : List Stop :=
  let above := (p.route e.target).dropLast
  above.map (⟨·, true⟩) ++ [⟨e.target, true⟩, ⟨e.target, false⟩]
    ++ (if e.bubbles then above.reverse.map (⟨·, false⟩) else [])

/-- Does the event happen inside the element? -/
def within (p : Page) (e : Event) (container : Nat) : Bool :=
  match e.target with
  | .document => false
  | .element id => p.contains container id

end Page
end PageWidgets
