import PageWidgets.Page.Markup
import PageWidgets.Widget.Startup

/-! What a visitor and the browser do to a live page: clicks, keys, choices in the native controls, the passing
    of time, and changes from elsewhere. -/

namespace PageWidgets
namespace Widget

open Consent Page

namespace Live

/-- The page with a checkbox turned over. -/
def flip (l : Live) (id : Nat) : Live :=
  { l with page := l.page.modify id fun e => { e with checked := !e.checked } }

/-- Clicks an element. A control that is disabled takes no click. A checkbox is turned over before anyone hears of
    the click, and back when the default is prevented. -/
def click (l : Live) (id : Nat) : Live × Option Bool :=
  let e := l.page.element id
  if e.isInert then (l, none)
  else
    let event : Event := ⟨"click", .element id, true, true, none⟩
    if e.isCheckbox then
      let (l, prevented) := (l.flip id).dispatch event
      (if prevented then l.flip id else l, some prevented)
    else
      let (l, prevented) := l.dispatch event
      (l, some prevented)

/-- Presses a key. -/
def pressKey (l : Live) (target : Target) (key : String) : Live × Bool :=
  l.dispatch ⟨"keydown", target, true, true, some key⟩

/-- Lets an event happen that is of no special kind. -/
def happen (l : Live) (target : Target) (type : String) (bubbles : Bool) : Live × Bool :=
  l.dispatch ⟨type, target, bubbles, true, none⟩

/-- Chooses an option of a native select, and announces the change. -/
def pick (l : Live) (id : Nat) (index : Option Nat) : Live × Bool :=
  let l := if (l.page.element id).isA "select" then { l with page := l.page.choose id index } else l
  l.dispatch (changeOf id)

/-- Sets a checkbox without a click. -/
def check (l : Live) (id : Nat) (on : Bool) : Live :=
  if (l.page.element id).isA "input" then
    { l with page := l.page.modify id fun e => { e with checked := on } }
  else l

/-- The document is complete. -/
def complete (l : Live) : Live :=
  ({ l with page := { l.page with loading := false } }.dispatch
    ⟨"DOMContentLoaded", .document, true, false, none⟩).1

/-- The timer of the overlay goes off. -/
def fireTimer (l : Live) : Live := { l with timer := none }.callOverlay (·.finishTeardown)

/-- Lets time pass; a timer that falls due goes off at its instant. -/
def advance (l : Live) (ms : Nat) : Live :=
  let stop := l.page.now + ms
  let fired := match l.timer with
    | some due => if due ≤ stop then { l with page := { l.page with now := due } }.fireTimer else l
    | none => l
  { fired with page := { fired.page with now := stop } }

/-- Sets or removes an attribute from elsewhere. -/
def setAttribute (l : Live) (id : Nat) (name : String) (value : Option String) : Live :=
  { l with
    page := l.page.modify id fun e =>
      match value with
      | some v => e.withAttr name v
      | none => e.withoutAttr name }

/-- Applies an action to the overlay at work. -/
def performAction (l : Live) (a : Action) : Live := l.callOverlay (·.apply a)

/-- Closes a select: whether it was open, and whether it is open now. -/
def closeSelect (l : Live) (k : Nat) (focusTrigger : Bool) : Live × Option (Bool × Bool) :=
  match l.selects[k]? with
  | none => (l, none)
  | some w =>
    let after := l.callSelectNow k (·.closeMenu focusTrigger)
    (after, (after.selects[k]?).map fun v => (w.state.isOpen, v.state.isOpen))

end Live
end Widget
end PageWidgets
