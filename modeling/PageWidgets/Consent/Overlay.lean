import PageWidgets.Consent.Jar
import PageWidgets.Consent.Record
import PageWidgets.Settings

/-! The session of a consent overlay: hidden, visible with one of two views, or on its way out. Every call
    returns the next session and the work that the page has to do, in order. -/

namespace PageWidgets
namespace Consent

/-- A view of the overlay. -/
inductive View where
  | summary
  | settings
  deriving DecidableEq, Repr

namespace View

def all : List View := [.summary, .settings]

def name : View → String
  | .summary => "summary"
  | .settings => "settings"

/-- The view of that name, blanks around it dropped. -/
def ofName? (s : String) : Option View := all.find? fun v => v.name = Text.trimmed s

end View

/-- What a visitor may ask for. -/
inductive Action where
  | customize
  | back
  | accept
  | reject
  | save (choices : NameMap Bool)
  deriving DecidableEq, Repr

namespace Action

/-- The action of a control; saving is no such action, since it needs the choices. -/
def ofControl? (name : String) : Option Action :=
  if name = "customize" then some .customize
  else if name = "back" then some .back
  else if name = "accept" then some .accept
  else if name = "reject" then some .reject
  else none

end Action

/-- How far the overlay is. -/
inductive Phase where
  | hidden
  | visible (view : View)
  /-- No longer shown, but the mark of its last view is still on the page. -/
  | dismissing
  deriving DecidableEq, Repr

/-- Work for the page. -/
inductive Effect where
  /-- Show the overlay and keep the page from scrolling. -/
  | reveal
  /-- Show this view and no other. -/
  | showView (view : View)
  /-- Focus something in the view. -/
  | focusView (view : View)
  /-- Write the cookie. -/
  | persist (record : Record)
  /-- Hide the overlay and let the page scroll. -/
  | conceal
  /-- Remove the mark of the last view. -/
  | clearViewMarker
  deriving DecidableEq, Repr

/-- A session of the overlay. -/
structure Session where
  phase : Phase
  deriving DecidableEq, Repr

namespace Session

/-- A session that has not begun. -/
def fresh : Session := ⟨.hidden⟩

/-- The view that is visible. -/
def view? (s : Session) : Option View :=
  match s.phase with
  | .visible v => some v
  | _ => none

def isVisible (s : Session) : Bool := s.view?.isSome

/-- Shows the overlay on its summary, unless it is shown or on its way out. -/
def show_ (s : Session) : Session × List Effect :=
  match s.phase with
  | .hidden => (⟨.visible .summary⟩, [.reveal, .showView .summary, .focusView .summary])
  | _ => (s, [])

/-- Goes to a view. -/
def switchTo (v : View) : Session × List Effect := (⟨.visible v⟩, [.showView v, .focusView v])

/-- Records the choice and lets the overlay go. -/
def dismiss (r : Record) : Session × List Effect := (⟨.dismissing⟩, [.persist r, .conceal])

/-- Applies an action; only a visible overlay takes any. -/
def apply (s : Session) (a : Action) : Session × List Effect :=
  match s.phase with
  | .visible _ =>
    match a with
    | .customize => switchTo .settings
    | .back => switchTo .summary
    | .accept => dismiss .accepted
    | .reject => dismiss .rejected
    | .save choices => dismiss (.ofChoices choices)
  | _ => (s, [])

/-- The overlay is gone from sight; only the first word of it counts. -/
def finishTeardown (s : Session) : Session × List Effect :=
  match s.phase with
  | .dismissing => (⟨.hidden⟩, [.clearViewMarker])
  | _ => (s, [])

/-- Something that happens to a session. -/
inductive Call where
  | show_
  | apply (a : Action)
  | finishTeardown
  deriving DecidableEq, Repr

/-- Answers a call. -/
def answer (s : Session) : Call → Session × List Effect
  | .show_ => s.show_
  | .apply a => s.apply a
  | .finishTeardown => s.finishTeardown

/-- Answers calls one after the other and collects the work of each. -/
def run (s : Session) : List Call → Session × List (List Effect)
  | [] => (s, [])
  | c :: calls =>
    let (t, effects) := s.answer c
    let (u, rest) := t.run calls
    (u, effects :: rest)

end Session

/-- Is the overlay needed? Any cookie of the name makes it unneeded, whatever its value. -/
def overlayRequired (document : String) (s : ConsentSettings) : Bool := !hasCookie document s.cookieName

end Consent
end PageWidgets
