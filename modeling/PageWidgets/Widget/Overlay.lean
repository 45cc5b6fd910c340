import PageWidgets.Consent.Cookie
import PageWidgets.Consent.Overlay
import PageWidgets.Page.Edit
import PageWidgets.Widget.Fault

/-! The consent overlay on a page: the elements it works with, and the edits that carry out the work of its
    session. -/

namespace PageWidgets
namespace Widget

open Consent Page

/-- The elements of the page that the overlay works with. -/
structure Anchors where
  overlay : Nat
  controls : List (String × Nat)
  toggles : List (String × Nat)
  views : List (View × Nat)
  summaryFocus : Option Nat
  settingsFocus : Option Nat
  deriving DecidableEq, Repr

namespace Anchors

/-- The first element that the selector selects, when it is an HTML element. -/
def findHtml (p : Page) (root : Nat) (selector : String) : Except Fault (Option Nat) :=
  match p.query root selector with
  | .error f => .error (.ofPage f)
  | .ok found => .ok (found.filter fun id => (p.element id).html)

/-- Every element that the selector selects. -/
def findAll (p : Page) (root : Nat) (selector : String) : Except Fault (List Nat) :=
  match p.queryAll root selector with
  | .error f => .error (.ofPage f)
  | .ok found => .ok found

/-- The controls an overlay may do without. -/
def optionalControls : List String := ["reject", "customize", "back", "save"]

/-- Those of the named controls that the page has. -/
def findControls (p : Page) (root : Nat) (s : ConsentSettings) :
    List String → Except Fault (List (String × Nat))
  | [] => .ok []
  | name :: rest =>
    match findHtml p root (s.actionSelector name) with
    | .error f => .error f
    | .ok found =>
      match findControls p root s rest with
      | .error f => .error f
      | .ok more => .ok (found.toList.map (name, ·) ++ more)

/-- The toggle that an element is: an HTML input with a category that is not blank. -/
def toggle? (p : Page) (s : ConsentSettings) (id : Nat) : Option (String × Nat) :=
  match (p.element id).attr? s.categoryAttr with
  | none => none
  | some name =>
    if (p.element id).isA "input" ∧ !Text.isBlankText name then some (Text.trimmed name, id) else none

/-- The view that an element belongs to. -/
def view? (p : Page) (s : ConsentSettings) (id : Nat) : Option (View × Nat) :=
  match (p.element id).attr? s.viewAttr with
  | none => none
  | some name => (View.ofName? name).map (·, id)

/-- The view whose focus an HTML element may take; without a name of its own it is the summary. -/
def focusView? (p : Page) (s : ConsentSettings) (id : Nat) : Option (View × Nat) :=
  if (p.element id).html then
    some ((((p.element id).attr? s.focusAttr).bind View.ofName?).getD .summary, id)
  else none

/-- The first element of a view. -/
def firstOf (v : View) (l : List (View × Nat)) : Option Nat := (l.find? fun e => e.1 = v).map (·.2)

/-- Finds the elements that an overlay works with; nothing without a control to accept. -/
def collect (p : Page) (overlay : Nat) (s : ConsentSettings) : Except Fault (Option Anchors) :=
  if !(p.element overlay).html then .error (.wrongElement "HTMLElement")
  else
    match findHtml p overlay (s.actionSelector "accept") with
    | .error f => .error f
    | .ok none => .ok none
    | .ok (some accept) => do
      let controls ← findControls p overlay s optionalControls
      let toggles ← findAll p overlay s.categorySelector
      let views ← findAll p overlay s.viewSelector
      let targets ← findAll p overlay s.focusSelector
      let focus := targets.filterMap (focusView? p s)
      .ok (some
        { overlay
          controls := ("accept", accept) :: controls
          toggles := toggles.filterMap (toggle? p s)
          views := views.filterMap (view? p s)
          summaryFocus := firstOf .summary focus
          settingsFocus := firstOf .settings focus })

/-- Where the focus goes when a view is shown. -/
def focusTarget (a : Anchors) : View → Option Nat
  | .summary => a.summaryFocus
  | .settings => a.settingsFocus.or (a.toggles.head?.map (·.2))

/-- What the toggles say now. -/
def choices (a : Anchors) (p : Page) : NameMap Bool :=
  .ofList (a.toggles.map fun (name, id) => (name, (p.element id).checked))

end Anchors

/-- A consent overlay at work. -/
structure Overlay where
  anchors : Anchors
  settings : ConsentSettings
  session : Session
  deriving DecidableEq, Repr

namespace Overlay

/-- The cookie that keeps the choice. -/
def cookie (o : Overlay) : Cookie := .ofSettings o.settings

/-- The edits that show the elements of one view and hide those of every other. -/
def viewEdits (target : View) : List (View × Nat) → List Edit
  | [] => []
  | (v, id) :: rest =>
    (if v = target then [.removeAttr id "hidden", .setAttr id "aria-hidden" "false"]
      else [.setAttr id "hidden" "", .setAttr id "aria-hidden" "true"]) ++ viewEdits target rest

/-- The edits that carry out an effect. -/
def edits (o : Overlay) (p : Page) : Effect → List Edit
  | .reveal =>
    [.addClass o.anchors.overlay o.settings.visibleClass, .setAttr o.anchors.overlay "aria-hidden" "false"]
      ++ p.body?.toList.map fun body => .setStyle body "overflow" "hidden"
  | .showView v =>
    viewEdits v o.anchors.views ++ [.setAttr o.anchors.overlay o.settings.activeViewAttr v.name]
  | .focusView v => (o.anchors.focusTarget v).toList.map .focus
  | .persist _ => []
  | .conceal =>
    [.removeClass o.anchors.overlay o.settings.visibleClass, .setAttr o.anchors.overlay "aria-hidden" "true"]
      ++ p.body?.toList.map fun body => .removeStyle body "overflow"
  | .clearViewMarker => [.removeAttr o.anchors.overlay o.settings.activeViewAttr]

end Overlay
end Widget
end PageWidgets
