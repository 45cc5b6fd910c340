import PageWidgets.Page.Event
import PageWidgets.Widget.Log
import PageWidgets.Widget.Overlay
import PageWidgets.Widget.Select

/-! A live page: a page with the listeners on it, the pending timer, the widgets at work, and the log. -/

namespace PageWidgets
namespace Widget

open Consent Page Calendar

/-- What a listener does. Those of a select name it by its index. -/
inductive Handler where
  /-- The document is complete: set the widgets up, and the test hook when the page is tested. -/
  | ready (test : Bool)
  | control (name : String)
  | transitionEnd
  | triggerClick (select : Nat)
  | triggerKey (select : Nat)
  | menuKey (select : Nat)
  | nativeChange (select : Nat)
  | itemClick (select index : Nat)
  | itemHover (select index : Nat)
  | documentPointer (select : Nat)
  | documentKey (select : Nat)
  deriving DecidableEq, Repr

namespace Handler

/-- Does the handler belong to the consent overlay? -/
def ofOverlay : Handler → Bool
  | .control _ | .transitionEnd => true
  | _ => false

/-- Does the handler listen to the whole document for that select? -/
def onDocument (select : Nat) (h : Handler) : Bool := h = .documentPointer select ∨ h = .documentKey select

end Handler

/-- A listener: a passive one cannot keep the browser from what it does by default. -/
structure Listener where
  id : Nat
  place : Target
  type : String
  capture : Bool
  passive : Bool
  once : Bool
  handler : Handler
  deriving DecidableEq, Repr

/-- A page with its widgets at work. -/
structure Live where
  page : Page
  listeners : List Listener
  nextListener : Nat
  /-- When the overlay's teardown is due at the latest. -/
  timer : Option Instant
  overlay : Option Overlay
  selects : List Select
  /-- The test hook is in place. -/
  hooked : Bool
  log : Log
  deriving Repr

namespace Live

/-- A page without widgets. -/
def ofPage (p : Page) : Live := ⟨p, [], 0, none, none, [], false, .silent⟩

instance : Inhabited Live := ⟨ofPage default⟩

/-- Writes a line to the log. -/
def write (l : Live) (level : Level) (part text : String) : Live := { l with log := l.log.write level part text }

/-! ### Listeners -/

/-- Adds a listener. -/
def listen (l : Live) (place : Target) (type : String) (capture passive once : Bool) (h : Handler) : Live :=
  { l with
    listeners := l.listeners ++ [⟨l.nextListener, place, type, capture, passive, once, h⟩]
    nextListener := l.nextListener + 1 }

/-- Adds a passive listener to an element. -/
def listenPassive (l : Live) (type : String) (place : Nat × Handler) : Live :=
  l.listen (.element place.1) type false true false place.2

/-- Adds a listener to an element that may keep the browser from its default. -/
def listenActive (l : Live) (place : Nat) (type : String) (h : Handler) : Live :=
  l.listen (.element place) type false false false h

/-- Removes the listeners whose handlers satisfy `drop`. -/
def unlisten (l : Live) (drop : Handler → Bool) : Live :=
  { l with listeners := l.listeners.filter fun x => !drop x.handler }

/-! ### The consent overlay -/

/-- The part of the program that the lines on the overlay come from. -/
def consentPart : String := "fsqr_web::consent"

/-- Assigns a cookie, where there is a document that has cookies. A refusal is no more than a line in the log. -/
def assignCookie (l : Live) (assignment : String) : Live :=
  if l.page.surroundings.document = .html then
    if l.page.surroundings.cookies then
      { l with page := l.page.withCookie assignment }
    else l.write .debug "fsqr_web::dom" "cookie write ignored: cookies are disabled"
  else l

/-- Keeps a record in the consent cookie. -/
def persist (l : Live) (c : Cookie) (r : Record) : Live :=
  match c.header r l.page.clock with
  | .error .dateOverflow => { l with page := { l.page with overflowed := true } }
  | .ok header => l.assignCookie header

/-- Watches for the end of the overlay's transition, and sets the timer that stands in for it. -/
def armTeardown (l : Live) (o : Overlay) : Live :=
  let l := l.unlisten (· = .transitionEnd)
  { l.listenPassive "transitionend" (o.anchors.overlay, .transitionEnd) with
    timer := some (l.page.now + o.settings.teardownFallbackMs) }

/-- Carries out an effect of the overlay's session. -/
def applyOverlay (l : Live) (e : Effect) : Live :=
  match l.overlay with
  | none => l
  | some o =>
    match e with
    | .persist r => l.persist o.cookie r
    | e =>
      match l.page.perform (o.edits l.page e) with
      | (p, some f) =>
        { l with page := p }.write .warn consentPart
          ("consent overlay update failed: " ++ (Fault.ofPage f).message)
      | (p, none) =>
        let l := { l with page := p }
        if e = .conceal then l.armTeardown o else l

/-- Notes in the log what an effect records. -/
def noteRecord (l : Live) : Effect → Live
  | .persist r => l.write .debug "fsqr_widgets::consent::overlay" ("consent recorded: " ++ r.plain)
  | _ => l

/-- Lets the overlay's session answer a call, and carries out its work. -/
def callOverlay (l : Live) (f : Session → Session × List Effect) : Live :=
  match l.overlay with
  | none => l
  | some o =>
    let (session, effects) := f o.session
    let l := effects.foldl noteRecord { l with overlay := some { o with session } }
    effects.foldl applyOverlay l

/-- The phase of the overlay at work. -/
def phase? (l : Live) : Option Phase := l.overlay.map (·.session.phase)

/-! ### Selects -/

/-- The part of the program that the lines on a select come from. -/
def selectPart : String := "fsqr_web::retention_select::controller"

/-- Listens to the whole document for a select, in place of any such listeners before. -/
def subscribe (l : Live) (k : Nat) : Live :=
  ((l.unlisten (Handler.onDocument k)).listen .document "pointerdown" true true false (.documentPointer k)).listen
    .document "keydown" true true false (.documentKey k)

/-- Carries out an effect of a select's listbox. An announcement is left to `announce`. -/
def applySelect (announce : Live → Nat → Live) (k : Nat) (l : Live) (e : Listbox.Effect) : Live :=
  match l.selects[k]? with
  | none => l
  | some w =>
    match e with
    | .listen => l.subscribe k
    | .unlisten => l.unlisten (Handler.onDocument k)
    | .notify =>
      announce { l with page := { l.page with calls := l.page.calls ++ [.announce "change" w.parts.native] } }
        w.parts.native
    | e =>
      match l.page.perform (w.edits l.page e) with
      | (p, some f) =>
        { l with page := p }.write .warn selectPart
          ("retention select update failed: " ++ (Fault.ofPage f).message)
      | (p, none) => { l with page := p }

/-- The page with the state of a select replaced. -/
def setState (l : Live) (k : Nat) (s : Listbox.State) : Live :=
  { l with selects := l.selects.modify k fun w => { w with state := s } }

/-- Lets a select's listbox answer a call, and carries out its work. -/
def callSelect (announce : Live → Nat → Live) (l : Live) (k : Nat)
    (f : Listbox.State → Listbox.State × List Listbox.Effect) : Live :=
  match l.selects[k]? with
  | none => l
  | some w =>
    let (state, effects) := f w.state
    effects.foldl (applySelect announce k) (l.setState k state)

/-- Lets a select's listbox answer a key: what comes of it, and whether the key was handled. -/
def callSelectKey (announce : Live → Nat → Live) (l : Live) (k : Nat)
    (f : Listbox.State → Listbox.State × Listbox.KeyResponse) : Live × Bool :=
  match l.selects[k]? with
  | none => (l, false)
  | some w =>
    let (state, response) := f w.state
    (response.effects.foldl (applySelect announce k) (l.setState k state), response.handled)

end Live
end Widget
end PageWidgets
