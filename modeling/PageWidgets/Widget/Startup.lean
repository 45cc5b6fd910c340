import PageWidgets.Text.Part
import PageWidgets.Widget.Account
import PageWidgets.Widget.Deliver

/-! Setting the widgets up on a page: the consent overlay when it is needed, every marked select, and the hook by
    which tests look at both. -/

namespace PageWidgets
namespace Widget

open Consent Page

namespace Live

/-! ### The consent overlay -/

/-- Shows an overlay on its anchors, in place of the one before. -/
def startOverlay (l : Live) (a : Anchors) (s : ConsentSettings) : Live :=
  let l := { l.unlisten Handler.ofOverlay with timer := none, overlay := some ⟨a, s, .fresh⟩ }
  let l := a.controls.foldl (fun l c => l.listenPassive "click" (c.2, .control c.1)) l
  l.callOverlay (·.show_)

/-- Sets the consent overlay up, and tells whether it did: the page must have the overlay's element and a control
    to accept, and no consent cookie yet. -/
def initConsent (l : Live) (s : ConsentSettings) : Live × Bool :=
  if !l.page.hasDocument then (l, false)
  else
    match l.page.byId? s.overlayId with
    | none => (l.write .debug consentPart ("no #" ++ s.overlayId ++ " on this page"), false)
    | some overlay =>
      if !overlayRequired l.page.cookies s then
        (l.write .debug consentPart "consent cookie present; overlay stays hidden", false)
      else
        match Anchors.collect l.page overlay s with
        | .error f => (l.write .warn consentPart ("consent overlay skipped: " ++ f.message), false)
        | .ok none => (l.write .debug consentPart "consent overlay has no accept control", false)
        | .ok (some a) => (l.startOverlay a s, true)

/-! ### Selects -/

/-- The part of the program that the lines on setting up selects come from. -/
def enhancePart : String := "fsqr_web::retention_select"

/-- Listens to an item of a select. -/
def bindItem (k : Nat) (l : Live) (item : Nat × Nat) : Live :=
  (l.listenActive item.1 "click" (.itemClick k item.2)).listenActive item.1 "mouseenter" (.itemHover k item.2)

/-- Listens to the parts of a select. -/
def bind (l : Live) (k : Nat) (parts : Parts) : Live :=
  let l := l.listenActive parts.trigger "click" (.triggerClick k)
  let l := l.listenActive parts.trigger "keydown" (.triggerKey k)
  let l := l.listenActive parts.menu "keydown" (.menuKey k)
  let l := l.listenActive parts.native "change" (.nativeChange k)
  parts.items.zipIdx.foldl (bindItem k) l

/-- Puts a select to work on its parts. -/
def startSelect (l : Live) (parts : Parts) (s : SelectSettings) (entries : List Listbox.Entry) : Live :=
  let k := l.selects.length
  let state := Listbox.State.ofEntries entries
  let l := { l with selects := l.selects ++ [⟨parts, s, state⟩] }
  let effects := state.initialEffects (l.page.selectedIndex parts.native)
  (effects.foldl (applySelect announceChange k) l).bind k parts

/-- Enhances a wrapper: the index of its select, or nothing when it is enhanced already, has no native select, or
    one without options. -/
def enhance (l : Live) (wrapper : Nat) (s : SelectSettings) : Live × Except Fault (Option Nat) :=
  if (l.page.element wrapper).attr? s.enhancedAttr = some "true" then
    (l.write .debug enhancePart "retention select already enhanced", .ok none)
  else
    match l.page.query wrapper "select" with
    | .error f => (l, .error (.ofPage f))
    | .ok found =>
      match found.filter fun id => (l.page.element id).isA "select" with
      | none => (l.write .debug enhancePart "retention select wrapper has no <select>", .ok none)
      | some native =>
        let entries := entriesOf l.page native
        if entries.isEmpty then
          (l.write .debug enhancePart
            ("retention select `" ++ (l.page.element native).identifier ++ "` has no options"), .ok none)
        else if !l.page.hasDocument then (l, .ok none)
        else
          match render l.page s wrapper native entries with
          | (.error f, p) => ({ l with page := p }, .error f)
          | (.ok parts, p) => ({ l with page := p }.startSelect parts s entries, .ok (some l.selects.length))

/-- Enhances wrappers one after the other, and counts those that were enhanced. -/
def enhanceAll (s : SelectSettings) : Live → List Nat → Live × Nat
  | l, [] => (l, 0)
  | l, wrapper :: rest =>
    match l.enhance wrapper s with
    | (l, .ok (some _)) => let (l, n) := enhanceAll s l rest; (l, n + 1)
    | (l, .ok none) => enhanceAll s l rest
    | (l, .error f) =>
      enhanceAll s (l.write .warn enhancePart ("retention select skipped: " ++ f.message)) rest

/-- Enhances every marked wrapper below the root of the document, and counts those that were enhanced. -/
def initSelects (l : Live) (s : SelectSettings) : Live × Nat :=
  match (if l.page.hasDocument then l.page.root? else none) with
  | none => (l, 0)
  | some root =>
    match l.page.queryAll root s.wrapperSelector with
    | .error f => (l.write .warn enhancePart ("retention select scan failed: " ++ f.message), 0)
    | .ok wrappers => enhanceAll s l wrappers

/-! ### The whole program -/

/-- Is the page opened for a test? -/
def testMode (l : Live) : Bool :=
  l.page.surroundings.window
    && (match l.page.surroundings.search with
        | some search => Text.hasPart "test=1".toList search.toList
        | none => false)

/-- Sets both widgets up with the default settings, and tells these settings. -/
def init (l : Live) : Live × Settings :=
  let s : Settings := {}
  let (l, shown) := l.initConsent s.consent
  let (l, selects) := l.initSelects s.select
  (l.write .info "fsqr_web"
    ("widgets ready: consent overlay " ++ (if shown then "shown" else "skipped") ++ ", " ++ toString selects
      ++ " retention select(s) enhanced"), s)

/-- Puts the test hook on the window of a page that is tested. -/
def install (l : Live) : Live :=
  if !l.testMode then l
  else if l.page.surroundings.frozen then
    l.write .warn "fsqr_web::test_bridge::wasm" "test bridge could not be installed"
  else
    { l with hooked := true }.write .info "fsqr_web::test_bridge::wasm"
      "test bridge exposed as window.__fsqrTest"

/-- Sets the widgets up, and the test hook when the page is tested. -/
def whenReady (test : Bool) (l : Live) : Live :=
  let (l, _) := l.init
  if test then l.install else l

/-- Sets the level of the log. -/
def setLevel (l : Live) (level : Level) : Live := { l with log := { l.log with level } }

/-- Starts the program: now, or as soon as the document is complete. -/
def start (l : Live) : Live :=
  let test := l.testMode
  let l := l.setLevel (if test then .debug else .info)
  if !l.page.hasDocument then l
  else if l.page.loading then l.listen .document "DOMContentLoaded" false true true (.ready test)
  else whenReady test l

/-- Delivers an event that comes from the visitor or the browser. -/
def dispatch (l : Live) (e : Event) : Live × Bool := l.deliver (handle announceChange whenReady) e

/-! ### What tests see -/

open Json

/-- What a page tells about a select. -/
def selectAccount (p : Page) (w : Select) : SelectAccount :=
  { id := (p.element w.parts.native).identifier
    isOpen := w.state.isOpen
    active := w.state.active
    selected := w.state.selected
    value := w.state.selectedEntry?.map (·.value)
    listening := w.state.listening }

/-- The JSON value of what a page tells about a select. -/
def selectValue (p : Page) (w : Select) : Value := (selectAccount p w).toValue

/-- What a page tells about consent. -/
def consentState (l : Live) : State := .ofDocument l.page.cookies ({} : ConsentSettings).cookieName l.phase?

/-- What a page tells about both widgets. -/
def account (l : Live) : Account := ⟨l.consentState, l.selects.map (selectAccount l.page)⟩

/-- The JSON value of what a page tells about both widgets. -/
def report (l : Live) : Value := l.account.toValue

/-- A function of the test hook. -/
inductive HookCall where
  | state
  | reset
  | enhance
  deriving DecidableEq, Repr

namespace HookCall

/-- The function of that name. -/
def ofName? (s : String) : Option HookCall :=
  if s = "state" then some .state
  else if s = "reset" then some .reset
  else if s = "enhance" then some .enhance
  else none

end HookCall

/-- Calls a function of the test hook: the state of the widgets, the deletion of the consent cookie, or the
    number of newly enhanced selects. -/
def callHook (l : Live) : HookCall → Live × Value
  | .state => (l, l.report)
  | .reset =>
    (if l.page.hasDocument then l.assignCookie (Cookie.ofSettings {}).deletion else l, .null)
  | .enhance => let (l, n) := l.initSelects {}; (l, .nat n)

end Live
end Widget
end PageWidgets
