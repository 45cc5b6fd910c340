import PageWidgets.Tester.Check
import PageWidgets.Tester.Hook

/-! The scenarios in a browser: what each one does with a page, and what it expects to find. -/

namespace PageWidgets
namespace Tester
namespace Script

open Step

/-! ### Parts of the page -/

def overlay : String := "#cookieConsent"

def viewMarker : String := "data-active-view"

/-- The control of that name. -/
def control (name : String) : String := overlay ++ " [data-cookie-consent=\"" ++ name ++ "\"]"

/-- The view of that name. -/
def view (name : String) : String := overlay ++ " [data-cookie-consent-view=\"" ++ name ++ "\"]"

/-- The input of that category. -/
def category (name : String) : String := overlay ++ " [data-cookie-category=\"" ++ name ++ "\"]"

def selectId : String := "retention"

def trigger : String := "[data-retention-select] .retention-select-trigger"

def menu : String := "[data-retention-select] .retention-select-menu"

def outside : String := "h1"

/-- The item of that index in the menu. -/
def menuItem (i : Nat) : String := menu ++ " [role=\"option\"]:nth-child(" ++ toString (i + 1) ++ ")"

def probeId : String := "fallbackProbe"

/-- A select whose first choice is disabled. -/
def probeMarkup : String :=
  "\n<div class=\"retention-select\" data-retention-select>\n"
    ++ "  <select id=\"fallbackProbe\">\n"
    ++ "    <option value=\"a\" disabled selected>A</option>\n"
    ++ "    <option value=\"b\">B</option>\n"
    ++ "    <option value=\"c\">C</option>\n"
    ++ "  </select>\n"
    ++ "</div>\n"

/-! ### Consent -/

def shownRecord (r : Option Consent.Record) : String := Text.shownOption Consent.Record.shown r

/-- Accepting hides the overlay for good. -/
def cookieIdempotence (address : String) : Step Unit := do
  freshPage address
  ensure (← hasClass overlay "is-visible") "overlay should be visible without a cookie"
  click (control "accept")
  let s ← pageState
  ensure (s.consent.record = some .accepted) ("expected an accepted record, got " ++ shownRecord s.consent.record)
  note "🍪 accepted; reloading"
  reload address
  ensure (!(← hasClass overlay "is-visible")) "overlay reappeared although consent was stored"
  let s ← pageState
  ensure (s.consent.present && s.consent.error.isNone)
    ("stored cookie should still decode after reload: " ++ s.consent.shown)

/-- Saved choices come back from the cookie. -/
def customizeRoundtrip (address : String) : Step Unit := do
  freshPage address
  click (control "customize")
  click (category "analytics")
  click (control "save")
  let s ← pageState
  ensure (s.consent.record = some Check.expectedRecord)
    ("unexpected stored record " ++ shownRecord s.consent.record)

/-- Views change with the controls, and the marker goes with the overlay. -/
def viewTransitions (address : String) : Step Unit := do
  freshPage address
  click (control "customize")
  ensure ((← attributeOf overlay viewMarker) = some "settings") "settings view should be marked active"
  ensure (← attributeOf (view "summary") "hidden").isSome "summary should be hidden while settings show"
  click (control "back")
  ensure ((← attributeOf overlay viewMarker) = some "summary") "summary view should be marked active after back"
  ensure (← attributeOf (view "settings") "hidden").isSome "settings should be hidden after back"
  click (control "reject")
  ensure (← attributeOf overlay viewMarker).isNone "view marker should be cleared after the fade-out"

/-! ### Selects -/

/-- A disabled first choice gives way to the next enabled one. -/
def initialFallback (address : String) : Step Unit := do
  freshPage address
  inject probeMarkup
  let enhanced ← enhance
  ensure (enhanced = 1) ("expected one new select, enhanced " ++ toString enhanced)
  let probe ← selectState probeId
  ensure (probe.selected = some 1 && probe.value = some "b") ("expected B selected, got " ++ probe.shown)
  let expanded ← attributeOf "#fallbackProbe ~ .retention-select-trigger" "aria-expanded"
  ensure (expanded = some "false") "probe trigger should start collapsed"

/-- Presses keys in the menu and collects the entries that are highlighted. -/
def highlightPath : List String → Step (List Nat)
  | [] => pure []
  | key :: keys => do
    press menu key
    let s ← selectState selectId
    let rest ← highlightPath keys
    pure (s.active :: rest)

/-- The keys move the highlight around, and Escape closes without choosing. -/
def keyboardWrap (address : String) : Step Unit := do
  freshPage address
  press trigger "ArrowDown"
  let s ← selectState selectId
  ensure s.isOpen "ArrowDown on the trigger should open the menu"
  ensure (s.active = 2) ("expected 30 days highlighted, got " ++ toString s.active)
  let path ← highlightPath ["ArrowDown", "ArrowUp", "Home", "End"]
  ensure (path = [0, 2, 0, 2]) ("unexpected highlight path " ++ Text.shownList toString path)
  note ("⌨️  highlight path " ++ Text.shownList toString path)
  press menu "Escape"
  let s ← selectState selectId
  ensure (!s.isOpen) "Escape should close the menu"
  ensure (s.selected = some 1) "Escape must not commit"

/-- Choosing an entry announces one change and closes the menu. -/
def commitChange (address : String) : Step Unit := do
  freshPage address
  watchChanges ("#" ++ selectId)
  click trigger
  click (menuItem 2)
  let changes ← changeCount
  ensure (changes = 1) ("expected exactly one change event, saw " ++ toString changes)
  let s ← selectState selectId
  ensure (!s.isOpen) "clicking an option should close the menu"
  ensure (s.value = some "30") ("expected 30 committed, got " ++ Text.shownOption Text.quoted s.value)

/-- Enhancing once more does nothing. -/
def doubleEnhance (address : String) : Step Unit := do
  freshPage address
  let before ← count ".retention-select-trigger"
  let enhanced ← enhance
  ensure (enhanced = 0) ("re-running enhancement enhanced " ++ toString enhanced ++ " wrappers")
  let after ← count ".retention-select-trigger"
  ensure (before = after) ("trigger count changed from " ++ toString before ++ " to " ++ toString after)

/-- A pointer outside closes the menu without choosing. -/
def outsideClose (address : String) : Step Unit := do
  freshPage address
  click trigger
  let s ← selectState selectId
  ensure (s.isOpen && s.listening) "menu should be open and listening"
  pointerDown outside
  let s ← selectState selectId
  ensure (!s.isOpen) "pointer-down outside should close the menu"
  ensure (!s.listening) "document listeners should be released"
  ensure (s.selected = some 1) "outside close must not commit"

end Script

/-- What a scenario does in a browser with the page at an address. -/
def Scenario.script (s : Scenario) (address : String) : Step Unit :=
  match s with
  | .cookieIdempotence => Script.cookieIdempotence address
  | .customizeRoundtrip => Script.customizeRoundtrip address
  | .viewTransitions => Script.viewTransitions address
  | .initialFallback => Script.initialFallback address
  | .keyboardWrap => Script.keyboardWrap address
  | .commitChange => Script.commitChange address
  | .doubleEnhance => Script.doubleEnhance address
  | .outsideClose => Script.outsideClose address

end Tester
end PageWidgets
