import PageWidgets.Consent.Visit
import PageWidgets.Listbox.State
import PageWidgets.Tester.PageState
import PageWidgets.Tester.Scenario

/-! Checks of scenarios without a browser, on overlay sessions, cookies and listboxes. A check is a list of
    expectations, and it passes when all of them hold. -/

namespace PageWidgets

/-! ### Shown forms -/

namespace Consent

/-- The shown form of a view. -/
def View.shown : View → String
  | .summary => "Summary"
  | .settings => "Settings"

/-- The shown form of an action. -/
def Action.shown : Action → String
  | .customize => "Customize"
  | .back => "Back"
  | .accept => "Accept"
  | .reject => "Reject"
  | .save choices => "Save(" ++ Text.shownMap Text.shownBool choices.entries ++ ")"

/-- The shown form of work of the overlay. -/
def Effect.shown : Effect → String
  | .reveal => "Reveal"
  | .showView view => "ShowView(" ++ view.shown ++ ")"
  | .focusView view => "FocusView(" ++ view.shown ++ ")"
  | .persist record => "Persist(" ++ record.shown ++ ")"
  | .conceal => "Conceal"
  | .clearViewMarker => "ClearViewMarker"

end Consent

/-- The shown form of work of a listbox. -/
def Listbox.Effect.shown : Effect → String
  | .expand => "Expand"
  | .collapse => "Collapse"
  | .listen => "Listen"
  | .unlisten => "Unlisten"
  | .highlight index focus =>
    Text.shownRecord "Highlight" [("index", toString index), ("focus", Text.shownBool focus)]
  | .commit index => Text.shownRecord "Commit" [("index", toString index)]
  | .reflect index => Text.shownRecord "Reflect" [("index", toString index)]
  | .notify => "Notify"
  | .focusTrigger => "FocusTrigger"

namespace Tester

open Calendar

/-- Something that has to hold, and what to report when it does not. -/
structure Expectation where
  holds : Bool
  text : String
  deriving DecidableEq, Repr

namespace Expectation

/-- The text of the first expectation that does not hold. -/
def firstUnmet (l : List Expectation) : Option String := (l.find? fun e => !e.holds).map (·.text)

end Expectation

namespace Check

/-! ### Consent -/

open Consent in
/-- Opens the page and takes actions on the overlay; tells whether it was shown, and where the site stands. -/
def play (now : Instant) (v : Visits) (actions : List Action) : Except DateOverflow (Bool × Visits) := do
  let (v, o) ← v.step {} .visit now
  let v ← actions.foldlM (fun v a => do let (v, _) ← v.step {} (.control (some a)) now; pure v) v
  pure (o.required.getD false, v)

open Consent in
/-- Plays an action on a new site, and then opens the page again. -/
def storedOnce (now : Instant) (a : Action) : Except DateOverflow (List Expectation) := do
  let (first, v) ← play now .start [a]
  let (second, _) ← play now v []
  pure [⟨first, "overlay must show on first visit (" ++ a.shown ++ ")"⟩,
    ⟨!second, "overlay must stay hidden once " ++ a.shown ++ " was stored"⟩]

/-- Whatever the visitor chooses, the overlay stays away afterwards. -/
def cookieIdempotence (now : Instant) : Except Consent.DateOverflow (List Expectation) := do
  let accepted ← storedOnce now .accept
  let rejected ← storedOnce now .reject
  let saved ← storedOnce now (.save .empty)
  pure (accepted ++ rejected ++ saved)

/-- The choices that a visitor saves in the scenario. -/
def choices : NameMap Bool := .ofList [("analytics", true), ("marketing", false)]

/-- The record that has to be stored for them. -/
def expectedRecord : Consent.Record :=
  .categories (.ofList [("necessary", true), ("analytics", true), ("marketing", false)])

/-- The record that a site has stored, or why there is none. -/
def stored (v : Consent.Visits) : Except String Consent.Record :=
  match Consent.findCookie v.jar.document ({} : ConsentSettings).cookieName with
  | none => .error "consent cookie was not written"
  | some raw =>
    match Consent.Record.decode raw with
    | .error f => .error f.message
    | .ok r => .ok r

/-- The expectation that a site has stored the record. -/
def storedExpectation (v : Consent.Visits) : Expectation :=
  match stored v with
  | .error text => ⟨false, text⟩
  | .ok r => ⟨r = expectedRecord, "unexpected stored record " ++ r.shown⟩

/-- Saved choices come back from the cookie. -/
def customizeRoundtrip (now : Instant) : Except Consent.DateOverflow (List Expectation) := do
  let (shown, v) ← play now .start [.customize, .save choices]
  pure [⟨shown, "overlay should show"⟩, storedExpectation v]

/-- Views change with the controls, and the marker is cleared once. -/
def viewTransitions : List Expectation :=
  let (shown, _) := Consent.Session.fresh.show_
  let (customized, there) := shown.apply .customize
  let (back, again) := customized.apply .back
  let (leaving, _) := back.apply .reject
  let (gone, first) := leaving.finishTeardown
  let (_, second) := gone.finishTeardown
  [⟨there.contains (.showView .settings) && there.contains (.focusView .settings),
     "customize must show and focus settings, got " ++ Text.shownList Consent.Effect.shown there⟩,
   ⟨again.contains (.showView .summary),
     "back must show the summary, got " ++ Text.shownList Consent.Effect.shown again⟩,
   ⟨leaving.phase = .dismissing, "reject must start teardown"⟩,
   ⟨first = [.clearViewMarker], "first teardown completion clears the marker"⟩,
   ⟨second.isEmpty, "second teardown completion must be a no-op"⟩]

/-! ### Listboxes -/

open Listbox

/-- How often the effects announce a change. -/
def countChanges (effects : List Effect) : Nat := (effects.filter (· = .notify)).length

/-- A disabled entry that was chosen first gives way to the next enabled one. -/
def initialFallback : List Expectation :=
  let s := State.ofEntries [⟨"A", "a", true, true⟩, ⟨"B", "b", false, false⟩, ⟨"C", "c", false, false⟩]
  let effects := s.initialEffects (some 0)
  [⟨s.selected = some 1, "expected B to be selected, got " ++ Text.shownOption toString s.selected⟩,
   ⟨effects.contains (.commit 1),
     "native select must be corrected silently, got " ++ Text.shownList Effect.shown effects⟩,
   ⟨countChanges effects = 0, "initial sync must not fire change"⟩]

/-- The entries that are highlighted as keys are pressed in the menu. -/
def highlightPath (s : State) : List Key → List Nat
  | [] => []
  | key :: keys =>
    let (t, _) := s.menuKey key
    t.active :: highlightPath t keys

/-- The arrow keys skip disabled entries and wrap around. -/
def keyboardWrap : List Expectation :=
  let s := State.ofEntries [⟨"A", "a", false, false⟩, ⟨"B", "b", true, false⟩, ⟨"C", "c", false, false⟩]
  let path := highlightPath s.openMenu.1 [.arrowDown, .arrowDown, .arrowUp, .end, .home]
  [⟨path = [2, 0, 2, 2, 0], "unexpected highlight path " ++ Text.shownList toString path⟩]

/-- The entries of the demo page. -/
def retentionEntries : List Entry :=
  [⟨"1 day", "1", false, false⟩, ⟨"7 days", "7", false, true⟩, ⟨"30 days", "30", false, false⟩]

/-- Does the effect write to the native control? -/
def isCommit : Effect → Bool
  | .commit _ => true
  | _ => false

/-- Choosing announces one change, closes the menu and gives the focus back. -/
def commitChange : List Expectation :=
  let (opened, first) := (State.ofEntries retentionEntries).perform .triggerClick
  let (moved, second) := opened.menuKey .arrowDown
  let (chosen, third) := moved.menuKey .enter
  let effects := first ++ second.effects ++ third.effects
  [⟨countChanges effects = 1, "expected one change, got " ++ Text.shownList Effect.shown effects⟩,
   ⟨!chosen.isOpen, "commit should close the menu"⟩,
   ⟨effects.contains .focusTrigger, "commit should return focus to the trigger"⟩,
   ⟨(chosen.nativeChanged (some 2)).2.all fun e => !isCommit e, "the echoed change must not commit again"⟩]

/-- A pointer outside closes the menu and changes nothing else. -/
def outsideClose : List Expectation :=
  let opened := (State.ofEntries retentionEntries).openMenu.1
  let moved := (opened.menuKey .arrowDown).1
  let (kept, inside) := moved.outsidePointer true
  let (closed, effects) := kept.outsidePointer false
  [⟨inside.isEmpty, "inside pointer must not close"⟩,
   ⟨!closed.isOpen, "outside pointer should close"⟩,
   ⟨effects.contains .unlisten, "closing must drop the document listeners"⟩,
   ⟨!effects.contains .focusTrigger, "outside close must not steal focus"⟩,
   ⟨closed.selected = some 1, "outside close must not commit"⟩]

end Check

/-- The check of a scenario at an instant; enhancing twice can only be seen in a browser. -/
def Scenario.check? (s : Scenario) (now : Instant) : Option (Except Consent.DateOverflow (List Expectation)) :=
  match s with
  | .cookieIdempotence => some (Check.cookieIdempotence now)
  | .customizeRoundtrip => some (Check.customizeRoundtrip now)
  | .viewTransitions => some (.ok Check.viewTransitions)
  | .initialFallback => some (.ok Check.initialFallback)
  | .keyboardWrap => some (.ok Check.keyboardWrap)
  | .commitChange => some (.ok Check.commitChange)
  | .doubleEnhance => none
  | .outsideClose => some (.ok Check.outsideClose)

end Tester
end PageWidgets
