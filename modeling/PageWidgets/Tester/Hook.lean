import PageWidgets.Tester.Session

/-! The test hook of a page, and the page itself through scripts: reading the state, deleting the cookie,
    enhancing again, and acting on the first element that a selector matches. -/

namespace PageWidgets
namespace Tester

open Json

namespace Step

/-! ### The hook -/

/-- How often a page is asked for its hook. -/
def hookAttempts : Nat := 50

/-- Asks for the hook until it is there. -/
def awaitHook : Nat → Step Unit
  | 0 => throw .hookAbsent
  | attempts + 1 => do
    let v ← execute "return !!window.__fsqrTest" []
    if v.asBool?.getD false then pure () else awaitHook attempts

/-- Waits until the page offers its hook. -/
def ensureHook : Step Unit := awaitHook hookAttempts

/-- The state of the page. -/
def pageState : Step PageState := do
  let v ← execute "return window.__fsqrTest.state()" []
  match PageState.reader.convert v with
  | .ok s => pure s
  | .error e => throw (.stateUnread e)

/-- Deletes the consent cookie. -/
def reset : Step Unit := do
  let _ ← execute "window.__fsqrTest.reset()" []

/-- Enhances what is not enhanced yet, and says how many selects that were. -/
def enhance : Step Nat := do
  let v ← execute "return window.__fsqrTest.enhance()" []
  match v.asNat? with
  | some n => pure n
  | none => throw (.notCounted v)

/-- The select of that id, in the state of the page. -/
def selectState (id : String) : Step SelectState := do
  let s ← pageState
  lift (s.select id)

/-! ### Elements -/

/-- Runs a script on the first element that the selector matches; null stands for no element. -/
def onElement (selector body : String) (extra : List Value) : Step Value := do
  let v ← execute ("const el = document.querySelector(arguments[0]); if (!el) return null; " ++ body)
    (.string selector :: extra)
  if v.isNull then throw (.noElement selector) else pure v

/-- Clicks an element. -/
def click (selector : String) : Step Unit := do
  let _ ← onElement selector "el.click(); return true;" []

/-- Presses a key on an element. -/
def press (selector key : String) : Step Unit := do
  let _ ← onElement selector
    ("el.dispatchEvent(new KeyboardEvent('keydown', \x7b key: arguments[1], bubbles: true, "
      ++ "cancelable: true \x7d)); return true;")
    [.string key]

/-- Puts the pointer down on an element. -/
def pointerDown (selector : String) : Step Unit := do
  let _ ← onElement selector
    "el.dispatchEvent(new PointerEvent('pointerdown', \x7b bubbles: true \x7d)); return true;" []

/-- The value of an attribute of an element. -/
def attributeOf (selector name : String) : Step (Option String) := do
  let v ← onElement selector "return \x7b value: el.getAttribute(arguments[1]) \x7d;" [.string name]
  pure (v.member "value").asString?

/-- Does an element have the class? -/
def hasClass (selector className : String) : Step Bool := do
  let v ← onElement selector "return el.classList.contains(arguments[1]);" [.string className]
  pure (v.asBool?.getD false)

/-- How many elements the selector matches. -/
def count (selector : String) : Step Nat := do
  let v ← execute "return document.querySelectorAll(arguments[0]).length;" [.string selector]
  pure (v.asNat?.getD 0)

/-- Adds markup to the page. -/
def inject (markup : String) : Step Unit := do
  let _ ← execute
    ("const host = document.createElement('div'); host.innerHTML = arguments[0]; "
      ++ "document.body.appendChild(host);")
    [.string markup]

/-- Starts to count the changes that reach an element. -/
def watchChanges (selector : String) : Step Unit := do
  let _ ← onElement selector
    ("window.__fsqrChanges = 0; el.addEventListener('change', () => \x7b window.__fsqrChanges += 1; \x7d); "
      ++ "return true;")
    []

/-- How many changes were counted. -/
def changeCount : Step Nat := do
  let v ← execute "return window.__fsqrChanges || 0;" []
  pure (v.asNat?.getD 0)

/-! ### Pages -/

/-- Loads the page again, with its cookies. -/
def reload (address : String) : Step Unit := do
  visit address
  ensureHook

/-- Loads the page without a consent cookie. -/
def freshPage (address : String) : Step Unit := do
  reload address
  reset
  reload address

end Step
end Tester
end PageWidgets
