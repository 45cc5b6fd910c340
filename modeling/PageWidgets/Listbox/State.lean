import PageWidgets.Listbox.Key
import PageWidgets.Listbox.Navigation

/-! The state of a listbox over a native control: open or closed, the entry it highlights, the entry it shows as
    chosen, and whether it listens to the whole document. Every operation returns the next state and the work
    that the page has to do, in order. -/

namespace PageWidgets
namespace Listbox

/-- Work for the page. -/
inductive Effect where
  /-- Show the menu as open. -/
  | expand
  /-- Show the menu as closed. -/
  | collapse
  /-- Listen to pointers and keys on the whole document. -/
  | listen
  /-- Stop listening to the whole document. -/
  | unlisten
  /-- Mark the entry as the active one, and focus it when asked to. -/
  | highlight (index : Nat) (focus : Bool)
  /-- Choose the option of the native control. -/
  | commit (index : Nat)
  /-- Show the entry as the chosen one. -/
  | reflect (index : Nat)
  /-- Announce a change of the native control. -/
  | notify
  /-- Focus the trigger. -/
  | focusTrigger
  deriving DecidableEq, Repr

/-- The state of a listbox. -/
structure State where
  entries : List Entry
  isOpen : Bool
  active : Nat
  selected : Option Nat
  listening : Bool
  deriving DecidableEq, Repr

/-- What a key press leads to, and whether the browser must not handle the key as well. -/
structure KeyResponse where
  effects : List Effect
  handled : Bool
  deriving DecidableEq, Repr

namespace State

/-- The closed listbox of the entries. -/
def ofEntries (entries : List Entry) : State :=
  ⟨entries, false, initialIndex entries, if entries.isEmpty then none else some (initialIndex entries), false⟩

/-- May the entry at that index be highlighted and chosen? -/
def selectable (s : State) (i : Nat) : Bool := enabledAt s.entries i

/-- The entry shown as chosen. -/
def selectedEntry? (s : State) : Option Entry :=
  match s.selected with
  | some i => s.entries[i]?
  | none => none

/-- The work that makes a fresh page show the state, given what the native control has chosen. -/
def initialEffects (s : State) (native : Option Nat) : List Effect :=
  match s.selected with
  | none => []
  | some i =>
    (if native = some i then [] else [.commit i]) ++ [.reflect i]
      ++ (if s.selectable i then [.highlight i false] else [])

/-! ### Operations -/

/-- Moves the highlight to a selectable entry. -/
def highlight (s : State) (i : Nat) (focus : Bool) : State × List Effect :=
  if s.selectable i then ({ s with active := i }, [.highlight i focus]) else (s, [])

/-- Opens the menu. -/
def openMenu (s : State) : State × List Effect :=
  if s.isOpen then (s, [])
  else
    let (t, effects) := { s with isOpen := true }.highlight s.active true
    ({ t with listening := true }, .expand :: effects ++ (if s.listening then [] else [.listen]))

/-- Closes the menu, and gives the focus back to the trigger when asked to. -/
def closeMenu (s : State) (focusTrigger : Bool) : State × List Effect :=
  if s.isOpen then
    ({ s with isOpen := false, listening := false },
      .collapse :: (if s.listening then [.unlisten] else []) ++ (if focusTrigger then [.focusTrigger] else []))
  else (s, [])

/-- Opens a closed menu and closes an open one. -/
def toggle (s : State) : State × List Effect :=
  if s.isOpen then s.closeMenu false else s.openMenu

/-- Chooses a selectable entry: the native control first, then what is shown, then the announcement. -/
def commit (s : State) (i : Nat) (close : Bool) : State × List Effect :=
  if s.selectable i then
    let chosen := { s with selected := some i, active := i }
    let effects := [.commit i, .reflect i, .highlight i false, .notify]
    if close then
      let (t, closing) := chosen.closeMenu true
      (t, effects ++ closing)
    else (chosen, effects)
  else (s, [])

/-- Moves the highlight to an entry, when there is one to move to, and focuses it. -/
def moveTo (s : State) (target : Option Nat) : State × List Effect :=
  match target with
  | some i => s.highlight i true
  | none => (s, [])

/-- Moves the highlight one enabled entry on. -/
def step (s : State) (d : Direction) : State × List Effect :=
  s.moveTo (stepEnabled s.entries s.active d)

/-- Opens the menu and moves the highlight one enabled entry on. -/
def openAndStep (s : State) (d : Direction) : State × List Effect :=
  let (opened, first) := s.openMenu
  let (moved, second) := opened.step d
  (moved, first ++ second)

/-- A key on the trigger. -/
def triggerKey (s : State) (key : Key) : State × KeyResponse :=
  match key with
  | .arrowDown => let (t, effects) := s.openAndStep .forward; (t, ⟨effects, true⟩)
  | .arrowUp => let (t, effects) := s.openAndStep .backward; (t, ⟨effects, true⟩)
  | .enter | .space => let (t, effects) := s.toggle; (t, ⟨effects, true⟩)
  | .escape => let (t, effects) := s.closeMenu false; (t, ⟨effects, true⟩)
  | .home | .end | .tab | .other => (s, ⟨[], false⟩)

/-- A key in the menu. -/
def menuKey (s : State) (key : Key) : State × KeyResponse :=
  match key with
  | .arrowDown => let (t, effects) := s.step .forward; (t, ⟨effects, true⟩)
  | .arrowUp => let (t, effects) := s.step .backward; (t, ⟨effects, true⟩)
  | .home => let (t, effects) := s.moveTo (firstEnabled s.entries); (t, ⟨effects, true⟩)
  | .end => let (t, effects) := s.moveTo (lastEnabled s.entries); (t, ⟨effects, true⟩)
  | .enter | .space => let (t, effects) := s.commit s.active true; (t, ⟨effects, true⟩)
  | .escape => let (t, effects) := s.closeMenu true; (t, ⟨effects, true⟩)
  | .tab => let (t, effects) := s.closeMenu false; (t, ⟨effects, false⟩)
  | .other => (s, ⟨[], false⟩)

/-- A click on an entry. -/
def entryClick (s : State) (i : Nat) : State × List Effect := s.commit i true

/-- The pointer comes over an entry. -/
def entryHover (s : State) (i : Nat) : State × List Effect := s.highlight i false

/-- A pointer goes down somewhere in the document. -/
def outsidePointer (s : State) (inside : Bool) : State × List Effect :=
  if inside then (s, []) else s.closeMenu false

/-- A key goes down somewhere in the document: Tab outside the listbox closes it. -/
def documentKey (s : State) (key : Key) (inside : Bool) : State × List Effect :=
  if key = .tab ∧ !inside then s.closeMenu false else (s, [])

/-- The native control changed: the listbox follows it to a selectable entry. -/
def nativeChanged (s : State) (native : Option Nat) : State × List Effect :=
  match native with
  | none => (s, [])
  | some i =>
    if s.selectable i then ({ s with selected := some i, active := i }, [.reflect i, .highlight i false])
    else (s, [])

end State

/-! ### Runs -/

/-- An operation with its arguments. -/
inductive Operation where
  | openMenu
  | closeMenu (focusTrigger : Bool)
  | toggle
  | highlight (index : Nat) (focus : Bool)
  | commit (index : Nat) (close : Bool)
  | triggerClick
  | triggerKey (key : Key)
  | menuKey (key : Key)
  | entryClick (index : Nat)
  | entryHover (index : Nat)
  | outsidePointer (inside : Bool)
  | documentKey (key : Key) (inside : Bool)
  | nativeChanged (native : Option Nat)
  deriving DecidableEq, Repr

namespace State

/-- Performs an operation. -/
def perform (s : State) : Operation → State × List Effect
  | .openMenu => s.openMenu
  | .closeMenu focusTrigger => s.closeMenu focusTrigger
  | .toggle => s.toggle
  | .highlight i focus => s.highlight i focus
  | .commit i close => s.commit i close
  | .triggerClick => s.toggle
  | .triggerKey key => let (t, r) := s.triggerKey key; (t, r.effects)
  | .menuKey key => let (t, r) := s.menuKey key; (t, r.effects)
  | .entryClick i => s.entryClick i
  | .entryHover i => s.entryHover i
  | .outsidePointer inside => s.outsidePointer inside
  | .documentKey key inside => s.documentKey key inside
  | .nativeChanged native => s.nativeChanged native

/-- Performs operations one after the other and collects the work of each. -/
def run (s : State) : List Operation → State × List (List Effect)
  | [] => (s, [])
  | op :: ops =>
    let (t, effects) := s.perform op
    let (u, rest) := t.run ops
    (u, effects :: rest)

end State
end Listbox
end PageWidgets
