import PageWidgets.Widget.Live

/-! Delivering events: which listeners an event reaches, in which order, and what they do. A listener that is
    removed on the way is not reached, and one that is added where the event already is neither. The change that
    a select announces is delivered within the delivery it comes from; what listens to it announces nothing. -/

namespace PageWidgets
namespace Widget

open Consent Page

namespace Live

/-- What a control does. -/
def pressControl (l : Live) (name : String) : Live :=
  match l.overlay with
  | none => l
  | some o =>
    let action := if name = "save" then some (.save (o.anchors.choices l.page)) else Action.ofControl? name
    match action with
    | none => l
    | some a => l.callOverlay (·.apply a)

/-- What a handler does with an event, and whether it asks the browser not to handle it. -/
def handle (announce : Live → Nat → Live) (ready : Bool → Live → Live) (e : Event) (h : Handler) (l : Live) :
    Live × Bool :=
  match h with
  | .ready test => (ready test l, false)
  | .control name => (l.pressControl name, false)
  | .transitionEnd =>
    match l.overlay with
    | none => (l, false)
    | some o =>
      (if e.target = .element o.anchors.overlay then l.callOverlay (·.finishTeardown) else l, false)
  | .triggerClick k => (l.callSelect announce k (·.toggle), false)
  | .triggerKey k =>
    match e.key with
    | none => (l, false)
    | some key => l.callSelectKey announce k (·.triggerKey (.ofName key))
  | .menuKey k =>
    match e.key with
    | none => (l, false)
    | some key => l.callSelectKey announce k (·.menuKey (.ofName key))
  | .nativeChange k =>
    match l.selects[k]? with
    | none => (l, false)
    | some w =>
      let index := l.page.selectedIndex w.parts.native
      (l.callSelect announce k (·.nativeChanged index), false)
  | .itemClick k i => (l.callSelect announce k (·.entryClick i), true)
  | .itemHover k i => (l.callSelect announce k (·.entryHover i), false)
  | .documentPointer k =>
    match l.selects[k]? with
    | none => (l, false)
    | some w =>
      let inside := l.page.within e w.parts.wrapper
      (l.callSelect announce k (·.outsidePointer inside), false)
  | .documentKey k =>
    match e.key, l.selects[k]? with
    | some key, some w =>
      let inside := l.page.within e w.parts.wrapper
      (l.callSelect announce k (·.documentKey (.ofName key) inside), false)
    | _, _ => (l, false)

/-- Calls a listener, unless it was removed: what comes of it, and whether the default is prevented by now. -/
def call (h : Event → Handler → Live → Live × Bool) (e : Event) (at_ : Live × Bool) (x : Listener) :
    Live × Bool :=
  let (l, prevented) := at_
  if l.listeners.any fun y => y.id = x.id then
    let l := if x.once then { l with listeners := l.listeners.filter fun y => y.id ≠ x.id } else l
    let (l, asks) := h e x.handler l
    (l, prevented || (asks && e.cancelable && !x.passive))
  else (l, prevented)

/-- Calls the listeners at a stop that are there when the event arrives. -/
def visit (h : Event → Handler → Live → Live × Bool) (e : Event) (at_ : Live × Bool) (s : Stop) : Live × Bool :=
  (at_.1.listeners.filter fun x => x.place = s.place ∧ x.type = e.type ∧ x.capture = s.capture).foldl
    (call h e) at_

/-- Takes an event past all its stops. -/
def deliver (h : Event → Handler → Live → Live × Bool) (e : Event) (l : Live) : Live × Bool :=
  (l.page.stops e).foldl (visit h e) (l, false)

/-- The change of a native select. -/
def changeOf (native : Nat) : Event := ⟨"change", .element native, true, false, none⟩

/-- Delivers the change that a select announces. -/
def announceChange (l : Live) (native : Nat) : Live :=
  (l.deliver (handle (fun l _ => l) fun _ l => l) (changeOf native)).1

/-- Carries out the work of a select's listbox. -/
def callSelectNow (l : Live) (k : Nat) (f : Listbox.State → Listbox.State × List Listbox.Effect) : Live :=
  l.callSelect announceChange k f

end Live
end Widget
end PageWidgets
