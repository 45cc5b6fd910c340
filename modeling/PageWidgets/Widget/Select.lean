import PageWidgets.Listbox.Identifier
import PageWidgets.Listbox.State
import PageWidgets.Page.Edit
import PageWidgets.Settings
import PageWidgets.Widget.Fault

/-! The retention select on a page: a trigger and a menu laid over a native select, which keeps the choice. Here
    are the elements it works with, how they are made, and the edits that carry out the work of its listbox. -/

namespace PageWidgets
namespace Widget

open Listbox Page

/-- The elements of an enhanced select. -/
structure Parts where
  wrapper : Nat
  native : Nat
  trigger : Nat
  menu : Nat
  items : List Nat
  deriving DecidableEq, Repr

/-- An enhanced select at work. -/
structure Select where
  parts : Parts
  settings : SelectSettings
  state : State
  deriving DecidableEq, Repr

/-! ### Making the parts -/

/-- The entries of a native select, taken from its options. -/
def entriesOf (p : Page) (native : Nat) : List Entry :=
  (p.options native).map fun id =>
    ⟨p.textContent id, p.optionValue id, (p.element id).hasAttr "disabled", (p.element id).chosen⟩

/-- The trigger: a button that has the menu of that identifier. -/
def triggerElement (s : SelectSettings) (menuId : String) : Element :=
  { tag := "button"
    html := true
    attrs := [("type", "button"), ("class", s.triggerClass), ("aria-haspopup", "listbox"),
      ("aria-controls", menuId), ("aria-expanded", "false")] }

/-- The menu. -/
def menuElement (s : SelectSettings) (menuId : String) : Element :=
  { tag := "ul"
    html := true
    attrs := [("class", s.menuClass), ("id", menuId), ("role", "listbox"), ("tabindex", "-1")] }

/-- The item of an entry. -/
def itemElement (s : SelectSettings) (menuId : String) (index : Nat) (e : Entry) : Element :=
  { tag := "li"
    html := true
    attrs := [("class", s.optionClass), ("data-value", e.value), ("role", "option"), ("tabindex", "-1"),
      ("id", entryId menuId index)] ++ (if e.disabled then [("aria-disabled", "true")] else []) }

/-- The items of a menu, numbered from `next`. -/
def itemNodes (next : Nat) : List Entry → List Node
  | [] => []
  | e :: rest => .element next (textNodes e.label) :: itemNodes (next + 1) rest

/-- The page with a trigger and a menu in a wrapper: the trigger before the arrow, when that is right below the
    wrapper, else at the end, and the menu last. -/
def attach (p : Page) (s : SelectSettings) (wrapper native : Nat) (arrow : Option Nat) (entries : List Entry)
    (menuId : String) : Parts × Page :=
  let trigger := p.elements.length
  let menu := trigger + 1
  let items := (List.range entries.length).map (menu + 1 + ·)
  let elements := triggerElement s menuId :: menuElement s menuId
    :: entries.zipIdx.map fun (e, i) => itemElement s menuId i e
  let reference := arrow.filter fun id => (Node.elementsAmong (p.children wrapper)).contains id
  let p := { p with elements := p.elements ++ elements }
  (⟨wrapper, native, trigger, menu, items⟩,
    p.withChildren wrapper fun children =>
      Node.insertBefore reference (.element trigger []) children ++ [.element menu (itemNodes (menu + 1) entries)])

/-- Carries out edits, and goes on only when none was refused. -/
def thenPerform (p : Page) (edits : List Edit) (next : Page → Except Fault Parts × Page) :
    Except Fault Parts × Page :=
  match p.perform edits with
  | (q, some f) => (.error (.ofPage f), q)
  | (q, none) => next q

/-- Marks the wrapper, hides the native select and its arrow from assistive technology, and makes the parts. What
    was done before a refusal stays done. -/
def render (p : Page) (s : SelectSettings) (wrapper native : Nat) (entries : List Entry) :
    Except Fault Parts × Page :=
  thenPerform p
    [.setAttr wrapper s.enhancedAttr "true", .addClass wrapper s.enhancedClass,
      .setAttr native "aria-hidden" "true", .setAttr native "tabindex" "-1"] fun p =>
  match p.query wrapper s.arrowSelector with
  | .error f => (.error (.ofPage f), p)
  | .ok arrow =>
    thenPerform p (arrow.toList.map fun id => .setAttr id "aria-hidden" "true") fun p =>
    let (entropy, p) := p.draw
    let menu := menuId (some (p.element native).identifier) s.fallbackId entropy
    if p.surroundings.document = .html then
      let (parts, p) := attach p s wrapper native arrow entries menu
      (.ok parts, p)
    else (.error (.wrongElement "HTMLButtonElement"), p)

/-! ### Carrying out the work of the listbox -/

namespace Select

/-- The edits that show one item as the chosen one. -/
def reflectItems (s : SelectSettings) (chosen : Nat) : Nat → List Nat → List Edit
  | _, [] => []
  | i, id :: rest =>
    (if i = chosen then [.addClass id s.selectedClass, .setAttr id "aria-selected" "true"]
      else [.removeClass id s.selectedClass, .removeAttr id "aria-selected"]) ++ reflectItems s chosen (i + 1) rest

/-- The edits that carry out an effect. Listening and announcing are no edits. -/
def edits (w : Select) (p : Page) : Effect → List Edit
  | .expand => [.addClass w.parts.wrapper w.settings.openClass, .setAttr w.parts.trigger "aria-expanded" "true"]
  | .collapse =>
    [.removeClass w.parts.wrapper w.settings.openClass, .setAttr w.parts.trigger "aria-expanded" "false"]
  | .highlight i focus =>
    match w.parts.items[i]? with
    | none => []
    | some item =>
      w.parts.items.map (.removeClass · w.settings.activeClass)
        ++ [.addClass item w.settings.activeClass,
          .setAttr w.parts.menu "aria-activedescendant" (p.element item).identifier]
        ++ (if focus then [.focus item, .scroll item] else [])
  | .commit i => [.choose w.parts.native (some i)]
  | .reflect i =>
    .setText w.parts.trigger ((w.state.entries[i]?.map (·.label)).getD "")
      :: reflectItems w.settings i 0 w.parts.items
  | .focusTrigger => [.focus w.parts.trigger]
  | .listen | .unlisten | .notify => []

end Select
end Widget
end PageWidgets
