import PageWidgets.Page.Basic

/-! Markup: trees as an author writes them, and how they become part of a page. Elements get their numbers in
    document order. A select then gets its first choice: the last option marked as selected, else the first that
    is not disabled; a select for several choices gets exactly the marked ones. -/

namespace PageWidgets
namespace Page

/-- A tree as an author writes it. -/
inductive Markup where
  | text (s : String)
  | element (tag : String) (html : Bool) (attrs : List (String × String)) (children : List Markup)
  deriving Repr

instance : Inhabited Markup := ⟨.text ""⟩

namespace Markup

/-- The element that a piece of markup describes. -/
def describe (tag : String) (html : Bool) (attrs : List (String × String)) : Element :=
  let e : Element := ⟨if html then Text.lowerAsciiText tag else tag, html, [], false, false⟩
  let e := attrs.foldl (fun e a => e.withAttr a.1 a.2) e
  { e with checked := e.hasAttr "checked" }

mutual

/-- The tree and its elements, numbered from `next`. -/
def plant (next : Nat) : Markup → Node × List Element
  | .text s => (.text s, [])
  | .element tag html attrs children =>
    let (nodes, elements) := plantAll (next + 1) children
    (.element next nodes, describe tag html attrs :: elements)

def plantAll (next : Nat) : List Markup → List Node × List Element
  | [] => ([], [])
  | m :: rest =>
    let (n, elements) := plant next m
    let (ns, more) := plantAll (next + elements.length) rest
    (n :: ns, elements ++ more)

end

end Markup
end Page

namespace Page

open Page

/-- Is the option disabled, by itself or by the group right above it? -/
def optionDisabled (p : Page) (option : Nat) : Bool :=
  (p.element option).hasAttr "disabled"
    || (match p.parent? option with
        | some parent => (p.element parent).isA "optgroup" && (p.element parent).hasAttr "disabled"
        | none => false)

/-- Gives a select its first choice. -/
def initialChoice (p : Page) (select : Nat) : Page :=
  let options := p.options select
  let marked := options.filter fun id => (p.element id).hasAttr "selected"
  if (p.element select).hasAttr "multiple" then p.chooseOnly options marked
  else
    match marked.getLast? with
    | some last => p.chooseOnly options [last]
    | none => p.chooseOnly options (options.find? fun id => !p.optionDisabled id).toList

/-- Gives every select among the elements its first choice. -/
def initialChoices (p : Page) (ids : List Nat) : Page :=
  (ids.filter fun id => (p.element id).isA "select").foldl initialChoice p

/-- The page with new elements in a new tree, which is handed to `place`. -/
def planted (p : Page) (m : Markup) (place : Page → Node → Page) : Page :=
  let (node, elements) := m.plant p.elements.length
  (place { p with elements := p.elements ++ elements } node).initialChoices node.ids

/-- The page with the tree as its document. -/
def withDocument (p : Page) (m : Markup) : Page := p.planted m fun p node => { p with tree := some node }

/-- The page with the tree as the last child of an element. -/
def injected (p : Page) (parent : Nat) (m : Markup) : Page :=
  p.planted m fun p node => p.withChildren parent fun children => children ++ [node]

/-- The page with an element, and what is below it, taken out of its tree. -/
def removed (p : Page) (id : Nat) : Page :=
  let node := Node.element id (p.children id)
  let rest := Node.withoutIn id p.loose
  { p with tree := (Node.withoutIn id p.tree.toList).head?, loose := rest ++ [node] }

end Page
end PageWidgets
