import PageWidgets.Consent.Jar
import PageWidgets.Page.Node
import PageWidgets.Page.Selector

/-! A page as a program in it sees it: the document's tree and the trees that stand apart from it, what every
    element is, the focus, the cookies, the clock, and the surroundings that a browser may withhold. -/

namespace PageWidgets

open Consent Calendar

namespace Page

/-- The document of a window. -/
inductive DocumentKind where
  | absent
  | xml
  | html
  deriving DecidableEq, Repr

/-- What the browser offers: the query part of the address, when it can be read, a window, a document, cookies,
    and a window that takes new properties. -/
structure Surroundings where
  search : Option String := some ""
  window : Bool := true
  document : DocumentKind := .html
  cookies : Bool := true
  frozen : Bool := false
  deriving DecidableEq, Repr

/-- Something the program asked the browser to do. -/
inductive Call where
  | focus (id : Nat)
  | scroll (id : Nat)
  | announce (type : String) (id : Nat)
  deriving DecidableEq, Repr

end Page

open Page

/-- A page. -/
structure Page where
  surroundings : Surroundings
  loading : Bool
  tree : Option Node
  loose : List Node
  elements : List Element
  focus : Option Nat
  jar : Jar
  now : Instant
  /-- Words of 32 bits that chance will bring up next. -/
  random : List Nat
  /-- What the program asked for, in order. -/
  calls : List Call
  /-- An expiry date left the calendar, which ends the program. -/
  overflowed : Bool
  deriving Repr

namespace Page

instance : Inhabited Page := ⟨⟨{}, false, none, [], [], none, .empty, 0, [], [], false⟩⟩

/-- What the element is. -/
def element (p : Page) (id : Nat) : Element := p.elements.getD id default

/-- The page with an element changed. -/
def modify (p : Page) (id : Nat) (f : Element → Element) : Page := { p with elements := p.elements.modify id f }

/-- The trees of the page, the document's first. -/
def trees (p : Page) : List Node := p.tree.toList ++ p.loose

/-! ### The tree -/

/-- The children of an element. -/
def children (p : Page) (id : Nat) : List Node := (Node.childrenIn? id p.trees).getD []

/-- The elements below an element in document order. -/
def descendants (p : Page) (id : Nat) : List Nat := Node.idsOf (p.children id)

/-- The elements of the document in order. -/
def documentElements (p : Page) : List Nat := Node.idsOf p.tree.toList

/-- Is the element part of the document? -/
def inDocument (p : Page) (id : Nat) : Bool := p.documentElements.contains id

/-- The elements from the root of its tree down to an element. -/
def path (p : Page) (id : Nat) : List Nat := (Node.pathIn? id p.trees).getD [id]

/-- The parent of an element. -/
def parent? (p : Page) (id : Nat) : Option Nat := (p.path id).dropLast.getLast?

/-- Is `id` the element `container`, or below it? -/
def contains (p : Page) (container id : Nat) : Bool := id == container || (p.descendants container).contains id

/-- All text below an element. -/
def textContent (p : Page) (id : Nat) : String := Node.contentOf (p.children id)

/-- The page with the children of an element replaced. -/
def withChildren (p : Page) (id : Nat) (f : List Node → List Node) : Page :=
  { p with tree := p.tree.map (Node.withChildren id f), loose := Node.withChildrenIn id f p.loose }

/-! ### Finding elements -/

/-- Every element below `root` that the selector selects, in document order. -/
def queryAll (p : Page) (root : Nat) (selector : String) : Except Fault (List Nat) :=
  match Selector.read selector with
  | .error f => .error f
  | .ok s => .ok ((p.descendants root).filter fun id => (p.element id).isSelected s)

/-- The first element below `root` that the selector selects. -/
def query (p : Page) (root : Nat) (selector : String) : Except Fault (Option Nat) :=
  match p.queryAll root selector with
  | .error f => .error f
  | .ok found => .ok found.head?

/-- The root of the document. -/
def root? (p : Page) : Option Nat := (Node.elementsAmong p.tree.toList).head?

/-- Every element of the document that the selector selects. -/
def matching (p : Page) (selector : String) : Except Fault (List Nat) :=
  match Selector.read selector with
  | .error f => .error f
  | .ok s => .ok (p.documentElements.filter fun id => (p.element id).isSelected s)

/-- The first element of the document with that identifier. -/
def byId? (p : Page) (identifier : String) : Option Nat :=
  if identifier.isEmpty then none
  else p.documentElements.find? fun id => (p.element id).attr? "id" == some identifier

/-- The body: the first `body` right below the root. -/
def body? (p : Page) : Option Nat :=
  match p.root? with
  | none => none
  | some root => (Node.elementsAmong (p.children root)).find? fun id => (p.element id).isA "body"

/-- Does a program in the page see a document? -/
def hasDocument (p : Page) : Bool := p.surroundings.window && p.surroundings.document != .absent

/-! ### Native selects -/

/-- The options of a select in document order. -/
def options (p : Page) (select : Nat) : List Nat :=
  (p.descendants select).filter fun id => (p.element id).isA "option"

/-- The index of the first chosen option. -/
def selectedIndex (p : Page) (select : Nat) : Option Nat :=
  (p.options select).findIdx? fun id => (p.element id).chosen

/-- A text with its blanks made single, and none at its ends. -/
def collapsed (s : String) : String := Text.join " " ((Element.words s.toList).map String.ofList)

/-- The value of an option: its attribute, else its text. -/
def optionValue (p : Page) (option : Nat) : String :=
  ((p.element option).attr? "value").getD (collapsed (p.textContent option))

/-- The value of a select: that of its first chosen option. -/
def selectValue (p : Page) (select : Nat) : String :=
  match (p.options select).find? fun id => (p.element id).chosen with
  | some option => p.optionValue option
  | none => ""

/-- The page with exactly those options of a select chosen. -/
def chooseOnly (p : Page) (options chosen : List Nat) : Page :=
  options.foldl (fun p id => p.modify id fun e => { e with chosen := chosen.contains id }) p

/-- Chooses the option of that index and no other; there may be none. -/
def choose (p : Page) (select : Nat) (index : Option Nat) : Page :=
  let options := p.options select
  let chosen := match index with
    | some i => options[i]?.toList
    | none => []
  p.chooseOnly options chosen

/-! ### Focus -/

/-- May the element be focused now? -/
def canFocus (p : Page) (id : Nat) : Bool :=
  p.inDocument id && (p.element id).isFocusable && !(p.path id).any fun i => (p.element i).hasAttr "hidden"

/-- Asks for the focus; an element that cannot have it does not get it. -/
def requestFocus (p : Page) (id : Nat) : Page :=
  let p := { p with calls := p.calls ++ [Call.focus id] }
  if p.canFocus id then { p with focus := some id } else p

/-! ### Cookies, clock and chance -/

/-- The cookies that a program reads: none where it may not. -/
def cookies (p : Page) : String :=
  if p.hasDocument && p.surroundings.document == .html && p.surroundings.cookies then p.jar.document else ""

/-- The instant that a program reads off the clock. -/
def clock (p : Page) : Instant := p.now.told

/-- The page after an assignment to its cookies. -/
def withCookie (p : Page) (assignment : String) : Page := { p with jar := p.jar.store assignment p.clock }

/-- The number below `36 ^ 6` that the next random word stands for. -/
def draw (p : Page) : Nat × Page :=
  (p.random.headD 0 * 531441 / Nat.pow 2 20, { p with random := p.random.drop 1 })

end Page
end PageWidgets
