/-! Trees of nodes. An element is known by its number; what the element is, is kept elsewhere, so that a change
    of an attribute leaves every tree alone. -/

namespace PageWidgets
namespace Page

/-- A node: a text, or an element with its children. -/
inductive Node where
  | text (s : String)
  | element (id : Nat) (children : List Node)
  deriving Repr

instance : Inhabited Node := ⟨.text ""⟩

namespace Node

mutual

/-- The elements of a tree in document order, the root included. -/
def ids : Node → List Nat
  | .text _ => []
  | .element id children => id :: idsOf children

/-- The elements of a list of trees in document order. -/
def idsOf : List Node → List Nat
  | [] => []
  | n :: rest => ids n ++ idsOf rest

end

mutual

/-- The children of an element somewhere in a tree. -/
def childrenOf? (id : Nat) : Node → Option (List Node)
  | .text _ => none
  | .element i children => if i = id then some children else childrenIn? id children

/-- The children of an element somewhere in a list of trees. -/
def childrenIn? (id : Nat) : List Node → Option (List Node)
  | [] => none
  | n :: rest =>
    match childrenOf? id n with
    | some children => some children
    | none => childrenIn? id rest

end

mutual

/-- The elements from the root of a tree down to an element in it. -/
def pathTo? (id : Nat) : Node → Option (List Nat)
  | .text _ => none
  | .element i children => if i = id then some [i] else (pathIn? id children).map (i :: ·)

/-- The elements from the root of one of the trees down to an element in it. -/
def pathIn? (id : Nat) : List Node → Option (List Nat)
  | [] => none
  | n :: rest =>
    match pathTo? id n with
    | some path => some path
    | none => pathIn? id rest

end

mutual

/-- The tree with the children of an element replaced. -/
def withChildren (id : Nat) (f : List Node → List Node) : Node → Node
  | .text s => .text s
  | .element i children => .element i (if i = id then f children else withChildrenIn id f children)

/-- The trees with the children of an element replaced. -/
def withChildrenIn (id : Nat) (f : List Node → List Node) : List Node → List Node
  | [] => []
  | n :: rest => withChildren id f n :: withChildrenIn id f rest

end

/-- Is the node that element? -/
def isElement (id : Nat) : Node → Bool
  | .text _ => false
  | .element i _ => i == id

mutual

/-- The tree without an element below its root. -/
def without (id : Nat) : Node → Node
  | .text s => .text s
  | .element i children => .element i (withoutIn id children)

/-- The trees without an element. -/
def withoutIn (id : Nat) : List Node → List Node
  | [] => []
  | n :: rest => if n.isElement id then withoutIn id rest else without id n :: withoutIn id rest

end

/-- The numbers of the elements among some nodes, without those below them. -/
def elementsAmong : List Node → List Nat
  | [] => []
  | .text _ :: rest => elementsAmong rest
  | .element id _ :: rest => id :: elementsAmong rest

/-- The texts among some nodes, one after the other. -/
def textAmong : List Node → String
  | [] => ""
  | .text s :: rest => s ++ textAmong rest
  | .element _ _ :: rest => textAmong rest

mutual

/-- All text of a tree. -/
def content : Node → String
  | .text s => s
  | .element _ children => contentOf children

/-- All text of a list of trees. -/
def contentOf : List Node → String
  | [] => ""
  | n :: rest => content n ++ contentOf rest

end

/-- The nodes with another one put before an element among them, or at the end when it is not there. -/
def insertBefore (reference : Option Nat) (n : Node) : List Node → List Node
  | [] => [n]
  | m :: rest =>
    match reference with
    | some id => if m.isElement id then n :: m :: rest else m :: insertBefore reference n rest
    | none => m :: insertBefore reference n rest

mutual

/-- The elements of a tree with their places: a root, and below it the position among the elements. -/
def placesAt (place : String) : Node → List (String × Nat)
  | .text _ => []
  | .element id children => (place, id) :: placesAmong place 0 children

def placesAmong (parent : String) (index : Nat) : List Node → List (String × Nat)
  | [] => []
  | .text _ :: rest => placesAmong parent index rest
  | .element id children :: rest =>
    placesAt (parent ++ "." ++ toString index) (.element id children) ++ placesAmong parent (index + 1) rest

end

/-- The elements of a tree with their places, the root at `0`. -/
def places (n : Node) : List (String × Nat) := placesAt "0" n

end Node
end Page
end PageWidgets
