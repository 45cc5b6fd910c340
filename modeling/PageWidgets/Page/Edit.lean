import PageWidgets.Page.Basic

/-! Edits: what a program does to a page, as data. A list of edits is carried out in order until the page refuses
    one; those before it stay done. -/

namespace PageWidgets
namespace Page

/-- A change of the page. -/
inductive Edit where
  | setAttr (id : Nat) (name value : String)
  | removeAttr (id : Nat) (name : String)
  | addClass (id : Nat) (token : String)
  | removeClass (id : Nat) (token : String)
  | setStyle (id : Nat) (name value : String)
  | removeStyle (id : Nat) (name : String)
  | setText (id : Nat) (text : String)
  | choose (select : Nat) (index : Option Nat)
  | focus (id : Nat)
  | scroll (id : Nat)
  deriving DecidableEq, Repr

/-- The children that a text makes; an empty one makes none. -/
def textNodes (text : String) : List Node := if text.isEmpty then [] else [.text text]

/-- The page with an element changed by something that may be refused. -/
def tryModify (p : Page) (id : Nat) (f : Element → Except Fault Element) : Except Fault Page :=
  match f (p.element id) with
  | .error fault => .error fault
  | .ok e => .ok (p.modify id fun _ => e)

/-- Carries out one edit. -/
def edit (p : Page) : Edit → Except Fault Page
  | .setAttr id name value => p.tryModify id (·.setAttr name value)
  | .removeAttr id name => .ok (p.modify id (·.withoutAttr name))
  | .addClass id token => p.tryModify id (·.addClass token)
  | .removeClass id token => p.tryModify id (·.removeClass token)
  | .setStyle id name value => .ok (p.modify id (·.setStyle name value))
  | .removeStyle id name => .ok (p.modify id (·.removeStyle name))
  | .setText id text => .ok (p.withChildren id fun _ => textNodes text)
  | .choose select index => .ok (p.choose select index)
  | .focus id => .ok (p.requestFocus id)
  | .scroll id => .ok { p with calls := p.calls ++ [Call.scroll id] }

/-- Carries out edits until one is refused. -/
def perform (p : Page) : List Edit → Page × Option Fault
  | [] => (p, none)
  | e :: rest =>
    match p.edit e with
    | .error fault => (p, some fault)
    | .ok q => perform q rest

end Page
end PageWidgets
