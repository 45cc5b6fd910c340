import PageWidgets.Json.Binary64
import PageWidgets.NameMap

/-! JSON values. An object is the list of its members in the order they were given. -/

namespace PageWidgets
namespace Json

/-- A JSON number: a whole number, or one with a point or an exponent. -/
inductive Number where
  | integer (i : Int)
  | float (x : Binary64)
  deriving DecidableEq, Repr

namespace Number

def text : Number → String
  | .integer i => toString i
  | .float x => x.text

end Number

/-- A JSON value. -/
inductive Value where
  | null
  | bool (b : Bool)
  | number (n : Number)
  | string (s : String)
  | array (items : List Value)
  | object (members : List (String × Value))
  deriving Repr

namespace Value

instance : Inhabited Value := ⟨.null⟩

/-- The value of a natural number. -/
def nat (n : Nat) : Value := .number (.integer n)

/-- The value of a list of texts. -/
def strings (l : List String) : Value := .array (l.map .string)

/-- A value that may be missing. -/
def optional {α : Type} (write : α → Value) : Option α → Value
  | none => .null
  | some a => write a

/-- The truth value, of a truth value. -/
def asBool? : Value → Option Bool
  | .bool b => some b
  | _ => none

/-- The text, of a text. -/
def asString? : Value → Option String
  | .string s => some s
  | _ => none

/-- The number, of a natural number below `2 ^ 64`. -/
def asNat? : Value → Option Nat
  | .number (.integer i) => if 0 ≤ i ∧ i < Nat.pow 2 64 then some i.toNat else none
  | _ => none

/-- The items, of an array. -/
def asArray? : Value → Option (List Value)
  | .array items => some items
  | _ => none

/-- The members, of an object. -/
def asObject? : Value → Option (List (String × Value))
  | .object members => some members
  | _ => none

def isNull : Value → Bool
  | .null => true
  | _ => false

/-- The member of that name, null when the value has none. -/
def member (v : Value) (name : String) : Value :=
  match v with
  | .object members => ((members.find? fun m => m.1 = name).map (·.2)).getD .null
  | _ => .null

mutual

/-- The value with the members of every object in ascending order of names, the last of equal names kept. -/
def arranged : Value → Value
  | .array items => .array (arrangedItems items)
  | .object members => .object (NameMap.ofList (arrangedMembers members)).entries
  | v => v

def arrangedItems : List Value → List Value
  | [] => []
  | v :: rest => arranged v :: arrangedItems rest

def arrangedMembers : List (String × Value) → List (String × Value)
  | [] => []
  | (name, v) :: rest => (name, arranged v) :: arrangedMembers rest

end

end Value
end Json
end PageWidgets
