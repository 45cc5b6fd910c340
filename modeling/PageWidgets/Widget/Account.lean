import PageWidgets.Consent.State

/-! What a page tells a test about its widgets: how consent stands, and the state of every enhanced select in the
    order they were enhanced in. -/

namespace PageWidgets
namespace Widget

open Json

/-- What a page tells about an enhanced select. -/
structure SelectAccount where
  id : String
  isOpen : Bool
  active : Nat
  selected : Option Nat
  value : Option String
  listening : Bool
  deriving DecidableEq, Repr

namespace SelectAccount

/-- The JSON value of the account of a select. -/
def toValue (s : SelectAccount) : Value :=
  .object [("id", .string s.id), ("open", .bool s.isOpen), ("active", .nat s.active),
    ("selected", .optional .nat s.selected), ("value", .optional .string s.value), ("listening", .bool s.listening)]

end SelectAccount

/-- What a page tells about both widgets. -/
structure Account where
  consent : Consent.State
  selects : List SelectAccount
  deriving DecidableEq, Repr

namespace Account

/-- The JSON value of an account. -/
def toValue (a : Account) : Value :=
  .object [("consent", a.consent.toValue), ("selects", .array (a.selects.map SelectAccount.toValue))]

end Account
end Widget
end PageWidgets
