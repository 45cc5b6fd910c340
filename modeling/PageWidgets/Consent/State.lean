import PageWidgets.Consent.Overlay
import PageWidgets.Consent.TaggedRecord

/-! What a page tells about consent: whether the cookie is there, the record it holds or why it holds none, and
    the phase of the overlay. -/

namespace PageWidgets
namespace Consent

open Json

namespace Phase

/-- The JSON value of a phase. -/
def toValue : Phase → Value
  | .hidden => .object [("phase", .string "hidden")]
  | .visible v => .object [("phase", .string "visible"), ("view", .string v.name)]
  | .dismissing => .object [("phase", .string "dismissing")]

end Phase

/-- What a page tells about consent. -/
structure State where
  present : Bool
  record : Option Record
  error : Option String
  phase : Option Phase
  deriving DecidableEq, Repr

namespace State

/-- What the cookies of a document and the phase of the overlay amount to. -/
def ofDocument (document cookieName : String) (phase : Option Phase) : State :=
  match findCookie document cookieName with
  | none => ⟨false, none, none, phase⟩
  | some raw =>
    match Record.decode raw with
    | .ok r => ⟨true, some r, none, phase⟩
    | .error fault => ⟨true, none, some fault.message, phase⟩

/-- The JSON value of a state. -/
def toValue (s : State) : Value :=
  .object [("present", .bool s.present), ("record", .optional Record.toValue s.record),
    ("error", .optional .string s.error), ("phase", .optional Phase.toValue s.phase)]

end State
end Consent
end PageWidgets
