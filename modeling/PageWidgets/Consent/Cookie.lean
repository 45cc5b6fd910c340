import PageWidgets.Calendar.MailDate
import PageWidgets.Consent.Record
import PageWidgets.Settings

/-! The consent cookie: the assignments that set and delete it, and when it expires. -/

namespace PageWidgets
namespace Consent

open Calendar

/-- The consent cookie: its name, and for how many days it is kept. -/
structure Cookie where
  name : String
  durationDays : Nat
  deriving DecidableEq, Repr

/-- An expiry date that no calendar in range holds. -/
inductive DateOverflow where
  | dateOverflow
  deriving DecidableEq, Repr

namespace DateOverflow

def message : DateOverflow → String
  | .dateOverflow => "`DateTime + TimeDelta` overflowed"

end DateOverflow

namespace Cookie

/-- The cookie that the settings ask for. -/
def ofSettings (s : ConsentSettings) : Cookie := ⟨s.cookieName, s.durationDays⟩

/-- When a cookie set now expires. -/
def expiresAt (c : Cookie) (now : Instant) : Except DateOverflow Instant :=
  match now.plusDays? c.durationDays with
  | some t => .ok t
  | none => .error .dateOverflow

/-- The assignment that keeps a value until an instant. -/
def assignment (name value : String) (expires : Instant) : String :=
  name ++ "=" ++ value ++ "; expires=" ++ MailDate.text expires ++ "; path=/; SameSite=Lax"

/-- The assignment that sets the cookie now. -/
def header (c : Cookie) (r : Record) (now : Instant) : Except DateOverflow String :=
  match c.expiresAt now with
  | .error e => .error e
  | .ok t => .ok (assignment c.name r.cookieValue t)

/-- The assignment that deletes the cookie: it expired at the start of 1970. -/
def deletion (c : Cookie) : String := assignment c.name "" 0

end Cookie
end Consent
end PageWidgets
