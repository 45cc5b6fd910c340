import PageWidgets.Json.Printed
import PageWidgets.Json.Reader
import PageWidgets.Text.Blank
import PageWidgets.Text.Percent

/-! What a visitor agreed to, and its form as a cookie value. The plain form is one of two words or the JSON text
    of a map from categories to truth values; the cookie holds the percent form of it. A map is only read back
    when it grants the necessary category. -/

namespace PageWidgets
namespace Consent

/-- The category that is always granted. -/
def necessary : String := "necessary"

/-- What a visitor agreed to. -/
inductive Record where
  | accepted
  | rejected
  | categories (granted : NameMap Bool)
  deriving DecidableEq, Repr

/-- A cause for refusing a cookie value. -/
inductive DecodeFault where
  | encoding (f : Text.Utf8Fault)
  | json (e : Json.ReadError)
  | necessaryNotGranted
  deriving DecidableEq, Repr

namespace DecodeFault

def message : DecodeFault → String
  | .encoding f => "cookie value is not valid UTF-8 after percent-decoding: " ++ f.message
  | .json e => "cookie value is neither a sentinel nor a category map: " ++ e.message
  | .necessaryNotGranted => "category map does not grant `necessary`"

end DecodeFault

namespace Record

/-- The record of choices: a later choice replaces an earlier one, and the necessary category is granted. -/
def ofChoices (choices : NameMap Bool) : Record := .categories (choices.insert necessary true)

/-- The JSON value of a map of categories. -/
def categoriesValue (granted : NameMap Bool) : Json.Value :=
  .object (granted.entries.map fun e => (e.1, .bool e.2))

/-- The form before it is made fit for a cookie. -/
def plain : Record → String
  | .accepted => "accepted"
  | .rejected => "rejected"
  | .categories granted => (categoriesValue granted).compact

/-- The form that a cookie holds. -/
def cookieValue (r : Record) : String := String.ofList (Text.percentEncode r.plain.toList)

/-- The map of categories that a text spells, which must grant the necessary one. -/
def ofMapText (text : String) : Except DecodeFault Record :=
  match (Json.Reader.dict Json.Reader.bool).parse text with
  | .error e => .error (.json e)
  | .ok granted =>
    if granted.get? necessary = some true then .ok (.categories granted) else .error .necessaryNotGranted

/-- The record that a plain form spells. The word `1` was once written for `accepted`. -/
def ofPlain (text : String) : Except DecodeFault Record :=
  if text = "accepted" ∨ text = "1" then .ok .accepted
  else if text = "rejected" then .ok .rejected
  else ofMapText text

/-- The record that a cookie value holds. -/
def decode (raw : String) : Except DecodeFault Record :=
  match Text.ofUtf8 (Text.percentDecode (Text.utf8 (Text.trim raw.toList))) with
  | .error f => .error (.encoding f)
  | .ok text => ofPlain (String.ofList text)

end Record
end Consent
end PageWidgets
