import PageWidgets.Page.Element

/-! Why a widget could not be set up or brought up to date. -/

namespace PageWidgets
namespace Widget

/-- A value that a page may throw. -/
inductive Thrown where
  | text (s : String)
  | error (message : String)
  | null
  | undefined
  | bool (b : Bool)
  | number (i : Int)
  | object
  deriving DecidableEq, Repr

namespace Thrown

/-- What a thrown value has to tell. -/
def message : Thrown → String
  | .text s => s
  | .error m => m
  | .null => "JsValue(null)"
  | .undefined => "JsValue(undefined)"
  | .bool b => if b then "JsValue(true)" else "JsValue(false)"
  | .number i => "JsValue(" ++ toString i ++ ")"
  | .object => "JsValue(Object)"

end Thrown

/-- Why a widget could not be set up or brought up to date. -/
inductive Fault where
  | page (thrown : Thrown)
  | wrongElement (kind : String)
  deriving DecidableEq, Repr

namespace Fault

/-- The fault of a page that refused something. -/
def ofPage (f : Page.Fault) : Fault := .page (.error f.message)

def message : Fault → String
  | .page thrown => "DOM error: " ++ thrown.message
  | .wrongElement kind => "element is not a " ++ kind

end Fault
end Widget
end PageWidgets
