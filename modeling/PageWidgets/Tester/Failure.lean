import PageWidgets.Json.Printed
import PageWidgets.Tester.Address
import PageWidgets.Tester.PageState

/-! Why a scenario fails. A failure has one or more messages, the outermost first; they are written on one line
    with colons between them. -/

namespace PageWidgets
namespace Tester

/-- Why a scenario fails. -/
inductive Failure where
  | remote (text : String)
  | address (f : Address.Fault)
  | hookAbsent
  | stateUnread (e : Json.ReadError)
  | notCounted (v : Json.Value)
  | noElement (selector : String)
  | noSelect (id : String)
  | undecodable (f : Consent.DecodeFault)
  | unmet (expectation : String)

namespace Failure

/-- The messages of a failure, the outermost first. -/
def messages : Failure → List String
  | .remote text => [text]
  | .address f => ["An argument passed to the WebDriver server was invalid: " ++ f.message]
  | .hookAbsent => ["__fsqrTest is not available. Did you pass ?test=1 to the page?"]
  | .stateUnread e => ["parsing bridge state", e.message]
  | .notCounted v => ["enhance() returned " ++ v.compact]
  | .noElement selector => ["no element matches `" ++ selector ++ "`"]
  | .noSelect id => ["no enhanced select with id `" ++ id ++ "`"]
  | .undecodable f => [f.message]
  | .unmet expectation => [expectation]

/-- Messages on one line. -/
def line (messages : List String) : String := Text.join ": " messages

/-- The failure on one line. -/
def text (f : Failure) : String := line f.messages

end Failure

/-- The select of that id in the state of a page. -/
def PageState.select (s : PageState) (id : String) : Except Failure SelectState :=
  match s.select? id with
  | some x => .ok x
  | none => .error (.noSelect id)

end Tester
end PageWidgets
