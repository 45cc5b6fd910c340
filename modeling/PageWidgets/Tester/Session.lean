import PageWidgets.Tester.Failure

/-! Sessions with a remote browser. Every command that is sent takes the next reply; when the replies are used
    up, the browser answers null. What a session has sent and the notes that were taken are kept. -/

namespace PageWidgets
namespace Tester

/-- What a remote browser makes of a command: a value, or a failure with its own text. -/
inductive Reply where
  | value (v : Json.Value)
  | failure (text : String)

/-- A command to a remote browser. -/
inductive Command where
  | visit (address : String)
  | execute (script : String) (arguments : List Json.Value)
  | screenshot
  | source

/-- A session: the replies to come, the commands sent, and the notes taken, both in order. -/
structure Session where
  replies : List Reply
  sent : List Command := []
  notes : List String := []

/-- A step of a test: it may fail, and what it sent stays sent. -/
abbrev Step (α : Type) := ExceptT Failure (StateM Session) α

namespace Session

/-- The next reply. -/
def nextReply (s : Session) : Reply := s.replies.headD (.value .null)

/-- The session after a command was sent. -/
def afterSending (s : Session) (c : Command) : Session :=
  { s with replies := s.replies.drop 1, sent := s.sent ++ [c] }

end Session

namespace Step

/-- Sends a command. -/
def send (c : Command) : Step Json.Value := do
  let s ← get
  set (s.afterSending c)
  match s.nextReply with
  | .value v => pure v
  | .failure text => throw (.remote text)

/-- Runs a script in the page. -/
def execute (script : String) (arguments : List Json.Value) : Step Json.Value :=
  send (.execute script arguments)

/-- Loads a page. The address is checked first; one without a scheme is taken as a host. -/
def visit (address : String) : Step Unit :=
  match Address.complete address with
  | .error f => throw (.address f)
  | .ok address => do
    let _ ← send (.visit address)

/-- Takes a note. -/
def note (text : String) : Step Unit := modify fun s => { s with notes := s.notes ++ [text] }

/-- Fails unless the condition holds. -/
def ensure (condition : Bool) (expectation : String) : Step Unit :=
  if condition then pure () else throw (.unmet expectation)

/-- The value of an attempt, or its failure. -/
def lift {α : Type} : Except Failure α → Step α
  | .ok a => pure a
  | .error f => throw f

/-- What a step comes to, and the session after it. -/
def runIn {α : Type} (step : Step α) (s : Session) : Except Failure α × Session := (ExceptT.run step).run s

end Step
end Tester
end PageWidgets
