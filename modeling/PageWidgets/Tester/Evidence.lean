import PageWidgets.Calendar.MailDate
import PageWidgets.Tester.Hook
import PageWidgets.Text.Base64

/-! Evidence of a failure in a browser: a picture of the page, its source, the state it tells, and a summary.
    What the browser does not deliver any more is left out. -/

namespace PageWidgets
namespace Tester

/-- Evidence of a failure. -/
structure Evidence where
  screenshot : Option (List UInt8)
  source : Option String
  state : Option PageState
  failure : String
  deriving DecidableEq, Repr

namespace Evidence

/-! ### Collecting -/

/-- The value of a step, when it does not fail. -/
def attempt {α : Type} (step : Step α) : StateM Session (Option α) := do
  match ← step.run with
  | .ok a => pure (some a)
  | .error _ => pure none

/-- Collects what the page still offers after a failure. -/
def collect (f : Failure) : StateM Session Evidence := do
  let state ← attempt Step.pageState
  let picture ← attempt (Step.send .screenshot)
  let source ← attempt (Step.send .source)
  pure
    { screenshot := (picture.bind (·.asString?)).bind fun s => Text.base64Decode s.toList
      source := source.bind (·.asString?)
      state
      failure := f.text }

/-! ### Files -/

/-- The line on consent. -/
def consentLine (s : ConsentState) : String :=
  match s.error, s.record with
  | some error, _ => "consent: cookie present but undecodable (" ++ error ++ ")"
  | none, some r => "consent: " ++ r.shown
  | none, none => if s.present then "consent: cookie present" else "consent: no cookie"

/-- The line on a select. -/
def selectLine (s : SelectState) : String :=
  "select #" ++ s.id ++ ": " ++ (if s.isOpen then "open" else "closed")
    ++ " active=" ++ toString s.active
    ++ " selected=" ++ ((s.selected.map toString).getD "-")
    ++ " value=" ++ s.value.getD "-"
    ++ " listeners=" ++ (if s.listening then "on" else "off")

/-- The lines on the state of a page. -/
def stateLines (s : PageState) : List String :=
  consentLine s.consent :: (if s.selects.isEmpty then ["selects: none enhanced"] else s.selects.map selectLine)

/-- The summary: the failure, and what is known of the page. -/
def summary (e : Evidence) : String :=
  let known := match e.state with
    | none => ["bridge: unavailable"]
    | some s => stateLines s
  String.join ((("error: " ++ e.failure) :: known).map (· ++ "\n"))

/-- The files of the evidence, with their names. -/
def files (e : Evidence) : List (String × List UInt8) :=
  let bytes (s : String) := Text.utf8 s.toList
  (e.screenshot.toList.map fun p => ("screenshot.png", p))
    ++ (e.source.toList.map fun s => ("dom.html", bytes s))
    ++ (e.state.toList.map fun s => ("state.json", bytes s.toValue.pretty))
    ++ [("summary.txt", bytes e.summary)]

/-! ### Folders -/

/-- The time of an instant without any signs between its parts. -/
def stamp (t : Calendar.Instant) : String :=
  let d := Calendar.Date.ofDays t.day
  let s := t.secondOfDay
  let two := Calendar.MailDate.padded 2
  Calendar.MailDate.yearText d.year ++ two d.month ++ two d.day ++ "T" ++ two (s / 3600) ++ two (s / 60 % 60)
    ++ two (s % 60)

/-- A folder in a folder. -/
def inFolder (folder name : String) : String :=
  if name.startsWith "/" then name
  else if folder.isEmpty || folder.endsWith "/" then folder ++ name
  else folder ++ "/" ++ name

/-- The folder for a scenario that failed in a browser at an instant. -/
def folder (base browser scenario : String) (t : Calendar.Instant) : String :=
  inFolder (inFolder (inFolder base browser) scenario) (stamp t)

/-- The files that are found in a folder after the evidence was written to it, one file after the other: none when the
    folder cannot be made, else those before the first that cannot be written. -/
def written (e : Evidence) (writable : String → Bool) (folder : String) : List (String × List UInt8) :=
  if writable folder then e.files.takeWhile fun f => writable (inFolder folder f.1) else []

end Evidence
end Tester
end PageWidgets
