import PageWidgets.Tester.Options

/-! What a user is told about the command line: the help, short and long, the version, and messages on faults. -/

namespace PageWidgets
namespace Tester

def programName : String := "fsqr-tester"

def programVersion : String := "0.1.0"

def programPurpose : String := "Automated QA for the FSQR consent overlay and retention select"

namespace Argument

/-- What an argument is for. The short and the long help name each other. -/
def purpose (long : Bool) : Argument → String
  | .mode => "Test mode: logic (fast), browser (real DOM), or both"
  | .scenarios => "Scenarios to run (comma-separated, or `all`)"
  | .listScenarios => "List all available scenarios and exit"
  | .report => "Output report format"
  | .verbose => "Verbose output"
  | .output => "Optional path to write the report output instead of stdout"
  | .browsers => "Browsers to run (chrome,edge,firefox,safari) - browser mode only"
  | .baseUrl => "Base URL of the demo page (should include ?test=1 to expose the bridge)"
  | .artifactsDir => "Artifacts directory for screenshots and logs"
  | .hub => "Connect to a Selenium Grid/Appium hub instead of local drivers"
  | .display => "Run headless where supported"
  | .help => if long then "Print help (see a summary with '-h')" else "Print help (see more with '--help')"
  | .version => "Print version"

/-- What each word allowed as the value means, where that is explained. -/
def wordPurposes : Argument → List (String × String)
  | .mode =>
    [("logic", "State-machine checks against the core crate (fast, no browser)"),
     ("browser", "Browser automation against a served page"),
     ("both", "Run both logic and browser tests")]
  | .display =>
    [("headless", "Run browsers in headless mode"), ("windowed", "Run browsers with visible windows")]
  | _ => []

/-- The value that counts when none is given. -/
def default? : Argument → Option String
  | .mode => some ({} : Options).mode.word
  | .scenarios => some ({} : Options).scenarios
  | .report => some ({} : Options).report.word
  | .browsers => some ({} : Options).browsers
  | .baseUrl => some ({} : Options).baseUrl
  | .artifactsDir => some ({} : Options).artifactsDir
  | .display => some ({} : Options).display.word
  | _ => none

/-- The argument with its letter, or a gap as wide. -/
def heading (a : Argument) : String :=
  (match a.short? with
    | some c => "  -" ++ c.toString ++ ", "
    | none => "      ") ++ a.shown

end Argument

namespace Help

/-- Text filled up with blanks on the right. -/
def filled (width : Nat) (s : String) : String := s ++ String.ofList (List.replicate (width - s.length) ' ')

/-- The notes on the default and the allowed words. -/
def notes (a : Argument) (withWords : Bool) : List String :=
  (a.default?.toList.map fun d => "[default: " ++ d ++ "]")
    ++ (if withWords && !a.words.isEmpty then ["[possible values: " ++ Text.join ", " a.words ++ "]"] else [])

def indent : String := "          "

/-- The lines on an argument in the short help. -/
def shortLines (a : Argument) : List String :=
  [a.heading, indent ++ Text.join " " (a.purpose false :: notes a true)]

/-- The explanation of the words allowed as the value. -/
def wordLines (a : Argument) : List String :=
  if a.wordPurposes.isEmpty then []
  else
    let width := (a.wordPurposes.map fun p => p.1.length).foldl max 0
    ["", indent ++ "Possible values:"]
      ++ a.wordPurposes.map fun p => indent ++ "- " ++ filled (width + 2) (p.1 ++ ":") ++ p.2

/-- The lines on an argument in the long help. -/
def longLines (a : Argument) : List String :=
  let remarks := notes a a.wordPurposes.isEmpty
  [a.heading, indent ++ a.purpose true] ++ wordLines a
    ++ (if remarks.isEmpty then [] else indent :: remarks.map (indent ++ ·))

/-- The help. -/
def lines (long : Bool) : List String :=
  [programPurpose, "", "Usage: " ++ programName ++ " [OPTIONS]", "", "Options:"]
    ++ (if long then ((Argument.all.map longLines).intersperse [""]).flatten else Argument.all.flatMap shortLines)

end Help

namespace UsageFault

/-- The lines on a fault that is none, but asks for something to be told. -/
def told? : UsageFault → Option (List String)
  | .help long => some (Help.lines long)
  | .version => some [programName ++ " " ++ programVersion]
  | _ => none

/-- The allowed words, when there are only some. -/
def allowedLine (a : Argument) : List String :=
  if a.words.isEmpty then [] else ["  [possible values: " ++ Text.join ", " a.words ++ "]"]

/-- The cause of a fault. -/
def cause : UsageFault → List String
  | .badValue a value =>
    if value.isEmpty then
      ("error: a value is required for '" ++ a.shown ++ "' but none was supplied") :: allowedLine a
    else ("error: invalid value '" ++ value ++ "' for '" ++ a.shown ++ "'") :: allowedLine a
  | .missingValue a =>
    ("error: a value is required for '" ++ a.shown ++ "' but none was supplied") :: allowedLine a
  | .unwantedValue a value =>
    ["error: unexpected value '" ++ value ++ "' for '" ++ a.shown ++ "' found; no more were expected"]
  | .repeated a => ["error: the argument '" ++ a.shown ++ "' cannot be used multiple times"]
  | .unknown text => ["error: unexpected argument '" ++ text ++ "' found"]
  | .help _ | .version => []

/-- Does the message on a fault recall the usage? One on a value does not. -/
def recallsUsage : UsageFault → Bool
  | .badValue _ _ | .missingValue _ => false
  | _ => true

/-- The message on a fault. -/
def message (f : UsageFault) : List String :=
  f.cause ++ (if f.recallsUsage then ["", "Usage: " ++ programName ++ " [OPTIONS]"] else [])
    ++ ["", "For more information, try '--help'."]

end UsageFault
end Tester
end PageWidgets
