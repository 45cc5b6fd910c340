import PageWidgets.Tester.Browser
import PageWidgets.Tester.Report

/-! The options of a run and how they are read from a command line. Arguments are read from left to right. An
    option takes the next argument as its value unless that starts with a hyphen; whether the value is allowed
    is decided when the next option comes, or at the end. -/

namespace PageWidgets
namespace Tester

/-- Where scenarios are run. -/
inductive Mode where
  | logic
  | browser
  | both
  deriving DecidableEq, Repr

namespace Mode

def all : List Mode := [.logic, .browser, .both]

def word : Mode → String
  | .logic => "logic"
  | .browser => "browser"
  | .both => "both"

/-- Are the checks run? -/
def runsChecks (m : Mode) : Bool := m ≠ .browser

/-- Are the scripts run? -/
def runsScripts (m : Mode) : Bool := m ≠ .logic

end Mode

namespace Format

def all : List Format := [.console, .json, .markdown]

def word : Format → String
  | .console => "console"
  | .json => "json"
  | .markdown => "markdown"

end Format

/-- Whether browsers show their windows. -/
inductive Display where
  | headless
  | windowed
  deriving DecidableEq, Repr

namespace Display

def all : List Display := [.headless, .windowed]

def word : Display → String
  | .headless => "headless"
  | .windowed => "windowed"

end Display

/-- The options of a run. -/
structure Options where
  mode : Mode := .logic
  scenarios : String := "all"
  listScenarios : Bool := false
  report : Format := .console
  verbose : Bool := false
  output : Option String := none
  browsers : String := "chrome"
  baseUrl : String := "http://localhost:8080/?test=1"
  artifactsDir : String := "target/test-artifacts"
  hub : Option String := none
  display : Display := .headless
  deriving DecidableEq, Repr

/-- How sessions with browsers are opened: without a window or not, how many seconds a browser waits for an element,
    and at which hub, when it is not at the driver on this machine. -/
structure SessionSettings where
  headless : Bool
  wait : Nat
  hub : Option String
  deriving DecidableEq, Repr

/-- How a run opens its sessions. -/
def Options.sessionSettings (o : Options) : SessionSettings := ⟨o.display = .headless, 3, o.hub⟩

/-! ### Arguments -/

/-- What can be given on the command line. -/
inductive Argument where
  | mode
  | scenarios
  | listScenarios
  | report
  | verbose
  | output
  | browsers
  | baseUrl
  | artifactsDir
  | hub
  | display
  | help
  | version
  deriving DecidableEq, Repr

namespace Argument

/-- The arguments in the order that the help gives them. -/
def all : List Argument :=
  [.mode, .scenarios, .listScenarios, .report, .verbose, .output, .browsers, .baseUrl, .artifactsDir, .hub,
   .display, .help, .version]

/-- The name after two hyphens. -/
def long : Argument → String
  | .mode => "mode"
  | .scenarios => "scenarios"
  | .listScenarios => "list-scenarios"
  | .report => "report"
  | .verbose => "verbose"
  | .output => "output"
  | .browsers => "browsers"
  | .baseUrl => "base-url"
  | .artifactsDir => "artifacts-dir"
  | .hub => "hub"
  | .display => "headless"
  | .help => "help"
  | .version => "version"

/-- The letter after one hyphen, where there is one. -/
def short? : Argument → Option Char
  | .verbose => some 'v'
  | .help => some 'h'
  | .version => some 'V'
  | _ => none

/-- Does the argument stand alone, without a value? -/
def isFlag : Argument → Bool
  | .listScenarios | .verbose | .help | .version => true
  | _ => false

/-- The words allowed as the value, where only some are. -/
def words : Argument → List String
  | .mode => Mode.all.map Mode.word
  | .report => Format.all.map Format.word
  | .display => Display.all.map Display.word
  | _ => []

/-- The name for the value in the help. -/
def valueName : Argument → String
  | .mode => "MODE"
  | .scenarios => "SCENARIOS"
  | .report => "REPORT"
  | .output => "OUTPUT"
  | .browsers => "BROWSERS"
  | .baseUrl => "BASE_URL"
  | .artifactsDir => "ARTIFACTS_DIR"
  | .hub => "HUB"
  | .display => "HEADLESS"
  | _ => ""

/-- The argument as messages name it. -/
def shown (a : Argument) : String :=
  "--" ++ a.long ++ (if a.isFlag then "" else " <" ++ a.valueName ++ ">")

/-- The argument of that name. -/
def ofLong? (name : String) : Option Argument := all.find? fun a => a.long = name

/-- The argument of that letter. -/
def ofShort? (c : Char) : Option Argument := all.find? fun a => a.short? = some c

/-- The options with a value given to an argument, when the value is allowed. -/
def give (a : Argument) (value : String) (o : Options) : Option Options :=
  match a with
  | .mode => (Mode.all.find? fun m => m.word = value).map fun m => { o with mode := m }
  | .report => (Format.all.find? fun f => f.word = value).map fun f => { o with report := f }
  | .display => (Display.all.find? fun d => d.word = value).map fun d => { o with display := d }
  | .scenarios => some { o with scenarios := value }
  | .browsers => some { o with browsers := value }
  | .baseUrl => some { o with baseUrl := value }
  | .artifactsDir => some { o with artifactsDir := value }
  | .hub => some { o with hub := some value }
  | .output => if value.isEmpty then none else some { o with output := some value }
  | .listScenarios => some { o with listScenarios := true }
  | .verbose => some { o with verbose := true }
  | .help | .version => some o

end Argument

/-- Why a command line does not lead to a run. -/
inductive UsageFault where
  | badValue (a : Argument) (value : String)
  | missingValue (a : Argument)
  | unwantedValue (a : Argument) (value : String)
  | repeated (a : Argument)
  | unknown (text : String)
  | help (long : Bool)
  | version
  deriving DecidableEq, Repr

/-! ### Reading -/

/-- How far a command line is read: the options so far, the arguments that were used, and the argument whose
    value is still open or not yet judged. -/
structure Reading where
  options : Options := {}
  used : List Argument := []
  pending : Option (Argument × Option String) := none
  deriving DecidableEq, Repr

namespace Reading

/-- Uses an argument with its value; none may be used twice. -/
def use (r : Reading) (a : Argument) (value : String) : Except UsageFault Reading :=
  if r.used.contains a then .error (.repeated a)
  else
    match a.give value r.options with
    | none => .error (.badValue a value)
    | some o => .ok { r with options := o, used := a :: r.used }

/-- Judges the argument that is pending. -/
def settle (r : Reading) : Except UsageFault Reading :=
  match r.pending with
  | none => .ok r
  | some (a, none) => .error (.missingValue a)
  | some (a, some value) => { r with pending := none }.use a value

/-- Uses an argument that stands alone. -/
def flag (r : Reading) (a : Argument) (long : Bool) : Except UsageFault Reading :=
  match r.settle with
  | .error f => .error f
  | .ok r =>
    match a with
    | .help => .error (.help long)
    | .version => .error .version
    | a => r.use a ""

/-- Reads an argument after its two hyphens. -/
def longArgument (r : Reading) (l : List Char) : Except UsageFault Reading :=
  let (name, value) := match Text.splitOnce '=' l with
    | some (name, value) => (String.ofList name, some (String.ofList value))
    | none => (String.ofList l, none)
  match Argument.ofLong? name with
  | none => .error (.unknown ("--" ++ name))
  | some a =>
    if a.isFlag then
      match value with
      | some v => .error (.unwantedValue a v)
      | none => r.flag a true
    else
      match r.settle with
      | .error f => .error f
      | .ok r =>
        match value with
        | some v => r.use a v
        | none => .ok { r with pending := some (a, none) }

/-- Reads letters after one hyphen. -/
def shortArguments (r : Reading) : List Char → Except UsageFault Reading
  | [] => .ok r
  | c :: rest =>
    match Argument.ofShort? c with
    | none => .error (.unknown (String.ofList ['-', c]))
    | some a =>
      match r.flag a false with
      | .error f => .error f
      | .ok r => r.shortArguments rest

/-- Reads an argument that is no option: the value that is awaited, or nothing known. -/
def valueArgument (r : Reading) (text : String) : Except UsageFault Reading :=
  match r.pending with
  | some (a, none) => .ok { r with pending := some (a, some text) }
  | _ => .error (.unknown text)

/-- Reads arguments; two hyphens alone allow nothing after them. -/
def arguments (r : Reading) : List String → Except UsageFault Reading
  | [] => r.settle
  | text :: rest =>
    let next := match text.toList with
      | '-' :: '-' :: l => r.longArgument l
      | '-' :: c :: l => r.shortArguments (c :: l)
      | _ => r.valueArgument text
    if text = "--" then
      match rest with
      | [] => r.settle
      | stray :: _ => .error (.unknown stray)
    else
      match next with
      | .error f => .error f
      | .ok r => r.arguments rest

end Reading

/-- The options that arguments ask for. -/
def Options.ofArguments (args : List String) : Except UsageFault Options :=
  (({} : Reading).arguments args).map (·.options)

end Tester
end PageWidgets
