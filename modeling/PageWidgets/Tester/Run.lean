import PageWidgets.Tester.Evidence
import PageWidgets.Tester.Options
import PageWidgets.Tester.Script

/-! Runs of scenarios. Every name of the list leads to an entry: what is printed, and a result when the name is
    one of a scenario that can be run. No entry keeps the next one from being run. -/

namespace PageWidgets
namespace Tester

/-- A line printed to one of the two streams. -/
inductive Line where
  | out (text : String)
  | err (text : String)
  deriving DecidableEq, Repr

namespace Line

/-- The text of a line of the standard output. -/
def out? : Line → Option String
  | .out text => some text
  | .err _ => none

/-- The text of a line of the error output. -/
def err? : Line → Option String
  | .out _ => none
  | .err text => some text

end Line

/-- A session that is asked for: the address of the driver, the browser, whether it shows no window, and how many
    seconds it waits for an element. -/
structure SessionRequest where
  address : String
  browser : Browser
  headless : Bool
  wait : Nat
  deriving DecidableEq, Repr

/-- What a run depends on besides its options: the clock, the time that the entry of a name takes, whether there
    are colours, how a session is opened, and which paths can be written to. -/
structure Environment where
  now : Calendar.Instant
  spent : String → Duration
  pen : Pen
  connect : SessionRequest → Except String Session
  writable : String → Bool

namespace Run

/-! ### Checks -/

/-- What a name of a scenario led to. -/
structure Entry where
  lines : List Line
  result : Option Result
  deriving DecidableEq, Repr

def yellow (e : Environment) (text : String) : String := e.pen.write (.plain .yellow) text

/-- The entry of a name that no scenario has. -/
def unknownLine (e : Environment) (name : String) : Line := .err ("⚠️  Unknown scenario: " ++ yellow e name)

/-- The entry of a scenario with a check. -/
def checked (e : Environment) (verbose : Bool) (name : String) (s : Scenario)
    (expectations : List Expectation) : Entry :=
  ⟨if verbose then [.out ("🧪 Testing scenario: " ++ e.pen.write (.plain .brightWhite) s.name)] else [],
   some (.ofOutcome s.name "logic" (Expectation.firstUnmet expectations) (e.spent name))⟩

/-- Runs the check that a name asks for. -/
def checkEntry (e : Environment) (verbose : Bool) (name : String) : Except Consent.DateOverflow Entry :=
  match Scenario.ofName? name with
  | none => .ok ⟨[unknownLine e name], none⟩
  | some s =>
    match s.check? e.now with
    | none => .ok ⟨[.err ("⚠️  Scenario " ++ yellow e name ++ " has no logic test implementation")], none⟩
    | some (.error overflow) => .error overflow
    | some (.ok expectations) => .ok (checked e verbose name s expectations)

/-- Runs the checks that names ask for, in order. -/
def checkEntries (e : Environment) (verbose : Bool) : List String → Except Consent.DateOverflow (List Entry)
  | [] => .ok []
  | name :: names =>
    match checkEntry e verbose name with
    | .error overflow => .error overflow
    | .ok entry => (checkEntries e verbose names).map (entry :: ·)

/-! ### Scripts -/

/-- Evidence of a failure, with the folder it goes to, the browser and the name it belongs to, and the files that were
    written. -/
structure Filed where
  folder : String
  browser : String
  name : String
  evidence : Evidence
  written : List (String × List UInt8)
  deriving DecidableEq, Repr

/-- What a name of a scenario led to in a browser. -/
structure ScriptEntry where
  lines : List Line
  result : Option Result
  filed : Option Filed
  deriving DecidableEq, Repr

/-- The notes of a session as lines, when they are wanted. -/
def noteLines (verbose : Bool) (s : Session) : List Line :=
  if verbose then s.notes.map fun n => .out ("  " ++ n) else []

/-- The entry of a script that came to its end. -/
def passedEntry (e : Environment) (o : Options) (label name : String) (s : Scenario) (after : Session) :
    ScriptEntry :=
  let line := "✅ [" ++ e.pen.write (.plain .green) label ++ "] " ++ name ++ " - " ++ (e.spent name).text
  ⟨noteLines o.verbose after ++ [.out line], some (.ofOutcome s.name label none (e.spent name)), none⟩

/-- The entry of a script that failed. -/
def failedEntry (e : Environment) (o : Options) (label name : String) (s : Scenario) (after : Session)
    (f : Failure) (evidence : Evidence) : ScriptEntry :=
  let folder := Evidence.folder o.artifactsDir label name e.now
  let written := evidence.written e.writable folder
  let line := "❌ [" ++ e.pen.write (.plain .red) label ++ "] " ++ name ++ " - " ++ (e.spent name).text ++ ": " ++ f.text
  let saved := if written = evidence.files then [Line.err ("   📁 artifacts in " ++ folder)] else []
  ⟨noteLines o.verbose after ++ .err line :: saved, some (.ofOutcome s.name label (some f.text) (e.spent name)),
   some ⟨folder, label, name, evidence, written⟩⟩

/-- Runs the script of a scenario in a session, and collects evidence when it fails. -/
def play (e : Environment) (o : Options) (b : Browser) (name : String) (s : Scenario) (before : Session) :
    ScriptEntry × Session :=
  match (s.script o.baseUrl).runIn { before with notes := [] } with
  | (.ok (), after) => (passedEntry e o b.label name s after, after)
  | (.error f, after) =>
    let (evidence, last) := (Evidence.collect f).run after
    (failedEntry e o b.label name s after f evidence, last)

/-- Runs the script that a name asks for. -/
def scriptEntry (e : Environment) (o : Options) (b : Browser) (name : String) (before : Session) :
    ScriptEntry × Session :=
  match Scenario.ofName? name with
  | none => (⟨[unknownLine e name], none, none⟩, before)
  | some s => play e o b name s before

/-- Runs the scripts that names ask for, one after the other in one session. -/
def scriptEntries (e : Environment) (o : Options) (b : Browser) :
    List String → Session → List ScriptEntry × Session
  | [], s => ([], s)
  | name :: names, s =>
    let (entry, s) := scriptEntry e o b name s
    let (entries, s) := scriptEntries e o b names s
    (entry :: entries, s)

/-! ### Browsers -/

/-- Why no session could be opened. -/
inductive StartFault where
  | address (f : Address.Fault)
  | refused (text : String)
  deriving DecidableEq, Repr

/-- The message of such a fault. -/
def StartFault.message : StartFault → String
  | .address f => "parse error: invalid url: " ++ f.message
  | .refused text => text

/-- The address of the browser's own driver on this machine. -/
def localDriver : Browser → String
  | .chrome => "http://localhost:9515"
  | .edge => "http://localhost:17556"
  | .firefox => "http://localhost:4444"
  | .safari => "http://localhost:4445"

/-- The name of a browser. -/
def browserName : Browser → String
  | .chrome => "Chrome"
  | .edge => "Edge"
  | .firefox => "Firefox"
  | .safari => "Safari"

/-- The session that settings ask for in a browser; one of them always shows its window. -/
def request (s : SessionSettings) (b : Browser) : SessionRequest :=
  ⟨s.hub.getD (localDriver b), b, s.headless && b ≠ .safari, s.wait⟩

/-- Opens a session. -/
def start (e : Environment) (r : SessionRequest) : Except StartFault Session :=
  match Address.check r.address with
  | .error f => .error (.address f)
  | .ok () =>
    match e.connect r with
    | .ok s => .ok s
    | .error text => .error (.refused text)

/-- Runs the scripts of names in the browser of a name. -/
def browserEntries (e : Environment) (o : Options) (names : List String) (browser : String) :
    List ScriptEntry :=
  match Browser.ofName? browser with
  | none => [⟨[.err ("⚠️  Unknown browser: " ++ yellow e browser)], none, none⟩]
  | some b =>
    match start e (request o.sessionSettings b) with
    | .error f => [⟨[.err ("❌ Could not start " ++ browserName b ++ ": " ++ f.message)], none, none⟩]
    | .ok s => (scriptEntries e o b names s).1

end Run

/-! ### Whole runs -/

/-- What a run printed, its results, and the evidence of its failures. -/
structure Run where
  lines : List Line
  results : List Result
  filed : List Run.Filed
  deriving DecidableEq, Repr

namespace Run

/-- A title in a style and a row of 30 hyphens in another. -/
def sectionLines (e : Environment) (colour faint : Colour) (title : String) : List Line :=
  [.out (e.pen.write (.strong colour) title),
   .out (e.pen.write (.plain faint) (String.ofList (List.replicate 30 '-')))]

/-- The lines that every run starts with. -/
def banner (e : Environment) : List Line :=
  [.out (e.pen.write (.strong .brightCyan) "🍪 FSQR Widget Tester"),
   .out (e.pen.write (.plain .cyan) "=====================")]

/-- The part of a run without browsers. -/
def ofChecks (e : Environment) (o : Options) : Except Consent.DateOverflow Run :=
  if o.mode.runsChecks then
    match checkEntries e o.verbose (expandNames o.scenarios) with
    | .error overflow => .error overflow
    | .ok entries =>
      .ok ⟨sectionLines e .brightYellow .yellow "🧠 Running Logic Tests" ++ entries.flatMap (·.lines),
        entries.filterMap (·.result), []⟩
  else .ok ⟨[], [], []⟩

/-- The part of a run in browsers. -/
def ofScripts (e : Environment) (o : Options) : Run :=
  if o.mode.runsScripts then
    let entries := (splitList o.browsers).flatMap (browserEntries e o (expandNames o.scenarios))
    ⟨sectionLines e .brightBlue .blue "🌐 Running Browser Tests" ++ entries.flatMap (·.lines),
      entries.filterMap (·.result), entries.filterMap (·.filed)⟩
  else ⟨[], [], []⟩

/-- The run that options ask for. -/
def ofOptions (e : Environment) (o : Options) : Except Consent.DateOverflow Run :=
  match ofChecks e o with
  | .error overflow => .error overflow
  | .ok checks =>
    let scripts := ofScripts e o
    .ok ⟨banner e ++ checks.lines ++ scripts.lines, checks.results ++ scripts.results, scripts.filed⟩

/-- The report on a run. -/
def report (e : Environment) (o : Options) (r : Run) (total : Duration) : List String :=
  Report.ofRun o.report e.pen r.results total

/-- Did everything pass? -/
def passed (r : Run) : Bool := r.results.all (·.passed)

end Run
end Tester
end PageWidgets
