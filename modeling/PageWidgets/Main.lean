import PageWidgets.Tester.Program
import Std.Time

/-! The tester's command line: it looks at the surroundings, plans the run, prints what there is to print, and
    writes the document. No session with a browser is opened from here; a browser that is asked for is reported
    as one that cannot be reached. -/

namespace PageWidgets
namespace Tester
namespace Program

/-- Are colours wanted? A setting that forces them comes first, then one that forbids them; else they are for
    terminals, unless they are switched off. -/
def wantsColour (forced forbidden setting : Option String) (terminal : Bool) : Bool :=
  if forced.any (· ≠ "0") then true
  else if forbidden.isSome then false
  else setting.all (· ≠ "0") && terminal

/-- The surroundings as they are. -/
def surroundings : IO Environment := do
  let forced ← IO.getEnv "CLICOLOR_FORCE"
  let forbidden ← IO.getEnv "NO_COLOR"
  let setting ← IO.getEnv "CLICOLOR"
  let terminal ← (← IO.getStdout).isTty
  let now ← Std.Time.Timestamp.now
  pure
    { now := now.toMillisecondsSinceUnixEpoch.val
      spent := fun _ => .zero
      pen := ⟨wantsColour forced forbidden setting terminal⟩
      connect := fun r =>
        .error ("Failed to send request to webdriver: error sending request for url (" ++ r.address ++ ")")
      writable := fun _ => true }

/-- The surroundings with the time that the check of every name takes. -/
def timed (e : Environment) (names : List String) : IO Environment := do
  let times ← names.mapM fun name => do
    let start ← IO.monoNanosNow
    let _ ← IO.lazyPure fun _ => (Run.checkEntry e false name).toBool
    let stop ← IO.monoNanosNow
    pure (name, Duration.mk (stop - start))
  pure { e with spent := fun name => (times.lookup name).getD .zero }

/-- The names whose checks are run. -/
def checkedNames (args : List String) : List String :=
  match Options.ofArguments args with
  | .ok o => if o.mode.runsChecks && !o.listScenarios then expandNames o.scenarios else []
  | .error _ => []

/-- Prints a line to its stream. -/
def printLine : Line → IO Unit
  | .out text => IO.println text
  | .err text => IO.eprintln text

/-- Why the system refuses to create a file, or to fill it. -/
def outputFault : IO.Error → OutputFault
  | .noFileOrDirectory _ _ _ => .noFolder
  | .inappropriateType _ 20 _ => .notFolder
  | .inappropriateType _ 21 _ => .isFolder
  | .invalidArgument _ 36 _ => .longName
  | .resourceExhausted _ 28 _ => .full
  | e => .other (toString e)

/-- Creates the file of a plan that has one. -/
def create (p : Plan) : IO (Except OutputFault Unit) := do
  match p.document, p.output with
  | some _, some path =>
    try
      IO.FS.writeFile path ""
      pure (.ok ())
    catch e => pure (.error (outputFault e))
  | _, _ => pure (.ok ())

/-- Writes the files of a failure to its folder. -/
def writeFiled (f : Run.Filed) : IO Unit := do
  try
    IO.FS.createDirAll f.folder
    f.written.forM fun (name, bytes) => IO.FS.writeBinFile (Evidence.inFolder f.folder name) ⟨bytes.toArray⟩
  catch _ => pure ()

/-- Does what the arguments ask for. -/
def start (args : List String) : IO UInt32 := do
  let begun ← IO.monoNanosNow
  let e ← timed (← surroundings) (checkedNames args)
  match Plan.ofArguments e args with
  | .error overflow =>
    IO.eprintln overflow.message
    pure 101
  | .ok plan =>
    plan.filed.forM writeFiled
    let created ← create plan
    let ended ← IO.monoNanosNow
    let ending := plan.finish created ⟨ended - begun⟩
    ending.lines.forM printLine
    match ending.written with
    | none => pure (UInt32.ofNat ending.code)
    | some (path, lines) =>
      try
        IO.FS.writeFile path (Report.text lines)
        pure (UInt32.ofNat ending.code)
      catch e =>
        (Plan.stopLines (outputFault e) path).forM printLine
        pure 1

end Program
end Tester
end PageWidgets

def main (args : List String) : IO UInt32 := PageWidgets.Tester.Program.start args
