import PageWidgets.Tester.Help
import PageWidgets.Tester.Output
import PageWidgets.Tester.Run

/-! The program: what it prints, what it writes, and how it ends. It ends with 0 when everything passed, with 1
    when something failed or the document cannot be written, and with 2 when the arguments make no sense. -/

namespace PageWidgets
namespace Tester

/-- What the program does with its arguments: it prints lines and files evidence, and then writes a document, in
    which the time that was taken may stand. The code is the one to end with when that works. -/
structure Plan where
  lines : List Line
  filed : List Run.Filed
  document : Option (Duration → List String)
  output : Option String
  code : Nat

/-- How the program ends: all lines printed, the lines written to a file, and the code. -/
structure Ending where
  lines : List Line
  written : Option (String × List String)
  code : Nat
  deriving DecidableEq, Repr

namespace Plan

/-- The plan that only tells something. -/
def tell (lines : List Line) (code : Nat) : Plan := ⟨lines, [], none, none, code⟩

/-- The plan for a fault in the arguments; asking for help is none. -/
def ofFault (f : UsageFault) : Plan :=
  match f.told? with
  | some lines => tell (lines.map .out) 0
  | none => tell (f.message.map .err) 2

/-- The plan for options. -/
def ofOptions (e : Environment) (o : Options) : Except Consent.DateOverflow Plan :=
  if o.listScenarios then .ok ⟨[], [], some fun _ => Scenario.listing, o.output, 0⟩
  else
    match Run.ofOptions e o with
    | .error overflow => .error overflow
    | .ok r => .ok ⟨r.lines, r.filed, some (r.report e o), o.output, if r.passed then 0 else 1⟩

/-- The plan for arguments. -/
def ofArguments (e : Environment) (args : List String) : Except Consent.DateOverflow Plan :=
  match Options.ofArguments args with
  | .ok o => ofOptions e o
  | .error f => .ok (ofFault f)

/-- What is printed when a document cannot be written: the outermost message, and what caused it, if anything. -/
def stopLines (f : OutputFault) (path : String) : List Line :=
  match f.messages path with
  | [] => []
  | [only] => [.err ("Error: " ++ only)]
  | outer :: causes => (["Error: " ++ outer, "", "Caused by:"] ++ causes.map ("    " ++ ·)).map .err

/-- How a plan ends, given whether its file can be written and the time that was taken. -/
def finish (p : Plan) (writable : Except OutputFault Unit) (total : Duration) : Ending :=
  match p.document, p.output with
  | none, _ => ⟨p.lines, none, p.code⟩
  | some document, none => ⟨p.lines ++ (document total).map .out, none, p.code⟩
  | some document, some path =>
    match writable with
    | .ok () => ⟨p.lines, some (path, document total), p.code⟩
    | .error f => ⟨p.lines ++ stopLines f path, none, 1⟩

end Plan
end Tester
end PageWidgets
