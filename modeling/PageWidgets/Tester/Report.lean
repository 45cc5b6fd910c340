import PageWidgets.Json.Printed
import PageWidgets.Tester.Colour
import PageWidgets.Tester.Result

/-! Reports on results: for a console, as JSON, and as Markdown. A report is a list of lines, each of which ends
    in a line break. -/

namespace PageWidgets
namespace Tester

/-- The forms of a report. -/
inductive Format where
  | console
  | json
  | markdown
  deriving DecidableEq, Repr

namespace Report

/-! ### Counts -/

/-- How many scenarios there were, and how many passed. -/
structure Tally where
  total : Nat
  passed : Nat
  deriving DecidableEq, Repr

namespace Tally

/-- The counts of results. -/
def ofResults (results : List Result) : Tally := ⟨results.length, results.countP (·.passed)⟩

def failed (t : Tally) : Nat := t.total - t.passed

open Json.Binary64 in
/-- The percentage that passed, in tenths: the ratio is rounded to 53 binary digits, so is its product with a
    hundred, and that to the nearest tenth, a half going to the even neighbour. -/
def rateTenths (t : Tally) : Nat :=
  if t.total = 0 then 0
  else
    match ofRatio t.passed t.total, ofRatio 100 1 with
    | some ratio, some hundred =>
      match product ratio hundred with
      | some (m, e) => let (num, den) := scaleDown (10 * m) 1 (-e); nearest num den
      | none => 0
    | _, _ => 0

/-- The percentage that passed, with one decimal. -/
def rateText (t : Tally) : String :=
  toString (t.rateTenths / 10) ++ "." ++ toString (t.rateTenths % 10) ++ "%"

end Tally

/-- Lines as one text. -/
def text (lines : List String) : String := String.join (lines.map (· ++ "\n"))

/-! ### Console -/

/-- The lines on one result. -/
def consoleBlock (pen : Pen) (r : Result) : List String :=
  let status := if r.passed then pen.write (.plain .green) "✅ PASS" else pen.write (.plain .red) "❌ FAIL"
  [status ++ " " ++ pen.write .bare r.scenario ++ " [" ++ r.target ++ "]", "   Time: " ++ r.duration.text]
    ++ (if r.failures.isEmpty then []
        else "   Failures:" :: r.failures.map fun f => "     • " ++ pen.write (.plain .red) f)
    ++ [""]

/-- The report for a console, with the time that all took. -/
def console (pen : Pen) (results : List Result) (total : Duration) : List String :=
  let t := Tally.ofResults results
  ["", pen.write (.strong .brightCyan) "📊 Widget Test Results Summary",
   pen.write (.plain .cyan) "===============================",
   "Total scenarios: " ++ toString t.total,
   "Passed: " ++ pen.write (.plain .green) (toString t.passed),
   "Failed: " ++ pen.write (.plain .red) (toString t.failed),
   "Success rate: " ++ t.rateText,
   "Total time: " ++ total.text,
   ""]
    ++ results.flatMap (consoleBlock pen)

/-! ### JSON -/

/-- The report as a JSON array over several lines. -/
def json (results : List Result) : List String := [(Json.Value.array (results.map Result.toValue)).pretty]

/-! ### Markdown -/

def title : String := "# FSQR Widget Test Results"

/-- The row of a result in the table. -/
def markdownRow (r : Result) : String :=
  "| " ++ r.scenario ++ " | " ++ r.target ++ " | " ++ (if r.passed then "✅" else "❌") ++ " | " ++ r.duration.text
    ++ " |"

/-- The lines on a result that failed. -/
def markdownFailure (r : Result) : List String :=
  ["### " ++ r.scenario ++ " (" ++ r.target ++ ")", ""] ++ r.failures.map ("- " ++ ·) ++ [""]

/-- The section on results that failed, when there are any. -/
def markdownFailures (results : List Result) : List String :=
  let failed := results.filter fun r => !r.passed
  if failed.isEmpty then [] else ["", "## Failures", ""] ++ failed.flatMap markdownFailure

/-- The report as Markdown. -/
def markdown (results : List Result) : List String :=
  let t := Tally.ofResults results
  [title, "", "## Summary", "",
   "- **Total scenarios**: " ++ toString t.total,
   "- **Passed**: " ++ toString t.passed,
   "- **Failed**: " ++ toString t.failed,
   "- **Success rate**: " ++ t.rateText,
   "", "## Detailed Results", "",
   "| Scenario | Target | Result | Time |",
   "|---|---|---|---|"]
    ++ results.map markdownRow
    ++ markdownFailures results

/-! ### Reports of whole runs -/

/-- The report that a run ends with. One without results says so, except in JSON; a console is told the time
    once more. -/
def ofRun (format : Format) (pen : Pen) (results : List Result) (total : Duration) : List String :=
  match format with
  | .json => json results
  | .markdown => if results.isEmpty then [title, "", "_No scenarios executed._"] else markdown results
  | .console =>
    (if results.isEmpty then ["No scenarios executed."] else console pen results total)
      ++ ["", "🏁 Total time: " ++ total.text]

end Report
end Tester
end PageWidgets
