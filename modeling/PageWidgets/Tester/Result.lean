import PageWidgets.Tester.Duration

/-! What came of a scenario: where it ran, whether it passed, what failed, and how long it took. -/

namespace PageWidgets
namespace Tester

open Json

/-- What came of a scenario. -/
structure Result where
  scenario : String
  target : String
  passed : Bool
  failures : List String
  duration : Duration
  deriving DecidableEq, Repr

namespace Result

/-- The result of a scenario that passed, or failed for one reason. -/
def ofOutcome (scenario target : String) (failure : Option String) (duration : Duration) : Result :=
  ⟨scenario, target, failure.isNone, failure.toList, duration⟩

/-- The JSON value of a result. -/
def toValue (r : Result) : Value :=
  .object [("scenario_name", .string r.scenario), ("target", .string r.target), ("passed", .bool r.passed),
    ("failures", .strings r.failures), ("duration", r.duration.toValue)]

/-- The fields in order; none may be left out. -/
def shape : Shape Result where
  title := "struct ScenarioResult"
  blank := ⟨"", "", false, [], .zero⟩
  slots :=
    [⟨"scenario_name", Reader.string.map fun v r => { r with scenario := v }, false, false⟩,
     ⟨"target", Reader.string.map fun v r => { r with target := v }, false, false⟩,
     ⟨"passed", Reader.bool.map fun v r => { r with passed := v }, false, false⟩,
     ⟨"failures", (Reader.list .string).map fun v r => { r with failures := v }, false, false⟩,
     ⟨"duration", Duration.reader.map fun v r => { r with duration := v }, false, false⟩]

/-- Reads a result. -/
def reader : Reader Result := shape.reader

/-- Reads a list of results. -/
def listReader : Reader (List Result) := .list reader

end Result
end Tester
end PageWidgets
