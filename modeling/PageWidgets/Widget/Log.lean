/-! The log of a program, as a browser's console shows it. Nothing is shown before the log is set up, and then
    only what is at least as severe as its level. -/

namespace PageWidgets
namespace Widget

/-- How severe a line is; `off` lets none through. -/
inductive Level where
  | off
  | error
  | warn
  | info
  | debug
  | trace
  deriving DecidableEq, Repr

namespace Level

def all : List Level := [.off, .error, .warn, .info, .debug, .trace]

def rank : Level → Nat
  | .off => 0
  | .error => 1
  | .warn => 2
  | .info => 3
  | .debug => 4
  | .trace => 5

def name : Level → String
  | .off => "off"
  | .error => "error"
  | .warn => "warn"
  | .info => "info"
  | .debug => "debug"
  | .trace => "trace"

/-- Where the console shows a line: it has no place for the finest ones. -/
def console : Level → String
  | .trace => "debug"
  | l => l.name

/-- The level of that name. -/
def ofName? (s : String) : Option Level := all.find? fun l => l.name = s

end Level

/-- A log: its level, and the lines shown, each with where it is shown. -/
structure Log where
  level : Level
  lines : List (String × String)
  deriving DecidableEq, Repr

namespace Log

/-- A log that is not set up. -/
def silent : Log := ⟨.off, []⟩

/-- Writes a line about a part of the program. -/
def write (l : Log) (level : Level) (part text : String) : Log :=
  if level.rank ≤ l.level.rank then { l with lines := l.lines ++ [(level.console, "[" ++ part ++ "] " ++ text)] }
  else l

end Log
end Widget
end PageWidgets
