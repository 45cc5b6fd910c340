import PageWidgets.Text.Fold

/-! The kinds of browser that scenarios run in. -/

namespace PageWidgets
namespace Tester

inductive Browser where
  | chrome
  | edge
  | firefox
  | safari
  deriving DecidableEq, Repr

namespace Browser

def all : List Browser := [.chrome, .edge, .firefox, .safari]

def label : Browser → String
  | .chrome => "chrome"
  | .edge => "edge"
  | .firefox => "firefox"
  | .safari => "safari"

/-- The kind of that name, in any case. -/
def ofName? (name : String) : Option Browser := all.find? fun b => b.label = Text.fold name

end Browser
end Tester
end PageWidgets
