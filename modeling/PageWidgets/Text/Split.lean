/-! Cutting a text at a separator: at every one, or at the first. -/

namespace PageWidgets
namespace Text

/-- The part before the first separator, and the parts after it; there is always a first part. -/
def parts (d : Char) : List Char → List Char × List (List Char)
  | [] => ([], [])
  | c :: cs =>
    let (first, rest) := parts d cs
    if c = d then ([], first :: rest) else (c :: first, rest)

/-- All parts between separators. -/
def split (d : Char) (l : List Char) : List (List Char) :=
  (parts d l).1 :: (parts d l).2

/-- What stands before and after the first separator, when there is one. -/
def splitOnce (d : Char) : List Char → Option (List Char × List Char)
  | [] => none
  | c :: cs => if c = d then some ([], cs) else (splitOnce d cs).map fun (a, b) => (c :: a, b)

/-- The texts written one after the other with `sep` between them. -/
def join (sep : String) : List String → String
  | [] => ""
  | [s] => s
  | s :: rest => s ++ sep ++ join sep rest

end Text
end PageWidgets
