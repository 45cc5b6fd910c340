/-! Parts of a text. -/

namespace PageWidgets
namespace Text

/-- Does `part` stand somewhere in the text? -/
def hasPart (part : List Char) : List Char → Bool
  | [] => part.isEmpty
  | c :: rest => part.isPrefixOf (c :: rest) || hasPart part rest

end Text
end PageWidgets
