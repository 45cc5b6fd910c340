import PageWidgets.Json.Reader

/-! Entries of a listbox: one for every option of the native control, taken down when the listbox is made. -/

namespace PageWidgets
namespace Listbox

/-- An option: what it shows, what it stands for, whether it may be chosen, and whether it was chosen first. -/
structure Entry where
  label : String
  value : String
  disabled : Bool := false
  selected : Bool := false
  deriving DecidableEq, Repr

instance : Inhabited Entry := ⟨⟨"", "", false, false⟩⟩

namespace Entry

def enabled (e : Entry) : Bool := !e.disabled

/-- The fields in order; the two flags may be left out. -/
def shape : Json.Shape Entry where
  title := "struct OptionSnapshot"
  blank := default
  slots :=
    [⟨"label", Json.Reader.string.map fun v e => { e with label := v }, false, false⟩,
     ⟨"value", Json.Reader.string.map fun v e => { e with value := v }, false, false⟩,
     ⟨"disabled", Json.Reader.bool.map fun v e => { e with disabled := v }, true, true⟩,
     ⟨"selected", Json.Reader.bool.map fun v e => { e with selected := v }, true, true⟩]

/-- Reads a list of entries. -/
def listReader : Json.Reader (List Entry) := .list shape.reader

/-- The JSON value of an entry. -/
def toValue (e : Entry) : Json.Value :=
  .object [("label", .string e.label), ("value", .string e.value), ("disabled", .bool e.disabled),
    ("selected", .bool e.selected)]

end Entry

/-- Is there an enabled entry at that index? -/
def enabledAt (entries : List Entry) (i : Nat) : Bool :=
  match entries[i]? with
  | some e => e.enabled
  | none => false

end Listbox
end PageWidgets
