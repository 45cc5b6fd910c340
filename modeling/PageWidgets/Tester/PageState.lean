import PageWidgets.Consent.TaggedRecord
import PageWidgets.Text.Shown

/-! What a test learns from a page: what it holds on consent, and the state of every enhanced select. -/

namespace PageWidgets

namespace Consent.Record

/-- The shown form of a record. -/
def shown : Record → String
  | .accepted => "Accepted"
  | .rejected => "Rejected"
  | .categories granted => "Categories(" ++ Text.shownMap Text.shownBool granted.entries ++ ")"

end Consent.Record

namespace Tester

open Json

/-- What a page holds on consent. -/
structure ConsentState where
  present : Bool
  record : Option Consent.Record
  error : Option String
  deriving DecidableEq, Repr

namespace ConsentState

def empty : ConsentState := ⟨false, none, none⟩

/-- The fields in order; each may be left out. -/
def shape : Shape ConsentState where
  title := "struct ConsentState"
  blank := empty
  slots :=
    [⟨"present", Reader.bool.map fun v s => { s with present := v }, true, true⟩,
     ⟨"record", (Reader.optional Consent.Record.reader).map fun v s => { s with record := v }, true, true⟩,
     ⟨"error", (Reader.optional .string).map fun v s => { s with error := v }, true, true⟩]

/-- The JSON value of a state. -/
def toValue (s : ConsentState) : Value :=
  .object [("present", .bool s.present), ("record", .optional Consent.Record.toValue s.record),
    ("error", .optional .string s.error)]

/-- The shown form of a state. -/
def shown (s : ConsentState) : String :=
  Text.shownRecord "ConsentState"
    [("present", Text.shownBool s.present), ("record", Text.shownOption Consent.Record.shown s.record),
     ("error", Text.shownOption Text.quoted s.error)]

end ConsentState

/-- The state of an enhanced select. -/
structure SelectState where
  id : String
  isOpen : Bool
  active : Nat
  selected : Option Nat
  value : Option String
  listening : Bool
  deriving DecidableEq, Repr

namespace SelectState

/-- Reads an index of 64 bits. -/
def indexReader : Reader Nat := .natural "usize" (Nat.pow 2 64 - 1)

/-- The fields in order. An object may leave out what may be missing, and whether the select listens; an array
    only the latter. -/
def shape : Shape SelectState where
  title := "struct SelectState"
  blank := ⟨"", false, 0, none, none, false⟩
  slots :=
    [⟨"id", Reader.string.map fun v s => { s with id := v }, false, false⟩,
     ⟨"open", Reader.bool.map fun v s => { s with isOpen := v }, false, false⟩,
     ⟨"active", indexReader.map fun v s => { s with active := v }, false, false⟩,
     ⟨"selected", (Reader.optional indexReader).map fun v s => { s with selected := v }, true, false⟩,
     ⟨"value", (Reader.optional .string).map fun v s => { s with value := v }, true, false⟩,
     ⟨"listening", Reader.bool.map fun v s => { s with listening := v }, true, true⟩]

/-- The JSON value of a state. -/
def toValue (s : SelectState) : Value :=
  .object [("id", .string s.id), ("open", .bool s.isOpen), ("active", .nat s.active),
    ("selected", .optional .nat s.selected), ("value", .optional .string s.value), ("listening", .bool s.listening)]

/-- The shown form of a state. -/
def shown (s : SelectState) : String :=
  Text.shownRecord "SelectState"
    [("id", Text.quoted s.id), ("open", Text.shownBool s.isOpen), ("active", toString s.active),
     ("selected", Text.shownOption toString s.selected), ("value", Text.shownOption Text.quoted s.value),
     ("listening", Text.shownBool s.listening)]

end SelectState

/-- What a test learns from a page. -/
structure PageState where
  consent : ConsentState
  selects : List SelectState
  deriving DecidableEq, Repr

namespace PageState

/-- The fields in order; each may be left out. -/
def shape : Shape PageState where
  title := "struct BridgeState"
  blank := ⟨.empty, []⟩
  slots :=
    [⟨"consent", ConsentState.shape.reader.map fun v s => { s with consent := v }, true, true⟩,
     ⟨"selects", (Reader.list SelectState.shape.reader).map fun v s => { s with selects := v }, true, true⟩]

/-- Reads a state. -/
def reader : Reader PageState := shape.reader

/-- The JSON value of a state. -/
def toValue (s : PageState) : Value :=
  .object [("consent", s.consent.toValue), ("selects", .array (s.selects.map SelectState.toValue))]

/-- The first select of that id. -/
def select? (s : PageState) (id : String) : Option SelectState := s.selects.find? fun x => x.id = id

end PageState
end Tester
end PageWidgets
