import PageWidgets.Consent.Record

/-! Consent records as tagged JSON: an object with a `kind`, and with `categories` when the kind has them. The
    two members may come in either order among others; an array of the two is read as well. Categories that
    come first are kept until the kind is known, so their faults are reported without the place they stand at. -/

namespace PageWidgets
namespace Consent
namespace Record

open Json

/-- The JSON value of a record. -/
def toValue : Record → Value
  | .accepted => .object [("kind", .string "accepted")]
  | .rejected => .object [("kind", .string "rejected")]
  | .categories granted => .object [("kind", .string "categories"), ("categories", categoriesValue granted)]

/-- The kind of a record. -/
inductive Kind where
  | accepted
  | rejected
  | categories
  deriving DecidableEq, Repr

namespace Kind

/-- The kind of that name. -/
def ofName (name : String) : Except Fault Kind :=
  if name = "accepted" then .ok .accepted
  else if name = "rejected" then .ok .rejected
  else if name = "categories" then .ok .categories
  else .error (.unknownVariant name ["accepted", "rejected", "categories"])

/-- What to call a kind without categories in a message. -/
def title : Kind → String
  | .accepted => "unit variant ConsentRecord::Accepted"
  | .rejected => "unit variant ConsentRecord::Rejected"
  | .categories => "a map"

/-- Reads the name of a kind. -/
def nameText (l : List Char) : Except Refusal (Kind × List Char) :=
  match Reader.string.text l with
  | .error r => .error r
  | .ok (name, rest) =>
    match ofName name with
    | .error fault => .error (.here fault rest)
    | .ok kind => .ok (kind, rest)

/-- Reads a null that stands for nothing. -/
def nothingText (l : List Char) : Except Refusal (List Char) :=
  match skipBlanks l with
  | [] => .error (refuse "unit" [])
  | c :: rest => if c = 'n' then scanWord "ull".toList rest else .error (refuse "unit" (c :: rest))

/-- Reads the key of the long form of a kind. -/
def keyText (l : List Char) : Except Refusal (Kind × List Char) :=
  match skipBlanks l with
  | [] => .error (refuse "variant identifier" [])
  | c :: rest =>
    if c = '"' then nameText (c :: rest) else .error (refuse "variant identifier" (c :: rest))

/-- Reads the long form of a kind after its brace: its name, a colon, null and a closing brace. -/
def longText (l : List Char) : Except Refusal (Kind × List Char) := do
  let (kind, rest) ← keyText l
  let rest ← scanColon rest
  let rest ← nothingText rest
  match skipBlanks rest with
  | [] => .error (.here .endInObject [])
  | c :: rest => if c = '\x7d' then .ok (kind, rest) else .error (.here .expectedValue (c :: rest))

/-- Reads a kind: its name, or an object whose only member has that name and the value null. -/
def text (l : List Char) : Except Refusal (Kind × List Char) :=
  match skipBlanks l with
  | [] => .error (.here .endInValue [])
  | c :: rest =>
    if c = '"' then nameText (c :: rest)
    else if c = '\x7b' then longText rest
    else .error (.next .expectedValue (c :: rest))

/-- Reads a kind from a value. -/
def value : Value → Except Fault Kind
  | .string name => ofName name
  | .object [(name, v)] =>
    match ofName name with
    | .error fault => .error fault
    | .ok kind => if v.isNull then .ok kind else .error (mismatch "unit" v)
  | .object _ => .error (.wrongValue .map "map with a single key")
  | v => .error (mismatch "string or map" v)

/-- The record of a kind without categories. -/
def plainRecord : Kind → Record
  | .accepted => .accepted
  | .rejected => .rejected
  | .categories => .categories .empty

/-- Reads what a kind without categories allows there: nothing but null. -/
def emptyText (k : Kind) (l : List Char) : Except Refusal (Record × List Char) :=
  match skipBlanks l with
  | [] => .error (.here .endInValue [])
  | c :: rest =>
    if c = 'n' then (scanWord "ull".toList rest).map fun rest => (k.plainRecord, rest)
    else if c = '[' then .error (.here (.wrongType .sequence k.title) (afterBracket rest))
    else if c = '\x7b' then .error (.here (.wrongType .map k.title) (afterBrace rest))
    else .error (refuse k.title (c :: rest))

/-- Reads the categories of a kind. -/
def contentText (k : Kind) (l : List Char) : Except Refusal (Record × List Char) :=
  match k with
  | .categories => ((Reader.dict .bool).map Record.categories).text l
  | _ => k.emptyText l

/-- Reads the categories of a kind from a value. -/
def contentValue (k : Kind) (v : Value) : Except Fault Record :=
  match k with
  | .categories => ((Reader.dict .bool).map Record.categories).value v
  | _ => if v.isNull then .ok k.plainRecord else .error (mismatch k.title v)

/-- The record of a kind that came without categories. -/
def alone (k : Kind) : Except Fault Record :=
  match k with
  | .categories => .error (.missingField "categories")
  | _ => .ok k.plainRecord

end Kind

/-- The two members that count. -/
inductive Part where
  | kind
  | content
  deriving DecidableEq, Repr

namespace Part

def name : Part → String
  | .kind => "kind"
  | .content => "categories"

/-- The part of that name. -/
def ofName? (s : String) : Option Part :=
  if s = "kind" then some .kind else if s = "categories" then some .content else none

/-- The next part of an object, after any other members; nothing before the closing brace. -/
def nextText : Nat → Bool → List Char → Except Refusal (Option Part × List Char)
  | 0, _, l => .error (.here .endInObject l)
  | fuel + 1, first, l =>
    match nextKey first l with
    | .error e => .error e
    | .ok none => .ok (none, l)
    | .ok (some (key, rest)) =>
      match ofName? key with
      | some part => .ok (some part, rest)
      | none =>
        match scanColon rest with
        | .error e => .error e
        | .ok rest =>
          match skipValue rest with
          | .error e => .error e
          | .ok rest => nextText fuel false rest

end Part

def title : String := "adjacently tagged enum ConsentRecord"

/-- How deep the categories may be nested when they are kept until the kind is known. -/
def contentDepth : Nat := 126

/-- The record, when no part comes a second time. -/
def finishText (r : Record) (l : List Char) : Except Refusal (Record × List Char) :=
  match Part.nextText (l.length + 1) false l with
  | .error e => .error e
  | .ok (some part, rest) => .error (.here (.duplicateField part.name) (afterBrace rest))
  | .ok (none, rest) => .ok (r, afterBrace rest)

/-- Reads the rest of an object whose first part is its kind. -/
def afterKind (k : Kind) (l : List Char) : Except Refusal (Record × List Char) := do
  match ← Part.nextText (l.length + 1) false l with
  | (none, rest) =>
    match k.alone with
    | .error fault => .error (.here fault (afterBrace rest))
    | .ok r => .ok (r, afterBrace rest)
  | (some .kind, rest) => .error (.here (.duplicateField "kind") (afterBrace rest))
  | (some .content, rest) =>
    let rest ← scanColon rest
    let (r, rest) ← k.contentText rest
    finishText r rest

/-- Reads the rest of an object whose first part is its categories. -/
def afterContent (v : Value) (l : List Char) : Except Refusal (Record × List Char) := do
  match ← Part.nextText (l.length + 1) false l with
  | (none, rest) => .error (.here (.missingField "kind") (afterBrace rest))
  | (some .content, rest) => .error (.here (.duplicateField "categories") (afterBrace rest))
  | (some .kind, rest) =>
    let rest ← scanColon rest
    let (k, rest) ← Kind.text rest
    match k.contentValue v with
    | .error fault => .error (.here fault (afterBrace rest))
    | .ok r => finishText r rest

/-- Reads an object after its opening brace. -/
def objectText (l : List Char) : Except Refusal (Record × List Char) := do
  match ← Part.nextText (l.length + 1) true l with
  | (none, rest) => .error (.here (.missingField "kind") (afterBrace rest))
  | (some .kind, rest) =>
    let rest ← scanColon rest
    let (k, rest) ← Kind.text rest
    afterKind k rest
  | (some .content, rest) =>
    let rest ← scanColon rest
    let (v, rest) ← (Reader.any contentDepth).text rest
    afterContent v rest

/-- Reads an array of the two parts after its opening bracket. -/
def arrayText (l : List Char) : Except Refusal (Record × List Char) := do
  match ← nextItem true l with
  | none => .error (.here (.wrongLength 0 title) (afterBracket l))
  | some start =>
    let (k, rest) ← Kind.text start
    match ← nextItem false rest with
    | none => .error (.here (.wrongLength 1 title) (afterBracket rest))
    | some start =>
      let (r, rest) ← k.contentText start
      let rest ← closeArray rest
      .ok (r, rest)

/-- The first of the two parts among members, and the members after it. -/
def nextMember : List (String × Value) → Option (Part × Value × List (String × Value))
  | [] => none
  | (key, v) :: rest =>
    match Part.ofName? key with
    | some part => some (part, v, rest)
    | none => nextMember rest

/-- The record, when no part comes a second time. -/
def finishValue (r : Record) (members : List (String × Value)) : Except Fault Record :=
  match nextMember members with
  | some (part, _, _) => .error (.duplicateField part.name)
  | none => .ok r

/-- Reads a record from the members of a value. -/
def objectValue (members : List (String × Value)) : Except Fault Record := do
  match nextMember members with
  | none => .error (.missingField "kind")
  | some (.kind, v, rest) =>
    let k ← Kind.value v
    match nextMember rest with
    | none => k.alone
    | some (.kind, _, _) => .error (.duplicateField "kind")
    | some (.content, v, rest) =>
      let r ← k.contentValue v
      finishValue r rest
  | some (.content, content, rest) =>
    match nextMember rest with
    | none => .error (.missingField "kind")
    | some (.content, _, _) => .error (.duplicateField "categories")
    | some (.kind, v, rest) =>
      let k ← Kind.value v
      let r ← k.contentValue content
      finishValue r rest

/-- Reads a record from the items of a value. -/
def arrayValue (items : List Value) : Except Fault Record := do
  match items with
  | [] => .error (.wrongLength 0 title)
  | [v] =>
    let _ ← Kind.value v
    .error (.wrongLength 1 title)
  | v :: content :: rest =>
    let k ← Kind.value v
    let r ← k.contentValue content
    if rest.isEmpty then .ok r else .error (.wrongLength items.length "fewer elements in array")

/-- Reads a record. -/
def reader : Reader Record where
  text l :=
    match skipBlanks l with
    | [] => .error (refuse title [])
    | c :: rest =>
      if c = '\x7b' then objectText rest
      else if c = '[' then arrayText rest
      else .error (refuse title (c :: rest))
  value
    | .object members => objectValue members
    | .array items => arrayValue items
    | v => .error (mismatch title v)

end Record
end Consent
end PageWidgets
