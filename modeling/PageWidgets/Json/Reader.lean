import PageWidgets.Json.Lexeme

/-! Readers: how a typed value is read from a JSON text and from a JSON value. A text is read from the front,
    so of several faults the first one met is reported; a fault that only shows when an object or array is
    complete is placed after its closing bracket, when that is what comes next. -/

namespace PageWidgets
namespace Json

/-- How values of a type are read. -/
structure Reader (α : Type) where
  text : List Char → Except Refusal (α × List Char)
  value : Value → Except Fault α

/-! ### Refusing what stands there -/

/-- The refusal of a word that names a value of the wrong type. -/
def refuseWord (found : Found) (wanted : String) (word : String) (rest : List Char) : Refusal :=
  match scanWord word.toList rest with
  | .error r => r
  | .ok rest => .here (.wrongType found wanted) rest

/-- The refusal of whatever value the text goes on with: a scalar is read first, a bracket is not entered. -/
def refuse (wanted : String) (l : List Char) : Refusal :=
  match skipBlanks l with
  | [] => .here .endInValue []
  | c :: rest =>
    if c = 'n' then refuseWord .null wanted "ull" rest
    else if c = 't' then refuseWord (.bool true) wanted "rue" rest
    else if c = 'f' then refuseWord (.bool false) wanted "alse" rest
    else if c = '-' ∨ isDigit c then
      match scanNumber (c :: rest) with
      | .error r => r
      | .ok (n, rest) => .here (.wrongType (.number n) wanted) rest
    else if c = '"' then
      match scanString rest with
      | .error r => r
      | .ok (s, rest) => .here (.wrongType (.string s) wanted) rest
    else if c = '[' then .here (.wrongType .sequence wanted) (c :: rest)
    else if c = '\x7b' then .here (.wrongType .map wanted) (c :: rest)
    else .next .expectedValue (c :: rest)

/-- The cause for refusing a value of the wrong type. -/
def mismatch (wanted : String) (v : Value) : Fault := .wrongType (.ofValue v) wanted

/-! ### Items and members -/

/-- The text after a closing brace, when one comes next. -/
def afterBrace (l : List Char) : List Char :=
  match skipBlanks l with
  | c :: rest => if c = '\x7d' then rest else c :: rest
  | [] => []

/-- The text after a closing bracket or a comma, when one comes next. -/
def afterBracket (l : List Char) : List Char :=
  match skipBlanks l with
  | c :: rest => if c = ']' then rest else if c = ',' then skipBlanks rest else c :: rest
  | [] => []

/-- Where the next item of an array starts, or nothing before the closing bracket. -/
def nextItem (first : Bool) (l : List Char) : Except Refusal (Option (List Char)) :=
  match skipBlanks l with
  | [] => .error (.here .endInList [])
  | c :: rest =>
    if c = ']' then .ok none
    else if first then .ok (some (c :: rest))
    else if c = ',' then
      match skipBlanks rest with
      | [] => .error (.here .endInValue [])
      | d :: after => if d = ']' then .error (.next .trailingComma (d :: after)) else .ok (some (d :: after))
    else .error (.next .expectedCommaOrBracket (c :: rest))

/-- Reads the closing bracket of an array whose items are all read. -/
def closeArray (l : List Char) : Except Refusal (List Char) :=
  match skipBlanks l with
  | [] => .error (.here .endInList [])
  | c :: rest =>
    if c = ']' then .ok rest
    else if c = ',' then
      match skipBlanks rest with
      | [] => .error (.here .trailingCharacters [])
      | d :: after =>
        .error (.next (if d = ']' then .trailingComma else .trailingCharacters) (d :: after))
    else .error (.next .trailingCharacters (c :: rest))

/-- Reads a key that must be here. -/
def scanKey (l : List Char) : Except Refusal (String × List Char) :=
  match l with
  | [] => .error (.here .endInValue [])
  | c :: rest => if c = '"' then scanString rest else .error (.next .keyNotText (c :: rest))

/-- The next key of an object, or nothing before the closing brace. -/
def nextKey (first : Bool) (l : List Char) : Except Refusal (Option (String × List Char)) :=
  match skipBlanks l with
  | [] => .error (.here .endInObject [])
  | c :: rest =>
    if c = '\x7d' then .ok none
    else if first then (scanKey (c :: rest)).map some
    else if c = ',' then
      match skipBlanks rest with
      | [] => .error (.here .endInValue [])
      | d :: after =>
        if d = '\x7d' then .error (.next .trailingComma (d :: after)) else (scanKey (d :: after)).map some
    else .error (.next .expectedCommaOrBrace (c :: rest))

namespace Reader

variable {α β : Type}

/-- Reads a whole text: nothing but blanks may follow the value. -/
def parse (r : Reader α) (s : String) : Except ReadError α :=
  match r.text s.toList with
  | .error refusal => .error (refusal.inText s.toList)
  | .ok (a, rest) =>
    match skipBlanks rest with
    | [] => .ok a
    | after => .error ((Refusal.next .trailingCharacters after).inText s.toList)

/-- Reads a value; its faults have no place. -/
def convert (r : Reader α) (v : Value) : Except ReadError α :=
  match r.value v with
  | .error fault => .error ⟨fault, none⟩
  | .ok a => .ok a

/-- Reads as another type. -/
def map (f : α → β) (r : Reader α) : Reader β where
  text l :=
    match r.text l with
    | .error e => .error e
    | .ok (a, rest) => .ok (f a, rest)
  value v :=
    match r.value v with
    | .error e => .error e
    | .ok a => .ok (f a)

/-! ### Scalars -/

/-- Reads a text. -/
def string : Reader String where
  text l :=
    match skipBlanks l with
    | c :: rest => if c = '"' then scanString rest else .error (refuse "a string" (c :: rest))
    | [] => .error (refuse "a string" [])
  value
    | .string s => .ok s
    | v => .error (mismatch "a string" v)

/-- Reads a truth value. -/
def bool : Reader Bool where
  text l :=
    match skipBlanks l with
    | c :: rest =>
      if c = 't' then (scanWord "rue".toList rest).map fun rest => (true, rest)
      else if c = 'f' then (scanWord "alse".toList rest).map fun rest => (false, rest)
      else .error (refuse "a boolean" (c :: rest))
    | [] => .error (refuse "a boolean" [])
  value
    | .bool b => .ok b
    | v => .error (mismatch "a boolean" v)

/-- The natural number up to `bound` that a number is. -/
def naturalOf (wanted : String) (bound : Nat) : Number → Except Fault Nat
  | .integer i =>
    if 0 ≤ i ∧ i ≤ bound then .ok i.toNat else .error (.wrongValue (.number (.integer i)) wanted)
  | .float x => .error (.wrongType (.number (.float x)) wanted)

/-- Reads a natural number up to `bound`. -/
def natural (wanted : String) (bound : Nat) : Reader Nat where
  text l :=
    match skipBlanks l with
    | c :: rest =>
      if c = '-' ∨ isDigit c then
        match scanNumber (c :: rest) with
        | .error r => .error r
        | .ok (n, rest) =>
          match naturalOf wanted bound n with
          | .error fault => .error (.here fault rest)
          | .ok n => .ok (n, rest)
      else .error (refuse wanted (c :: rest))
    | [] => .error (refuse wanted [])
  value
    | .number n => naturalOf wanted bound n
    | v => .error (mismatch wanted v)

/-- Reads a value that may be null. -/
def optional (r : Reader α) : Reader (Option α) where
  text l :=
    match skipBlanks l with
    | c :: rest =>
      if c = 'n' then (scanWord "ull".toList rest).map fun rest => (none, rest)
      else (r.map some).text (c :: rest)
    | [] => (r.map some).text []
  value
    | .null => .ok none
    | v => (r.map some).value v

/-! ### Lists and maps -/

/-- Reads the items of an array up to its closing bracket. -/
def listItems (r : Reader α) : Nat → Bool → List Char → Except Refusal (List α × List Char)
  | 0, _, l => .error (.here .endInList l)
  | fuel + 1, first, l =>
    match nextItem first l with
    | .error e => .error e
    | .ok none => .ok ([], afterBracket l)
    | .ok (some start) =>
      match r.text start with
      | .error e => .error e
      | .ok (a, rest) =>
        match listItems r fuel false rest with
        | .error e => .error e
        | .ok (as, rest) => .ok (a :: as, rest)

/-- Reads every value of a list. -/
def listValues (r : Reader α) : List Value → Except Fault (List α)
  | [] => .ok []
  | v :: vs =>
    match r.value v with
    | .error e => .error e
    | .ok a => (listValues r vs).map (a :: ·)

/-- Reads an array. -/
def list (r : Reader α) : Reader (List α) where
  text l :=
    match skipBlanks l with
    | c :: rest =>
      if c = '[' then listItems r (rest.length + 1) true rest else .error (refuse "a sequence" (c :: rest))
    | [] => .error (refuse "a sequence" [])
  value
    | .array items => listValues r items
    | v => .error (mismatch "a sequence" v)

/-- Reads the members of an object up to its closing brace. -/
def dictMembers (r : Reader α) :
    Nat → Bool → NameMap α → List Char → Except Refusal (NameMap α × List Char)
  | 0, _, _, l => .error (.here .endInObject l)
  | fuel + 1, first, m, l =>
    match nextKey first l with
    | .error e => .error e
    | .ok none => .ok (m, afterBrace l)
    | .ok (some (key, rest)) =>
      match scanColon rest with
      | .error e => .error e
      | .ok rest =>
        match r.text rest with
        | .error e => .error e
        | .ok (a, rest) => dictMembers r fuel false (m.insert key a) rest

/-- Reads every member of a list into a map. -/
def dictValues (r : Reader α) : NameMap α → List (String × Value) → Except Fault (NameMap α)
  | m, [] => .ok m
  | m, (key, v) :: rest =>
    match r.value v with
    | .error e => .error e
    | .ok a => dictValues r (m.insert key a) rest

/-- Reads an object as a map; of members of one name the last counts. -/
def dict (r : Reader α) : Reader (NameMap α) where
  text l :=
    match skipBlanks l with
    | c :: rest =>
      if c = '\x7b' then dictMembers r (rest.length + 1) true .empty rest
      else .error (refuse "a map" (c :: rest))
    | [] => .error (refuse "a map" [])
  value
    | .object members => dictValues r .empty members
    | v => .error (mismatch "a map" v)

end Reader

/-! ### Records -/

/-- A field of a record: its name, how it is read into the record, and whether an object, or the end of an
    array, may leave it out. -/
structure Slot (α : Type) where
  name : String
  reader : Reader (α → α)
  omittable : Bool
  droppable : Bool

/-- A record type: what to call it, its fields in order, and the record before any field is read. -/
structure Shape (α : Type) where
  title : String
  slots : List (Slot α)
  blank : α

namespace Shape

variable {α : Type}

/-- The first field that an object must have and that was not seen. -/
def missing? (s : Shape α) (seen : List String) : Option String :=
  (s.slots.find? fun slot => !slot.omittable && !seen.contains slot.name).map (·.name)

/-- An array that ends before the field of that index. -/
def tooShort (s : Shape α) (index : Nat) : Fault :=
  .wrongLength index (s.title ++ " with " ++ toString s.slots.length ++ " elements")

/-- Reads the members of an object up to its closing brace; unknown members are passed over. -/
def members (s : Shape α) :
    Nat → Bool → List String → α → List Char → Except Refusal (α × List Char)
  | 0, _, _, _, l => .error (.here .endInObject l)
  | fuel + 1, first, seen, a, l =>
    match nextKey first l with
    | .error e => .error e
    | .ok none =>
      match s.missing? seen with
      | some name => .error (.here (.missingField name) (afterBrace l))
      | none => .ok (a, afterBrace l)
    | .ok (some (key, rest)) =>
      match s.slots.find? fun slot => slot.name = key with
      | none =>
        match scanColon rest with
        | .error e => .error e
        | .ok rest =>
          match skipValue rest with
          | .error e => .error e
          | .ok rest => members s fuel false seen a rest
      | some slot =>
        if seen.contains key then .error (.here (.duplicateField key) (afterBrace rest))
        else
          match scanColon rest with
          | .error e => .error e
          | .ok rest =>
            match slot.reader.text rest with
            | .error e => .error e
            | .ok (set, rest) => members s fuel false (key :: seen) (set a) rest

/-- Reads the fields of an array in order, and its closing bracket. -/
def items (s : Shape α) :
    Bool → Nat → List (Slot α) → α → List Char → Except Refusal (α × List Char)
  | _, _, [], a, l =>
    match closeArray l with
    | .error e => .error e
    | .ok rest => .ok (a, rest)
  | first, index, slot :: slots, a, l =>
    match nextItem first l with
    | .error e => .error e
    | .ok none =>
      if slot.droppable then items s first (index + 1) slots a l
      else .error (.here (s.tooShort index) (afterBracket l))
    | .ok (some start) =>
      match slot.reader.text start with
      | .error e => .error e
      | .ok (set, rest) => items s false (index + 1) slots (set a) rest

/-- Reads the members of a value. -/
def memberValues (s : Shape α) : List String → α → List (String × Value) → Except Fault α
  | seen, a, [] =>
    match s.missing? seen with
    | some name => .error (.missingField name)
    | none => .ok a
  | seen, a, (key, v) :: rest =>
    match s.slots.find? fun slot => slot.name = key with
    | none => memberValues s seen a rest
    | some slot =>
      if seen.contains key then .error (.duplicateField key)
      else
        match slot.reader.value v with
        | .error e => .error e
        | .ok set => memberValues s (key :: seen) (set a) rest

/-- Reads the items of a value in the order of the fields; `length` is how many there are. -/
def itemValues (s : Shape α) (length : Nat) : Nat → List (Slot α) → α → List Value → Except Fault α
  | _, [], a, [] => .ok a
  | _, [], _, _ :: _ => .error (.wrongLength length "fewer elements in array")
  | index, slot :: slots, a, [] =>
    if slot.droppable then itemValues s length (index + 1) slots a [] else .error (s.tooShort index)
  | index, slot :: slots, a, v :: rest =>
    match slot.reader.value v with
    | .error e => .error e
    | .ok set => itemValues s length (index + 1) slots (set a) rest

/-- Reads a record from an object, or from an array of its fields in order. -/
def reader (s : Shape α) : Reader α where
  text l :=
    match skipBlanks l with
    | c :: rest =>
      if c = '\x7b' then s.members (rest.length + 1) true [] s.blank rest
      else if c = '[' then s.items true 0 s.slots s.blank rest
      else .error (refuse s.title (c :: rest))
    | [] => .error (refuse s.title [])
  value
    | .object members => s.memberValues [] s.blank members
    | .array items => s.itemValues items.length 0 s.slots s.blank items
    | v => .error (mismatch s.title v)

end Shape

/-! ### Values of every kind -/

mutual

/-- Reads any value with at most `depth` brackets one inside the other. -/
def scanAny : Nat → Nat → List Char → Except Refusal (Value × List Char)
  | 0, _, l => .error (.here .endInValue l)
  | fuel + 1, depth, l =>
    match skipBlanks l with
    | [] => .error (.here .endInValue [])
    | c :: rest =>
      if c = 'n' then (scanWord "ull".toList rest).map fun rest => (.null, rest)
      else if c = 't' then (scanWord "rue".toList rest).map fun rest => (.bool true, rest)
      else if c = 'f' then (scanWord "alse".toList rest).map fun rest => (.bool false, rest)
      else if c = '-' ∨ isDigit c then
        (scanNumber (c :: rest)).map fun (n, rest) => (.number n, rest)
      else if c = '"' then (scanString rest).map fun (s, rest) => (.string s, rest)
      else if c = '[' then
        match depth with
        | 0 => .error (.next .tooDeep (c :: rest))
        | depth + 1 => (scanAnyItems fuel depth true rest).map fun (vs, rest) => (.array vs, rest)
      else if c = '\x7b' then
        match depth with
        | 0 => .error (.next .tooDeep (c :: rest))
        | depth + 1 => (scanAnyMembers fuel depth true rest).map fun (ms, rest) => (.object ms, rest)
      else .error (.next .expectedValue (c :: rest))

def scanAnyItems : Nat → Nat → Bool → List Char → Except Refusal (List Value × List Char)
  | 0, _, _, l => .error (.here .endInList l)
  | fuel + 1, depth, first, l =>
    match nextItem first l with
    | .error e => .error e
    | .ok none => .ok ([], afterBracket l)
    | .ok (some start) =>
      match scanAny fuel depth start with
      | .error e => .error e
      | .ok (v, rest) => (scanAnyItems fuel depth false rest).map fun (vs, rest) => (v :: vs, rest)

def scanAnyMembers : Nat → Nat → Bool → List Char → Except Refusal (List (String × Value) × List Char)
  | 0, _, _, l => .error (.here .endInObject l)
  | fuel + 1, depth, first, l =>
    match nextKey first l with
    | .error e => .error e
    | .ok none => .ok ([], afterBrace l)
    | .ok (some (key, rest)) =>
      match scanColon rest with
      | .error e => .error e
      | .ok rest =>
        match scanAny fuel depth rest with
        | .error e => .error e
        | .ok (v, rest) =>
          (scanAnyMembers fuel depth false rest).map fun (ms, rest) => ((key, v) :: ms, rest)

end

/-- Reads any value; `depth` limits how many brackets may stand one inside the other. -/
def Reader.any (depth : Nat) : Reader Value where
  text l := scanAny (2 * l.length + 2) depth l
  value := .ok

end Json
end PageWidgets
