/-! UTF-8: the bytes of a text, and the text of a list of bytes. Reading stops at the first byte that cannot
    continue a well-formed text and says where the bad sequence starts and how long its well-formed start is. -/

namespace PageWidgets
namespace Text

/-- The bytes of a text. -/
def utf8 (l : List Char) : List UInt8 := l.flatMap String.utf8EncodeChar

/-- Bytes that are no UTF-8: where the bad sequence starts, and how many of its bytes belong together, or
    nothing when the bytes end inside a sequence that was good so far. -/
structure Utf8Fault where
  index : Nat
  length : Option Nat
  deriving DecidableEq, Repr

namespace Utf8Fault

def message (f : Utf8Fault) : String :=
  match f.length with
  | some n => "invalid utf-8 sequence of " ++ toString n ++ " bytes from index " ++ toString f.index
  | none => "incomplete utf-8 byte sequence from index " ++ toString f.index

end Utf8Fault

/-- A byte that continues a sequence. -/
def isContinuation (b : UInt8) : Bool := 0x80 ≤ b.toNat && b.toNat ≤ 0xBF

/-- The second bytes allowed after a first byte of a longer sequence. -/
def secondRange (first : UInt8) : Nat × Nat :=
  if first.toNat = 0xE0 then (0xA0, 0xBF)
  else if first.toNat = 0xED then (0x80, 0x9F)
  else if first.toNat = 0xF0 then (0x90, 0xBF)
  else if first.toNat = 0xF4 then (0x80, 0x8F)
  else (0x80, 0xBF)

/-- How many bytes a sequence with this first byte has; nothing for a byte that starts none. -/
def sequenceLength (first : UInt8) : Option Nat :=
  let n := first.toNat
  if n < 0x80 then some 1
  else if 0xC2 ≤ n && n ≤ 0xDF then some 2
  else if 0xE0 ≤ n && n ≤ 0xEF then some 3
  else if 0xF0 ≤ n && n ≤ 0xF4 then some 4
  else none

/-- The value of six low bits of a continuation byte. -/
def lowBits (b : UInt8) : Nat := b.toNat % 64

/-- Is `b` allowed right after `first`? -/
def secondFits (first b : UInt8) : Bool :=
  (secondRange first).1 ≤ b.toNat && b.toNat ≤ (secondRange first).2

/-- The first character and the bytes after it, or the length of the bad start (nothing when the bytes end
    inside a good one). -/
def decodeChar : List UInt8 → Except (Option Nat) (Char × List UInt8)
  | [] => .error none
  | a :: rest =>
    match sequenceLength a, rest with
    | some 1, _ => .ok (Char.ofNat a.toNat, rest)
    | some 2, [] => .error none
    | some 2, b :: rest =>
      if isContinuation b then .ok (Char.ofNat (a.toNat % 32 * 64 + lowBits b), rest) else .error (some 1)
    | some 3, [] => .error none
    | some 3, [b] => if secondFits a b then .error none else .error (some 1)
    | some 3, b :: c :: rest =>
      if !secondFits a b then .error (some 1)
      else if !isContinuation c then .error (some 2)
      else .ok (Char.ofNat (a.toNat % 16 * 4096 + lowBits b * 64 + lowBits c), rest)
    | some 4, [] => .error none
    | some 4, [b] => if secondFits a b then .error none else .error (some 1)
    | some 4, [b, c] =>
      if !secondFits a b then .error (some 1)
      else if !isContinuation c then .error (some 2)
      else .error none
    | some 4, b :: c :: d :: rest =>
      if !secondFits a b then .error (some 1)
      else if !isContinuation c then .error (some 2)
      else if !isContinuation d then .error (some 3)
      else .ok (Char.ofNat (a.toNat % 8 * 262144 + lowBits b * 4096 + lowBits c * 64 + lowBits d), rest)
    | _, _ => .error (some 1)

/-- Reads characters while the fuel lasts; each takes at least one byte, so as many as there are bytes do. -/
def decodeFrom : Nat → Nat → List UInt8 → Except Utf8Fault (List Char)
  | _, _, [] => .ok []
  | 0, index, _ :: _ => .error ⟨index, none⟩
  | fuel + 1, index, bytes@(_ :: _) =>
    match decodeChar bytes with
    | .error length => .error ⟨index, length⟩
    | .ok (c, rest) => (decodeFrom fuel (index + (bytes.length - rest.length)) rest).map (c :: ·)

/-- The text that the bytes spell. -/
def ofUtf8 (bytes : List UInt8) : Except Utf8Fault (List Char) := decodeFrom bytes.length 0 bytes

end Text
end PageWidgets
