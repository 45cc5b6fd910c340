import PageWidgets.Proofs.Text.Utf8
import PageWidgets.Text.Percent

/-! The percent form reads back, and is made of few characters: ASCII letters, digits, `-_.!~*'()` and the percent
    sign. None of them separates anything in a cookie. -/

namespace PageWidgets
namespace Text

/-- A character of the percent form. -/
def isPercentChar (c : Char) : Bool := c.toNat < 0x80 && (c == '%' || isPlainByte (UInt8.ofNat c.toNat))

theorem lt_of_isPercentChar {c : Char} (h : isPercentChar c = true) : c.toNat < 0x80 := by
  simp only [isPercentChar, Bool.and_eq_true, decide_eq_true_eq] at h
  exact h.1

theorem lt_of_isPlainByte {b : UInt8} (h : isPlainByte b = true) : b.toNat < 0x7F := by
  simp only [isPlainByte, Bool.or_eq_true, Bool.and_eq_true, decide_eq_true_eq, beq_iff_eq] at h
  omega

/-- The character of a plain byte has the number of the byte. -/
theorem toNat_plainChar {b : UInt8} (h : isPlainByte b = true) : (Char.ofNat b.toNat).toNat = b.toNat := by
  have hlt := lt_of_isPlainByte h
  have hvalid : b.toNat.isValidChar := .inl (by omega)
  rw [Char.ofNat, dif_pos hvalid]
  rfl

theorem upperHexDigit_lt {n : Nat} (h : n < 16) : (upperHexDigit n).toNat < 0x80 := by
  revert n
  decide

theorem isPlainByte_upperHexDigit {n : Nat} (h : n < 16) :
    isPlainByte (UInt8.ofNat (upperHexDigit n).toNat) = true := by
  revert n
  decide

theorem hexValue_upperHexDigit {n : Nat} (h : n < 16) : hexValue (upperHexDigit n).toNat = some n := by
  revert n
  decide

/-! ### The characters of the percent form -/

theorem isPercentChar_of_mem_percentByte {b : UInt8} {c : Char} (hc : c ∈ percentByte b) :
    isPercentChar c = true := by
  have hb := b.toNat_lt
  unfold percentByte at hc
  split at hc
  · next h =>
    obtain rfl := List.mem_singleton.mp hc
    have hlt := lt_of_isPlainByte h
    simp [isPercentChar, toNat_plainChar h, h, show b.toNat < 128 by omega]
  · have hdigit : ∀ n, n < 16 → isPercentChar (upperHexDigit n) = true := fun n hn => by
      simp [isPercentChar, upperHexDigit_lt hn, isPlainByte_upperHexDigit hn]
    rcases List.mem_cons.mp hc with rfl | hc
    · decide
    rcases List.mem_cons.mp hc with rfl | hc
    · exact hdigit _ (by omega)
    · obtain rfl := List.mem_singleton.mp hc
      exact hdigit _ (by omega)

theorem isPercentChar_of_mem {l : List Char} {c : Char} (hc : c ∈ percentEncode l) : isPercentChar c = true := by
  obtain ⟨b, -, hb⟩ := List.mem_flatMap.mp hc
  exact isPercentChar_of_mem_percentByte hb

/-! ### Reading back -/

theorem percentDecode_cons_of_ne {b : UInt8} (h : b ≠ 0x25) (rest : List UInt8) :
    percentDecode (b :: rest) = b :: percentDecode rest := by
  rw [percentDecode]
  intro a b' r heq
  cases heq
  exact absurd rfl h

theorem percentDecode_percentByte (b : UInt8) (rest : List UInt8) :
    percentDecode (utf8 (percentByte b) ++ rest) = b :: percentDecode rest := by
  have hb := b.toNat_lt
  rw [utf8_of_ascii fun c hc => lt_of_isPercentChar (isPercentChar_of_mem_percentByte hc)]
  unfold percentByte
  split
  · next h =>
    have hne : b ≠ 0x25 := by
      rintro rfl
      exact absurd h (by decide)
    rw [List.map_singleton, toNat_plainChar h, UInt8.ofNat_toNat, List.singleton_append,
      percentDecode_cons_of_ne hne]
  · have hbyte : ∀ n, n < 16 → (UInt8.ofNat (upperHexDigit n).toNat).toNat = (upperHexDigit n).toNat :=
      fun n hn => toNat_byte (Nat.lt_trans (upperHexDigit_lt hn) (by decide))
    have hhigh : b.toNat / 16 < 16 := by omega
    have hlow : b.toNat % 16 < 16 := by omega
    have hpair : hexPair (UInt8.ofNat (upperHexDigit (b.toNat / 16)).toNat)
        (UInt8.ofNat (upperHexDigit (b.toNat % 16)).toNat) = some b := by
      simp only [hexPair, hbyte _ hhigh, hbyte _ hlow, hexValue_upperHexDigit hhigh, hexValue_upperHexDigit hlow]
      rw [show b.toNat / 16 * 16 + b.toNat % 16 = b.toNat by omega, UInt8.ofNat_toNat]
    show percentDecode (0x25 :: _ :: _ :: rest) = b :: percentDecode rest
    rw [percentDecode, hpair]

theorem percentDecode_percentEncode (l : List Char) : percentDecode (utf8 (percentEncode l)) = utf8 l := by
  unfold percentEncode
  induction utf8 l with
  | nil => rfl
  | cons b bytes ih => rw [List.flatMap_cons, utf8_append, percentDecode_percentByte, ih]

end Text
end PageWidgets
