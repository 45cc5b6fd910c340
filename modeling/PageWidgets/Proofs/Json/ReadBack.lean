import PageWidgets.Json.Printed
import PageWidgets.Proofs.Json.Spelling

/-! Strings are read back: what the program writes between quotes is a spelling of the string, so from behind its opening
    quote a string is taken as it was written, whatever its characters and whatever follows. -/

namespace PageWidgets
namespace Json

theorem hexValue_digitChar {n : Nat} (h : n < 16) : Text.hexValue (Nat.digitChar n).toNat = some n := by
  revert n
  decide

theorem hex_control {n : Nat} (h : n < 0x20) : Hex n ['0', '0', Nat.digitChar (n / 16), Nat.digitChar (n % 16)] := by
  have hzero : Text.hexValue '0'.toNat = some 0 := by decide
  have hhex := Hex.mk hzero hzero (hexValue_digitChar (show n / 16 < 16 by omega))
    (hexValue_digitChar (show n % 16 < 16 by omega))
  rwa [show ((0 * 16 + 0) * 16 + n / 16) * 16 + n % 16 = n by omega] at hhex

/-- A character is written as itself, with a short escape, or by its number. -/
theorem escapeChar_cases (c : Char) :
    (∃ e, escapeChar c = ['\\', e] ∧ shortEscape e = some c) ∨
    (c.toNat < 0x20 ∧
      escapeChar c = ['\\', 'u', '0', '0', Nat.digitChar (c.toNat / 16), Nat.digitChar (c.toNat % 16)]) ∨
    (c ≠ '"' ∧ c ≠ '\\' ∧ ¬c.toNat < 0x20 ∧ escapeChar c = [c]) := by
  unfold escapeChar
  iterate 7
    split
    · next h =>
      subst h
      exact .inl ⟨_, rfl, rfl⟩
  split
  · next h => exact .inr (.inl ⟨h, rfl⟩)
  · next hquote hslash _ _ _ _ _ hcontrol => exact .inr (.inr ⟨hquote, hslash, hcontrol, rfl⟩)

theorem spells_escaped (s : List Char) : Spells s (s.flatMap escapeChar) := by
  induction s with
  | nil => exact .nil
  | cons c s ih =>
    rw [List.flatMap_cons]
    rcases escapeChar_cases c with ⟨e, h, he⟩ | ⟨hcontrol, h⟩ | ⟨hquote, hslash, hcontrol, h⟩
    · rw [h]
      exact .short he ih
    · rw [h]
      exact .numbered (hex_control hcontrol) ih
    · rw [h]
      exact .plain hquote hslash hcontrol ih

theorem toList_stringText (s : String) :
    (stringText s).toList = '"' :: (s.toList.flatMap escapeChar ++ ['"']) := by
  simp [stringText]

/-- A string is read back from behind its opening quote. -/
theorem scanString_escaped (s : String) (rest : List Char) :
    scanString (s.toList.flatMap escapeChar ++ '"' :: rest) = .ok (s, rest) :=
  scanString_spells (spells_escaped s.toList) rest

end Json
end PageWidgets
