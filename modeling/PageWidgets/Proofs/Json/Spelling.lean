import PageWidgets.Json.Reader

/-! Spellings of a string: between its quotes every character stands as itself, behind a backslash as a short escape, or
    as four hex digits, and one that four digits cannot number as two surrogates. Every spelling is read back as the
    characters it spells. Text that only looks like a spelling, lone surrogates and all, is passed over where nobody
    asked for it. -/

namespace PageWidgets
namespace Json

/-! ### Hex digits -/

/-- Four hex digits and the number they spell. -/
inductive Hex : Nat → List Char → Prop
  | mk {a b c d : Char} {i j k l : Nat} (ha : Text.hexValue a.toNat = some i) (hb : Text.hexValue b.toNat = some j)
      (hc : Text.hexValue c.toNat = some k) (hd : Text.hexValue d.toNat = some l) :
      Hex (((i * 16 + j) * 16 + k) * 16 + l) [a, b, c, d]

theorem scanHex_hex {n : Nat} {x : List Char} (h : Hex n x) (rest : List Char) : scanHex (x ++ rest) = .ok (n, rest) := by
  obtain ⟨ha, hb, hc, hd⟩ := h
  simp [scanHex, ha, hb, hc, hd]

/-! ### Strings -/

/-- The text between two quotes spells the characters. -/
inductive Spells : List Char → List Char → Prop
  | nil : Spells [] []
  | plain {c : Char} {s t : List Char} (hquote : c ≠ '"') (hslash : c ≠ '\\') (hcontrol : ¬c.toNat < 0x20)
      (h : Spells s t) : Spells (c :: s) (c :: t)
  | short {e c : Char} {s t : List Char} (he : shortEscape e = some c) (h : Spells s t) :
      Spells (c :: s) ('\\' :: e :: t)
  | numbered {c : Char} {x s t : List Char} (hx : Hex c.toNat x) (h : Spells s t) :
      Spells (c :: s) ('\\' :: 'u' :: (x ++ t))
  | paired {c : Char} {x y s t : List Char} (hc : 0x10000 ≤ c.toNat)
      (hx : Hex (0xD800 + (c.toNat - 0x10000) / 0x400) x) (hy : Hex (0xDC00 + (c.toNat - 0x10000) % 0x400) y)
      (h : Spells s t) : Spells (c :: s) ('\\' :: 'u' :: (x ++ '\\' :: 'u' :: (y ++ t)))

/-- The text may stand between two quotes: its backslashes go with short escapes or hex digits. -/
inductive Quoted : List Char → Prop
  | nil : Quoted []
  | plain {c : Char} {t : List Char} (hquote : c ≠ '"') (hslash : c ≠ '\\') (hcontrol : ¬c.toNat < 0x20) (h : Quoted t) :
      Quoted (c :: t)
  | short {e c : Char} {t : List Char} (he : shortEscape e = some c) (h : Quoted t) : Quoted ('\\' :: e :: t)
  | numbered {n : Nat} {x t : List Char} (hx : Hex n x) (h : Quoted t) : Quoted ('\\' :: 'u' :: (x ++ t))

theorem Spells.quoted {s t : List Char} (h : Spells s t) : Quoted t := by
  induction h with
  | nil => exact .nil
  | plain hquote hslash hcontrol _ ih => exact .plain hquote hslash hcontrol ih
  | short he _ ih => exact .short he ih
  | numbered hx _ ih => exact .numbered hx ih
  | paired _ hx hy _ ih => exact .numbered hx (.numbered hy ih)

theorem Spells.length_le {s t : List Char} (h : Spells s t) : s.length ≤ t.length := by
  induction h with
  | nil => exact Nat.le_refl 0
  | plain | short | numbered | paired =>
    simp only [List.length_cons, List.length_append]
    omega

/-! ### Read back -/

/-- A character has no surrogate's number. -/
theorem not_surrogate (c : Char) : isLowSurrogate c.toNat = false ∧ isHighSurrogate c.toNat = false := by
  have hvalid : c.toNat < 0xD800 ∨ 0xDFFF < c.toNat ∧ c.toNat < 0x110000 := c.valid
  constructor
  · simp only [isLowSurrogate, Bool.and_eq_false_iff, decide_eq_false_iff_not]
    omega
  · simp only [isHighSurrogate, Bool.and_eq_false_iff, decide_eq_false_iff_not]
    omega

theorem scanEscape_numbered {c : Char} {x : List Char} (hx : Hex c.toNat x) (rest : List Char) :
    scanEscape ('u' :: (x ++ rest)) = .ok (c, rest) := by
  obtain ⟨hlow, hhigh⟩ := not_surrogate c
  have hshort : shortEscape 'u' = none := by decide
  simp [scanEscape, hshort, scanHex_hex hx, hlow, hhigh, bind, Except.bind]

/-- Two surrogates are read as the character they number. -/
theorem scanEscape_paired {c : Char} {x y : List Char} (hc : 0x10000 ≤ c.toNat)
    (hx : Hex (0xD800 + (c.toNat - 0x10000) / 0x400) x) (hy : Hex (0xDC00 + (c.toNat - 0x10000) % 0x400) y)
    (rest : List Char) : scanEscape ('u' :: (x ++ '\\' :: 'u' :: (y ++ rest))) = .ok (c, rest) := by
  have hvalid : c.toNat < 0xD800 ∨ 0xDFFF < c.toNat ∧ c.toNat < 0x110000 := c.valid
  have hshort : shortEscape 'u' = none := by decide
  have hnot : isLowSurrogate (0xD800 + (c.toNat - 0x10000) / 0x400) = false := by
    simp only [isLowSurrogate, Bool.and_eq_false_iff, decide_eq_false_iff_not]
    omega
  have hhigh : isHighSurrogate (0xD800 + (c.toNat - 0x10000) / 0x400) = true := by
    simp only [isHighSurrogate, Bool.and_eq_true, decide_eq_true_eq]
    omega
  have hlow : isLowSurrogate (0xDC00 + (c.toNat - 0x10000) % 0x400) = true := by
    simp only [isLowSurrogate, Bool.and_eq_true, decide_eq_true_eq]
    omega
  have hnumber : 0x10000 + (0xD800 + (c.toNat - 0x10000) / 0x400 - 0xD800) * 0x400 +
      (0xDC00 + (c.toNat - 0x10000) % 0x400 - 0xDC00) = c.toNat := by omega
  simp only [scanEscape, hshort, scanHex_hex hx, hnot, hhigh, scanLowSurrogate, scanHex_hex hy, hlow, hnumber, bind,
    Except.bind, if_true, Bool.false_eq_true, if_false, Char.ofNat_toNat]

/-- A backslash and what it stands for, in front of a string. -/
theorem scanStringFrom_backslash {fuel : Nat} {escape rest : List Char} {c : Char} (h : scanEscape escape = .ok (c, rest)) :
    scanStringFrom (fuel + 1) ('\\' :: escape) = (scanStringFrom fuel rest).map fun p => (c :: p.1, p.2) := by
  rw [scanStringFrom]
  simp only [h, bind, Except.bind]
  cases scanStringFrom fuel rest <;> rfl

theorem scanStringFrom_spells {s t : List Char} (h : Spells s t) (rest : List Char) :
    ∀ {fuel : Nat}, s.length < fuel → scanStringFrom fuel (t ++ '"' :: rest) = .ok (s, rest) := by
  induction h with
  | nil =>
    intro fuel hfuel
    obtain ⟨fuel, rfl⟩ : ∃ n, fuel = n + 1 := ⟨fuel - 1, by omega⟩
    rfl
  | @plain c s t hquote hslash hcontrol _ ih =>
    intro fuel hfuel
    obtain ⟨fuel, rfl⟩ : ∃ n, fuel = n + 1 := ⟨fuel - 1, by omega⟩
    rw [List.cons_append, scanStringFrom, if_neg hquote, if_neg hslash, if_neg hcontrol, ih (by simpa using hfuel)]
    rfl
  | @short e c s t he _ ih =>
    intro fuel hfuel
    obtain ⟨fuel, rfl⟩ : ∃ n, fuel = n + 1 := ⟨fuel - 1, by omega⟩
    have hescape : scanEscape (e :: (t ++ '"' :: rest)) = .ok (c, t ++ '"' :: rest) := by simp [scanEscape, he]
    rw [List.cons_append, List.cons_append, scanStringFrom_backslash hescape, ih (by simpa using hfuel)]
    rfl
  | @numbered c x s t hx _ ih =>
    intro fuel hfuel
    obtain ⟨fuel, rfl⟩ : ∃ n, fuel = n + 1 := ⟨fuel - 1, by omega⟩
    rw [List.cons_append, List.cons_append, List.append_assoc, scanStringFrom_backslash (scanEscape_numbered hx _),
      ih (by simpa using hfuel)]
    rfl
  | @paired c x y s t hc hx hy _ ih =>
    intro fuel hfuel
    obtain ⟨fuel, rfl⟩ : ∃ n, fuel = n + 1 := ⟨fuel - 1, by omega⟩
    simp only [List.cons_append, List.append_assoc]
    rw [scanStringFrom_backslash (scanEscape_paired hc hx hy _), ih (by simpa using hfuel)]
    rfl

/-- Every spelling is read from behind its opening quote as what it spells. -/
theorem scanString_spells {s : String} {t : List Char} (h : Spells s.toList t) (rest : List Char) :
    scanString (t ++ '"' :: rest) = .ok (s, rest) := by
  have hlen := h.length_le
  unfold scanString
  rw [scanStringFrom_spells h rest (by simp only [List.length_append, List.length_cons]; omega)]
  simp [bind, Except.bind]

/-! ### Passed over -/

theorem skipStringFrom_quoted {t : List Char} (h : Quoted t) (rest : List Char) :
    ∀ {fuel : Nat}, t.length < fuel → skipStringFrom fuel (t ++ '"' :: rest) = .ok rest := by
  induction h with
  | nil =>
    intro fuel hfuel
    obtain ⟨fuel, rfl⟩ : ∃ n, fuel = n + 1 := ⟨fuel - 1, by omega⟩
    rfl
  | plain hquote hslash hcontrol _ ih =>
    intro fuel hfuel
    obtain ⟨fuel, rfl⟩ : ∃ n, fuel = n + 1 := ⟨fuel - 1, by omega⟩
    simp only [List.length_cons] at hfuel
    simp [skipStringFrom, hquote, hslash, hcontrol, ih (show _ < fuel by omega)]
  | short he _ ih =>
    intro fuel hfuel
    obtain ⟨fuel, rfl⟩ : ∃ n, fuel = n + 1 := ⟨fuel - 1, by omega⟩
    simp only [List.length_cons] at hfuel
    simp [skipStringFrom, he, ih (show _ < fuel by omega)]
  | numbered hx _ ih =>
    intro fuel hfuel
    obtain ⟨fuel, rfl⟩ : ∃ n, fuel = n + 1 := ⟨fuel - 1, by omega⟩
    have hshort : shortEscape 'u' = none := by decide
    simp only [List.length_cons, List.length_append] at hfuel
    simp [skipStringFrom, hshort, scanHex_hex hx, ih (show _ < fuel by omega), bind, Except.bind]

/-- What may stand between quotes is passed over from behind the opening one. -/
theorem skipString_quoted {t : List Char} (h : Quoted t) (rest : List Char) : skipString (t ++ '"' :: rest) = .ok rest :=
  skipStringFrom_quoted h rest (by simp only [List.length_append, List.length_cons]; omega)

end Json
end PageWidgets
