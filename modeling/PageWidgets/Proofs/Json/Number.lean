import PageWidgets.Json.Printed
import PageWidgets.Json.Reader

/-! Written natural numbers are scanned as themselves. A number has no closing mark, so what follows it matters: no
    reader takes more than the digits when the text ends there, or goes on with a blank, a comma or a closing
    bracket. Numbers up to the largest significand are read exactly; nothing here is about longer ones. -/

namespace PageWidgets
namespace Json

/-- The text ends here, or goes on with what may follow a value. -/
def Ends (rest : List Char) : Prop :=
  ∀ c ∈ rest.head?, isSpace c = true ∨ c = ',' ∨ c = ']' ∨ c = '\x7d'

theorem Ends.nil : Ends [] := nofun

theorem Ends.cons {c : Char} {rest : List Char} (h : isSpace c = true ∨ c = ',' ∨ c = ']' ∨ c = '\x7d') :
    Ends (c :: rest) := by
  intro d hd
  cases hd
  exact h

/-! ### Digits -/

theorem isDigit_iff {c : Char} : isDigit c = true ↔ c.isDigit = true := by
  simp only [isDigit, Char.isDigit, Bool.and_eq_true, decide_eq_true_eq]
  rfl

/-- A character that may follow a value belongs to no number. -/
theorem ending_of_ends {c : Char} (h : isSpace c = true ∨ c = ',' ∨ c = ']' ∨ c = '\x7d') :
    isDigit c = false ∧ c ≠ '.' ∧ isExponentMark c = false := by
  have hspace : isSpace c = true → c = ' ' ∨ c = '\n' ∨ c = '\t' ∨ c = '\r' := by
    intro hc
    simpa [isSpace, or_assoc] using hc
  rcases h with h | rfl | rfl | rfl
  · rcases hspace h with rfl | rfl | rfl | rfl <;> decide
  all_goals decide

theorem Ends.dropWhile {rest : List Char} (h : Ends rest) : rest.dropWhile isDigit = rest := by
  cases rest with
  | nil => rfl
  | cons c rest => exact List.dropWhile_cons_of_neg (by simp [(ending_of_ends (h c rfl)).1])

theorem ofDigitChars_le (ds : List Char) (k : Nat) : k ≤ Nat.ofDigitChars 10 ds k := by
  induction ds generalizing k with
  | nil => exact Nat.le_refl k
  | cons c ds ih =>
    rw [Nat.ofDigitChars_cons]
    have := ih (10 * k + (c.toNat - '0'.toNat))
    omega

/-- Digits whose number fits the significand are all taken. -/
theorem scanDigits_digits {ds rest : List Char} (hdigits : ∀ c ∈ ds, c.isDigit = true) (hrest : Ends rest) :
    ∀ {k : Nat}, Nat.ofDigitChars 10 ds k ≤ largestSignificand →
      scanDigits k (ds ++ rest) = (Nat.ofDigitChars 10 ds k, rest) := by
  induction ds with
  | nil =>
    intro k _
    cases rest with
    | nil => rfl
    | cons c rest =>
      have hc := (ending_of_ends (hrest c rfl)).1
      simp [scanDigits, hc]
  | cons c ds ih =>
    intro k hle
    have hc : isDigit c = true := isDigit_iff.mpr (hdigits c List.mem_cons_self)
    have hstep : k * 10 + digitValue c = 10 * k + (c.toNat - '0'.toNat) := by rw [Nat.mul_comm]; rfl
    rw [Nat.ofDigitChars_cons] at hle
    have hfits : 10 * k + (c.toNat - '0'.toNat) ≤ largestSignificand := Nat.le_trans (ofDigitChars_le ds _) hle
    rw [List.cons_append, scanDigits, hstep, if_pos ⟨hc, hfits⟩,
      ih (fun d hd => hdigits d (List.mem_cons_of_mem c hd)) hle, Nat.ofDigitChars_cons]

/-! ### Written numbers -/

/-- A number is written as a zero, or from a digit that is none. -/
theorem toDigits_cases (n : Nat) : Nat.toDigits 10 n = ['0'] ∧ n = 0 ∨ ∃ c ds, Nat.toDigits 10 n = c :: ds ∧ c ≠ '0' := by
  induction n using Nat.strongRecOn with
  | _ n ih =>
    by_cases hsmall : n < 10
    · rw [Nat.toDigits_of_lt_base hsmall]
      rcases Nat.eq_zero_or_pos n with rfl | hpos
      · exact .inl ⟨rfl, rfl⟩
      · exact .inr ⟨_, [], rfl, fun h => by simp at h; omega⟩
    · rw [Nat.toDigits_of_base_le (by decide) (Nat.le_of_not_lt hsmall)]
      rcases ih (n / 10) (by omega) with ⟨-, hzero⟩ | ⟨c, ds, heq, hc⟩
      · omega
      · exact .inr ⟨c, ds ++ [_], by rw [heq]; rfl, hc⟩

theorem isDigit_of_mem_toDigits {n : Nat} {c : Char} (h : c ∈ Nat.toDigits 10 n) : c.isDigit = true :=
  Nat.isDigit_of_mem_toDigits (by decide) (by decide) h

theorem toList_toString_nat (n : Nat) : (toString (n : Int)).toList = Nat.toDigits 10 n := by
  have hrepr : toString (n : Int) = n.repr := rfl
  rw [hrepr, Nat.toList_repr]

theorem scanNumberEnd_ends {n : Nat} {rest : List Char} (hrest : Ends rest) :
    scanNumberEnd false n 0 rest = .ok (.integer n, rest) := by
  cases rest with
  | nil => rfl
  | cons c rest =>
    obtain ⟨-, hpoint, hmark⟩ := ending_of_ends (hrest c rfl)
    simp [scanNumberEnd, hpoint, hmark, wholeNumber]

theorem skipNumberEnd_ends {rest : List Char} (hrest : Ends rest) : skipNumberEnd rest = .ok rest := by
  cases rest with
  | nil => rfl
  | cons c rest =>
    obtain ⟨-, hpoint, hmark⟩ := ending_of_ends (hrest c rfl)
    simp [skipNumberEnd, hpoint, hmark]

section Written

variable {n : Nat} {rest : List Char}

/-- The digits of a number that fits the significand are read as that number. -/
theorem scanUnsigned_toDigits (hn : n ≤ largestSignificand) (hrest : Ends rest) :
    scanUnsigned false (Nat.toDigits 10 n ++ rest) = .ok (.integer n, rest) := by
  rcases toDigits_cases n with ⟨heq, rfl⟩ | ⟨c, ds, heq, hc⟩
  · rw [heq]
    have hend : scanNumberEnd false 0 0 rest = .ok (.integer 0, rest) := scanNumberEnd_ends hrest
    cases rest with
    | nil => exact hend
    | cons d rest => simp [scanUnsigned, (ending_of_ends (hrest d rfl)).1, hend]
  · have hdigits : ∀ d ∈ c :: ds, d.isDigit = true := fun d hd => isDigit_of_mem_toDigits (heq ▸ hd)
    have hvalue : Nat.ofDigitChars 10 ds (digitValue c) = n := by
      rw [← @Nat.ofDigitChars_ten_toDigits n, heq, Nat.ofDigitChars_cons, Nat.mul_zero, Nat.zero_add]
      rfl
    have hscan : scanDigits (digitValue c) (ds ++ rest) = (n, rest) := by
      rw [scanDigits_digits (fun d hd => hdigits d (List.mem_cons_of_mem c hd)) hrest (hvalue ▸ hn), hvalue]
    have hfirst : isDigit c = true := isDigit_iff.mpr (hdigits c List.mem_cons_self)
    simp [heq, scanUnsigned, hc, hfirst, hscan, hrest.dropWhile, scanNumberEnd_ends hrest]

/-- A number starts with a digit. -/
theorem toDigits_eq_cons (n : Nat) : ∃ c ds, Nat.toDigits 10 n = c :: ds ∧ isDigit c = true := by
  cases heq : Nat.toDigits 10 n with
  | nil => exact absurd heq Nat.toDigits_ne_nil
  | cons c ds => exact ⟨c, ds, rfl, isDigit_iff.mpr (isDigit_of_mem_toDigits (heq ▸ List.mem_cons_self))⟩

theorem scanNumber_toDigits (hn : n ≤ largestSignificand) (hrest : Ends rest) :
    scanNumber (Nat.toDigits 10 n ++ rest) = .ok (.integer n, rest) := by
  obtain ⟨c, ds, heq, hc⟩ := toDigits_eq_cons n
  have hscan := scanUnsigned_toDigits hn hrest
  have hminus : c ≠ '-' := fun h => absurd (h ▸ hc) (by decide)
  rw [heq, List.cons_append] at hscan ⊢
  rw [scanNumber, if_neg hminus, hscan]

end Written

/-! ### Numerals -/

/-- One digit or more. -/
def Digits (l : List Char) : Prop := l ≠ [] ∧ ∀ c ∈ l, isDigit c = true

/-- The whole digits of a numeral: a zero, or digits from one that is none. -/
inductive Whole : List Char → Prop
  | zero : Whole ['0']
  | digits {c : Char} {ds : List Char} (hc : isDigit c = true) (hzero : c ≠ '0') (hds : ∀ d ∈ ds, isDigit d = true) :
      Whole (c :: ds)

/-- What a numeral has of a fraction. -/
inductive Fraction : List Char → Prop
  | none : Fraction []
  | point {ds : List Char} (hds : Digits ds) : Fraction ('.' :: ds)

/-- What a numeral has of an exponent. -/
inductive Exponent : List Char → Prop
  | none : Exponent []
  | mark {c : Char} {sign ds : List Char} (hc : isExponentMark c = true)
      (hsign : sign = [] ∨ sign = ['+'] ∨ sign = ['-']) (hds : Digits ds) : Exponent (c :: (sign ++ ds))

/-- A numeral behind its sign, whatever number it spells. -/
inductive Numeral : List Char → Prop
  | mk {whole fraction exponent : List Char} (hw : Whole whole) (hf : Fraction fraction) (he : Exponent exponent) :
      Numeral (whole ++ (fraction ++ exponent))

theorem Whole.eq_cons {w : List Char} (h : Whole w) : ∃ c ds, w = c :: ds ∧ isDigit c = true := by
  cases h with
  | zero => exact ⟨'0', [], rfl, by decide⟩
  | digits hc => exact ⟨_, _, rfl, hc⟩

theorem Numeral.eq_cons {t : List Char} (h : Numeral t) : ∃ c t', t = c :: t' ∧ isDigit c = true := by
  obtain ⟨hw, -, -⟩ := h
  obtain ⟨c, ds, rfl, hc⟩ := hw.eq_cons
  exact ⟨c, _, rfl, hc⟩

/-- A natural number is written as a numeral. -/
theorem numeral_toDigits (n : Nat) : Numeral (Nat.toDigits 10 n) := by
  have hwhole : Whole (Nat.toDigits 10 n) := by
    rcases toDigits_cases n with ⟨heq, -⟩ | ⟨c, ds, heq, hc⟩
    · rw [heq]
      exact .zero
    · have hdigits : ∀ d ∈ c :: ds, isDigit d = true := fun d hd => isDigit_iff.mpr (isDigit_of_mem_toDigits (heq ▸ hd))
      rw [heq]
      exact .digits (hdigits c List.mem_cons_self) hc fun d hd => hdigits d (List.mem_cons_of_mem c hd)
  simpa using Numeral.mk hwhole .none .none

section Numerals

variable {ds l rest : List Char}

theorem dropWhile_digits (hds : ∀ d ∈ ds, isDigit d = true) (hl : ∀ c ∈ l.head?, isDigit c = false) :
    (ds ++ l).dropWhile isDigit = l := by
  rw [List.dropWhile_append_of_pos hds]
  cases l with
  | nil => rfl
  | cons c l => exact List.dropWhile_cons_of_neg (by simp [hl c rfl])

theorem Ends.head (h : Ends rest) : ∀ c ∈ rest.head?, isDigit c = false := fun c hc => (ending_of_ends (h c hc)).1

theorem skipExponent_digits {sign : List Char} (hsign : sign = [] ∨ sign = ['+'] ∨ sign = ['-']) (hds : Digits ds)
    (hrest : Ends rest) : skipExponent (sign ++ (ds ++ rest)) = .ok rest := by
  obtain ⟨hne, hdigits⟩ := hds
  obtain ⟨d, ds, rfl⟩ := List.exists_cons_of_ne_nil hne
  have hd : isDigit d = true := hdigits d List.mem_cons_self
  have hplus : d ≠ '+' := by
    rintro rfl
    exact absurd hd (by decide)
  have hminus : d ≠ '-' := by
    rintro rfl
    exact absurd hd (by decide)
  have hdrop : (ds ++ rest).dropWhile isDigit = rest :=
    dropWhile_digits (fun c hc => hdigits c (List.mem_cons_of_mem d hc)) hrest.head
  rcases hsign with rfl | rfl | rfl <;> simp [skipExponent, exponentSign, hplus, hminus, hd, hdrop]

theorem Exponent.head {e : List Char} (he : Exponent e) (hrest : Ends rest) :
    ∀ c ∈ (e ++ rest).head?, isDigit c = false ∧ c ≠ '.' := by
  cases he with
  | none =>
    intro c hc
    obtain ⟨hdigit, hpoint, -⟩ := ending_of_ends (hrest c hc)
    exact ⟨hdigit, hpoint⟩
  | mark hmark =>
    intro c hc
    obtain rfl : _ = c := Option.some.inj hc
    simp only [isExponentMark, Bool.or_eq_true, beq_iff_eq] at hmark
    rcases hmark with rfl | rfl <;> decide

theorem skipNumberEnd_exponent {e : List Char} (he : Exponent e) (hrest : Ends rest) :
    skipNumberEnd (e ++ rest) = .ok rest := by
  cases he with
  | none => exact skipNumberEnd_ends hrest
  | @mark c sign ds hc hsign hds =>
    have hpoint : c ≠ '.' := by
      rintro rfl
      exact absurd hc (by decide)
    rw [List.cons_append, List.append_assoc]
    simp [skipNumberEnd, hpoint, hc, skipExponent_digits hsign hds hrest]

theorem skipNumberEnd_point (hds : Digits ds) (hl : ∀ c ∈ l.head?, isDigit c = false ∧ c ≠ '.') :
    skipNumberEnd ('.' :: (ds ++ l)) = skipNumberEnd l := by
  obtain ⟨hne, hdigits⟩ := hds
  obtain ⟨d, ds, rfl⟩ := List.exists_cons_of_ne_nil hne
  have hdrop : (d :: (ds ++ l)).dropWhile isDigit = l := dropWhile_digits hdigits fun c hc => (hl c hc).1
  have hd : isDigit d = true := hdigits d List.mem_cons_self
  cases l with
  | nil =>
    rw [List.append_nil] at hdrop ⊢
    simp only [skipNumberEnd, hd, hdrop, if_true]
  | cons c l => simp [skipNumberEnd, hd, hdrop, (hl c rfl).2]

/-- A numeral is passed over. -/
theorem skipUnsigned_numeral {t : List Char} (h : Numeral t) (hrest : Ends rest) : skipUnsigned (t ++ rest) = .ok rest := by
  obtain @⟨w, f, e, hw, hf, he⟩ := h
  have hend : skipNumberEnd (f ++ (e ++ rest)) = .ok rest := by
    cases hf with
    | none => exact skipNumberEnd_exponent he hrest
    | point hds =>
      rw [List.cons_append, skipNumberEnd_point hds (he.head hrest)]
      exact skipNumberEnd_exponent he hrest
  have hhead : ∀ c ∈ (f ++ (e ++ rest)).head?, isDigit c = false := by
    cases hf with
    | none => exact fun c hc => (he.head hrest c hc).1
    | point =>
      intro c hc
      cases hc
      decide
  rw [List.append_assoc, List.append_assoc]
  generalize f ++ (e ++ rest) = l at hend hhead
  cases hw with
  | zero =>
    cases l with
    | nil => exact hend
    | cons c l => simp [skipUnsigned, hhead c rfl, hend]
  | digits hc hzero hds => simp [skipUnsigned, hzero, hc, dropWhile_digits hds hhead, hend]

end Numerals
end Json
end PageWidgets
