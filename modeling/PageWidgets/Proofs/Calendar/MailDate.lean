import PageWidgets.Calendar.MailDate
import PageWidgets.Proofs.Calendar.Date
import PageWidgets.Proofs.Text.Split

/-! A written date reads back as the second it was written for, if its year has the four digits of the written form.
    Any other year is written with a sign, and no date with a sign before its year is read. -/

namespace PageWidgets
namespace Calendar
namespace MailDate

/-! ### Numbers -/

theorem isDigit_iff {c : Char} : isDigit c = true ↔ c.isDigit = true := by
  simp only [isDigit, Char.isDigit, Bool.and_eq_true, decide_eq_true_eq]
  rfl

theorem ofDigits_eq (l : List Char) : ofDigits l = Nat.ofDigitChars 10 l 0 := by
  simp only [ofDigits, Nat.ofDigitChars, Nat.mul_comm 10]
  rfl

theorem toList_padded (width n : Nat) :
    (padded width n).toList = List.replicate (width - (Nat.toDigits 10 n).length) '0' ++ Nat.toDigits 10 n := by
  have hdigits : (toString n).toList = Nat.toDigits 10 n := Nat.toList_repr
  rw [padded, String.toList_append, String.toList_ofList, hdigits, ← String.length_toList, hdigits]

theorem isDigit_of_mem_padded {width n : Nat} {c : Char} (h : c ∈ (padded width n).toList) : isDigit c = true := by
  rw [toList_padded] at h
  rcases List.mem_append.mp h with h | h
  · rw [List.eq_of_mem_replicate h]
    rfl
  · exact isDigit_iff.mpr (Nat.isDigit_of_mem_toDigits (by decide) (by decide) h)

/-- The number has at most that many digits. -/
def FitsIn (width n : Nat) : Prop := (Nat.toDigits 10 n).length ≤ width

theorem fitsIn_two {n : Nat} (h : n < 100) : FitsIn 2 n :=
  (Nat.length_toDigits_le_iff (by decide) (by decide)).mpr h

theorem fitsIn_four {n : Nat} (h : n < 10000) : FitsIn 4 n :=
  (Nat.length_toDigits_le_iff (by decide) (by decide)).mpr h

theorem length_padded {width n : Nat} (hn : FitsIn width n) : (padded width n).toList.length = width := by
  unfold FitsIn at hn
  rw [toList_padded, List.length_append, List.length_replicate]
  omega

theorem ofDigits_padded (width n : Nat) : ofDigits (padded width n).toList = n := by
  rw [ofDigits_eq, toList_padded, Nat.ofDigitChars_append, Nat.ofDigitChars_replicate_zero, Nat.mul_zero,
    Nat.ofDigitChars_ten_toDigits]

/-- Digits are read as their number, when they are as many as may be read, or nothing goes on with a digit. -/
theorem number_digits {least most : Nat} {digits rest : List Char} (hdigits : ∀ c ∈ digits, isDigit c = true)
    (hleast : least ≤ digits.length) (hmost : digits.length = most ∨ digits.length ≤ most ∧ rest.takeWhile isDigit = []) :
    number least most (digits ++ rest) = some (ofDigits digits, rest) := by
  have htake : ((digits ++ rest).takeWhile isDigit).take most = digits := by
    rw [List.takeWhile_append_of_pos hdigits]
    rcases hmost with rfl | ⟨hle, hrest⟩
    · exact List.take_left
    · rw [hrest, List.append_nil]
      exact List.take_of_length_le hle
  simp only [number, htake, if_pos hleast, List.drop_left]

theorem number_padded {least most width n : Nat} {rest : List Char} (hn : FitsIn width n)
    (hleast : least ≤ width) (hmost : width = most ∨ width ≤ most ∧ rest.takeWhile isDigit = []) :
    number least most ((padded width n).toList ++ rest) = some (n, rest) := by
  have hlen := length_padded hn
  rw [number_digits (fun _ => isDigit_of_mem_padded) (by omega) (by rwa [hlen]), ofDigits_padded]

theorem number_twoDigits {k n : Nat} (hk : k ≤ 2) (hn : FitsIn 2 n) (rest : List Char) :
    number k 2 ((padded 2 n).toList ++ rest) = some (n, rest) :=
  number_padded hn hk (.inl rfl)

theorem number_of_not_digit {least most : Nat} (hleast : 0 < least) {c : Char} (h : isDigit c = false)
    (l : List Char) : number least most (c :: l) = none := by
  have hlt : ¬least ≤ 0 := by omega
  simp [number, h, hlt]

theorem isBlank_of_isDigit {c : Char} (h : isDigit c = true) : Text.isBlank c = false := by
  simp only [isDigit, Bool.and_eq_true, decide_eq_true_eq] at h
  have h0 : 0x30 ≤ c.toNat := h.1
  have h9 : c.toNat ≤ 0x39 := h.2
  simp only [Text.isBlank, Bool.or_eq_false_iff, Bool.and_eq_false_iff, decide_eq_false_iff_not, beq_eq_false_iff_ne]
  omega

theorem trimStart_padded {width n : Nat} (hwidth : 0 < width) (hn : FitsIn width n) (rest : List Char) :
    Text.trimStart ((padded width n).toList ++ rest) = (padded width n).toList ++ rest := by
  cases h : (padded width n).toList with
  | nil =>
    have := length_padded hn
    rw [h, List.length_nil] at this
    omega
  | cons c l =>
    exact Text.trimStart_of_head (isBlank_of_isDigit (isDigit_of_mem_padded (h ▸ List.mem_cons_self)))

/-! ### The parts of a date -/

theorem dayName_weekday {i : Nat} (h : i < 7) (rest : List Char) :
    dayName (Text.trimStart ((weekdayNames.getD i "").toList ++ ',' :: rest)) = some (some i, rest) := by
  have hcases : i = 0 ∨ i = 1 ∨ i = 2 ∨ i = 3 ∨ i = 4 ∨ i = 5 ∨ i = 6 := by omega
  rcases hcases with rfl | rfl | rfl | rfl | rfl | rfl | rfl <;> rfl

theorem shortName_month {i : Nat} (h : i < 12) (rest : List Char) :
    blanks (' ' :: ((monthNames.getD i "").toList ++ rest)) = some ((monthNames.getD i "").toList ++ rest) ∧
      shortName monthNames ((monthNames.getD i "").toList ++ rest) = some (i, rest) := by
  have hcases : i = 0 ∨ i = 1 ∨ i = 2 ∨ i = 3 ∨ i = 4 ∨ i = 5 ∨ i = 6 ∨ i = 7 ∨ i = 8 ∨ i = 9 ∨ i = 10 ∨ i = 11 := by
    omega
  rcases hcases with rfl | rfl | rfl | rfl | rfl | rfl | rfl | rfl | rfl | rfl | rfl | rfl <;> exact ⟨rfl, rfl⟩

theorem trimStart_blank (l : List Char) : Text.trimStart (' ' :: l) = Text.trimStart l := rfl

theorem blanks_padded {width n : Nat} (hwidth : 0 < width) (hn : FitsIn width n) (rest : List Char) :
    blanks (' ' :: ((padded width n).toList ++ rest)) = some ((padded width n).toList ++ rest) :=
  congrArg some (trimStart_padded hwidth hn rest)

theorem mark_colon (l : List Char) : mark ':' (Text.trimStart (':' :: l)) = some l := rfl

theorem seconds_padded {n : Nat} (hn : FitsIn 2 n) (rest : List Char) :
    seconds (':' :: ((padded 2 n).toList ++ rest)) = some (n, rest) := by
  rw [seconds, mark_colon]
  exact number_twoDigits (by decide) hn rest

/-! ### Years -/

theorem fitsIn_of_fourDigits {y : Int} (h : 0 ≤ y ∧ y ≤ 9999) : FitsIn 4 y.toNat := fitsIn_four (by omega)

theorem toList_yearText_of_sign {y : Int} (h : ¬(0 ≤ y ∧ y ≤ 9999)) :
    (yearText y).toList = (if y < 0 then '-' else '+') :: (padded 4 y.natAbs).toList := by
  rw [yearText, if_neg h, String.toList_append]
  split <;> rfl

theorem blanks_yearText (y : Int) (rest : List Char) :
    blanks (' ' :: ((yearText y).toList ++ rest)) = some ((yearText y).toList ++ rest) := by
  by_cases h : 0 ≤ y ∧ y ≤ 9999
  · rw [yearText, if_pos h]
    exact blanks_padded (by decide) (fitsIn_of_fourDigits h) rest
  · rw [toList_yearText_of_sign h]
    split <;> rfl

/-- A year is read back when it has four digits; no year begins with a sign. -/
theorem year_yearText (y : Int) (rest : List Char) :
    year ((yearText y).toList ++ ' ' :: rest) =
      if 0 ≤ y ∧ y ≤ 9999 then some (y.toNat, ' ' :: rest) else none := by
  by_cases h : 0 ≤ y ∧ y ≤ 9999
  · have hlen := length_padded (fitsIn_of_fourDigits h)
    have hcount : ((padded 4 y.toNat).toList ++ ' ' :: rest).length = (' ' :: rest).length + 4 := by
      rw [List.length_append, hlen, Nat.add_comm]
    rw [if_pos h, yearText, if_pos h, year,
      number_padded (fitsIn_of_fourDigits h) (by decide) (.inr ⟨by omega, rfl⟩)]
    simp only [hcount, Nat.add_sub_cancel_left]
  · have hsign : isDigit (if y < 0 then '-' else '+') = false := by split <;> rfl
    rw [if_neg h, toList_yearText_of_sign h, year, List.cons_append, number_of_not_digit (by decide) hsign]

/-! ### Whole dates -/

/-- The written form of a day of the week, a date and a second of the day, without a zone. -/
def written (weekday : Nat) (d : Date) (s : Nat) : List Char :=
  (weekdayNames.getD weekday "").toList ++ ',' :: ' ' :: ((padded 2 d.day).toList ++
    ' ' :: ((monthNames.getD (d.month - 1) "").toList ++ ' ' :: ((yearText d.year).toList ++
    ' ' :: ((padded 2 (s / 3600)).toList ++ ':' :: ((padded 2 (s / 60 % 60)).toList ++
    ':' :: (padded 2 (s % 60)).toList)))))

/-- The written form of an instant, up to the zone. -/
def unzoned (t : Instant) : List Char := written (weekday t.day) (Date.ofDays t.day) t.secondOfDay

theorem toList_text (t : Instant) : (text t).toList = unzoned t ++ " GMT".toList := by
  simp [text, unzoned, written, String.toList_append]

theorem day_le_of_valid {d : Date} (h : d.valid = true) : (1 ≤ d.month ∧ d.month ≤ 12) ∧ d.day ≤ 31 := by
  obtain ⟨⟨hmonth, -⟩, hday⟩ : ((1 ≤ d.month ∧ d.month ≤ 12) ∧ 1 ≤ d.day) ∧ d.day ≤ monthLength d.year d.month := by
    simpa only [Date.valid, Bool.and_eq_true, decide_eq_true_eq] using h
  refine ⟨hmonth, ?_⟩
  have : monthLength d.year d.month ≤ 31 := by
    unfold monthLength
    split
    · split <;> omega
    · split <;> omega
  omega

/-- Of a written date, only a year with a sign cannot be read. -/
theorem parts_written {i : Nat} {d : Date} {s : Nat} (hi : i < 7) (hd : d.valid = true) (hs : s < 86400) :
    parts (written i d s ++ " +0000".toList) =
      if 0 ≤ d.year ∧ d.year ≤ 9999 then some ⟨some i, d, s / 3600, s / 60 % 60, s % 60, 0⟩ else none := by
  obtain ⟨⟨hm1, hm12⟩, hd31⟩ := day_le_of_valid hd
  have hday : FitsIn 2 d.day := fitsIn_two (by omega)
  have hhour : FitsIn 2 (s / 3600) := fitsIn_two (by omega)
  have hminute : FitsIn 2 (s / 60 % 60) := fitsIn_two (by omega)
  have hsecond : FitsIn 2 (s % 60) := fitsIn_two (by omega)
  have hmonth := fun rest => shortName_month (i := d.month - 1) (by omega) rest
  -- The day of the week, the day and the month are read from any date; the year decides whether the rest is.
  simp only [parts, written, List.append_assoc, List.cons_append, dayName_weekday hi, Option.bind_eq_bind,
    Option.bind_some, trimStart_blank, trimStart_padded (show 0 < 2 by decide) hday,
    number_twoDigits (show 1 ≤ 2 by decide) hday, (hmonth _).1, (hmonth _).2, blanks_yearText, year_yearText]
  by_cases hy : 0 ≤ d.year ∧ d.year ≤ 9999
  · have hdate : (⟨d.year.toNat, d.month - 1 + 1, d.day⟩ : Date) = d := by
      rw [Int.toNat_of_nonneg hy.1, Nat.sub_add_cancel hm1]
    simp only [if_pos hy, Option.bind_some, blanks_padded (show 0 < 2 by decide) hhour,
      number_twoDigits (show 2 ≤ 2 by decide) hhour, mark_colon, trimStart_padded (show 0 < 2 by decide) hminute,
      number_twoDigits (show 2 ≤ 2 by decide) hminute, seconds_padded hsecond, hdate]
    rfl
  · simp only [if_neg hy, Option.bind_none]

theorem secondOfDay_lt (t : Instant) : t.secondOfDay < 86400 := by
  unfold Instant.secondOfDay dayMillis
  omega

/-- The parts of an instant, in the zone of its written form. -/
def partsOf (t : Instant) : Parts :=
  ⟨some (weekday t.day), Date.ofDays t.day, t.secondOfDay / 3600, t.secondOfDay / 60 % 60, t.secondOfDay % 60, 0⟩

theorem valid_partsOf (t : Instant) : (partsOf t).valid = true := by
  have hs := secondOfDay_lt t
  have hhour : t.secondOfDay / 3600 < 24 := by omega
  have hminute : t.secondOfDay / 60 % 60 < 60 := by omega
  have hsecond : t.secondOfDay % 60 ≤ 60 := by omega
  simp [partsOf, Parts.valid, Date.valid_ofDays, Date.days_ofDays, hhour, hminute, hsecond]

theorem secondOfDay_parts (t : Instant) :
    ((t.secondOfDay / 3600 : Nat) : Int) * 3600 + (t.secondOfDay / 60 % 60 : Nat) * 60 + (t.secondOfDay % 60 : Nat) =
      t % dayMillis / 1000 := by
  have hs : (t.secondOfDay : Int) = t % dayMillis / 1000 :=
    Int.toNat_of_nonneg (Int.ediv_nonneg (Int.emod_nonneg t (by decide)) (by decide))
  omega

theorem instant_partsOf (t : Instant) : (partsOf t).instant = t.wholeSecond := by
  simp only [partsOf, Parts.instant, Date.days_ofDays, Instant.day, Instant.wholeSecond, secondOfDay_parts]
  change (_ : Int) = _
  unfold dayMillis
  omega

/-- The year of the instant is written with four digits. -/
def FourDigitYear (t : Instant) : Prop := 0 ≤ (Date.ofDays t.day).year ∧ (Date.ofDays t.day).year ≤ 9999

instance (t : Instant) : Decidable (FourDigitYear t) := inferInstanceAs (Decidable (_ ∧ _))

theorem parts_unzoned (t : Instant) :
    parts (unzoned t ++ " +0000".toList) = if FourDigitYear t then some (partsOf t) else none := by
  have hweekday : weekday t.day < 7 := by
    unfold weekday
    omega
  exact parts_written hweekday (Date.valid_ofDays t.day) (secondOfDay_lt t)

/-- A written date, its zone as an offset, is read as the second it was written for, if its year has four digits. -/
theorem read_unzoned (t : Instant) :
    read (unzoned t ++ " +0000".toList) =
      if FourDigitYear t then some t.wholeSecond else none := by
  rw [read, parts_unzoned]
  by_cases hy : FourDigitYear t
  · simp only [if_pos hy, valid_partsOf, if_true, instant_partsOf]
  · simp only [if_neg hy]

/-! ### Characters -/

/-- A character that neither begins the name of the zone nor ends an attribute. -/
def isDateChar (c : Char) : Bool := c != 'G' && c != ';'

theorem isDateChar_padded (width n : Nat) : (padded width n).toList.all isDateChar = true := by
  refine List.all_eq_true.mpr fun c hc => ?_
  have hdigit := isDigit_of_mem_padded hc
  have hG : c ≠ 'G' := fun h => by
    rw [h] at hdigit
    exact absurd hdigit (by decide)
  have hsep : c ≠ ';' := fun h => by
    rw [h] at hdigit
    exact absurd hdigit (by decide)
  simp [isDateChar, hG, hsep]

theorem isDateChar_yearText (y : Int) : (yearText y).toList.all isDateChar = true := by
  by_cases h : 0 ≤ y ∧ y ≤ 9999
  · rw [yearText, if_pos h]
    exact isDateChar_padded 4 y.toNat
  · rw [toList_yearText_of_sign h, List.all_cons, isDateChar_padded]
    split <;> rfl

theorem isDateChar_getD {names : List String} (h : ∀ n ∈ names, n.toList.all isDateChar = true) (i : Nat) :
    (names.getD i "").toList.all isDateChar = true := by
  rw [List.getD_eq_getElem?_getD]
  cases hi : names[i]? with
  | none => rfl
  | some n => exact h n (List.mem_of_getElem? hi)

theorem isDateChar_of_mem_unzoned {t : Instant} {c : Char} (h : c ∈ unzoned t) : c ≠ 'G' ∧ c ≠ ';' := by
  have hall : (unzoned t).all isDateChar = true := by
    have hweekdays : ∀ n ∈ weekdayNames, n.toList.all isDateChar = true := by decide
    have hmonths : ∀ n ∈ monthNames, n.toList.all isDateChar = true := by decide
    simp only [unzoned, written, List.all_append, List.all_cons, isDateChar_padded, isDateChar_yearText,
      isDateChar_getD hweekdays, isDateChar_getD hmonths]
    rfl
  have hc := List.all_eq_true.mp hall c h
  simpa [isDateChar] using hc

end MailDate
end Calendar
end PageWidgets
