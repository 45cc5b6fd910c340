import PageWidgets.Calendar.Date

/-! Dates and day numbers stand for each other. Every number of days has a date that exists, and counting the days of
    that date gives the number back. -/

namespace PageWidgets
namespace Calendar

theorem isLeap_iff {year : Int} :
    isLeap year = true ↔ year % 4 = 0 ∧ (year % 100 ≠ 0 ∨ year % 400 = 0) := by
  simp [isLeap]

namespace Date

/-! ### The cycle of 400 years -/

/-- A day of the `k`th century of the cycle: its year belongs to that century, what is left of the day is a day of a
    year, and the 366th day belongs to a year before one that is divisible by four. -/
theorem century_spec {day year k : Int} (hk : 0 ≤ k ∧ k ≤ 3) (hday : 36524 * k ≤ day ∧ day < 36524 * k + 36524)
    (hyear : year = (day - day / 1460 + k) / 365) :
    year / 100 = k ∧ (0 ≤ day - (365 * year + year / 4 - k) ∧ day - (365 * year + year / 4 - k) ≤ 365) ∧
      (day - (365 * year + year / 4 - k) = 365 → (year + 1) % 4 = 0 ∧ year ≠ 100 * k + 99) := by
  have hc : year / 100 = k := by omega
  refine ⟨hc, by omega, fun h => ?_⟩
  have h4 : year % 4 = 0 ∨ year % 4 = 1 ∨ year % 4 = 2 ∨ year % 4 = 3 := by omega
  rcases h4 with h4 | h4 | h4 | h4
  · omega
  · omega
  · omega
  · exact ⟨by omega, by omega⟩

/-- The year of a day of the cycle, and what is left of the day: the year is one of the 400, a year that starts in
    March has at most 366 days, and only one that ends in a leap year has that many. -/
theorem yearOfCycle_spec {day year : Int} (hday : 0 ≤ day ∧ day ≤ 146096)
    (hyear : year = (day - day / 1460 + day / 36524 - day / 146096) / 365) :
    (0 ≤ year ∧ year ≤ 399) ∧
      (0 ≤ day - (365 * year + year / 4 - year / 100) ∧ day - (365 * year + year / 4 - year / 100) ≤ 365) ∧
      (day - (365 * year + year / 4 - year / 100) = 365 → isLeap (year + 1) = true) := by
  by_cases hlast : day = 146096
  · have hy : year = 399 := by omega
    subst hlast hy
    decide
  · obtain ⟨hc, hrest, hleap⟩ := century_spec (show 0 ≤ day / 36524 ∧ day / 36524 ≤ 3 by omega) (by omega)
      (show year = (day - day / 1460 + day / 36524) / 365 by omega)
    rw [hc]
    refine ⟨by omega, hrest, fun h => isLeap_iff.mpr ?_⟩
    obtain ⟨h4, hne⟩ := hleap h
    omega

/-! ### Dates of numbers -/

/-- The day of the year, from the first of March, as a month counted from March and a day: the month is one of twelve,
    and every month but the last has the length it has in any year. -/
theorem monthOfYear_spec {day month : Int} (hday : 0 ≤ day ∧ day ≤ 365) (hmonth : month = (5 * day + 2) / 153) :
    (0 ≤ month ∧ month ≤ 11) ∧ daysBeforeMonth month ≤ day ∧
      (month < 11 → day < daysBeforeMonth (month + 1)) := by
  unfold daysBeforeMonth
  omega

/-- How a date comes from its number: a cycle, a year of the cycle, and a day of that year. -/
theorem ofDays_spec (n : Int) :
    ∃ cycle year day month : Int,
      n + 719468 = cycle * 146097 + (365 * year + year / 4 - year / 100) + day ∧
      (0 ≤ year ∧ year ≤ 399) ∧ (0 ≤ day ∧ day ≤ 365) ∧ (day = 365 → isLeap (year + 1) = true) ∧
      month = (5 * day + 2) / 153 ∧
      ofDays n = ⟨if month < 10 then year + cycle * 400 else year + cycle * 400 + 1,
        (if month < 10 then month + 3 else month - 9).toNat, (day - daysBeforeMonth month + 1).toNat⟩ := by
  refine ⟨(n + 719468) / 146097, ?_⟩
  simp only [ofDays]
  obtain ⟨day, hday⟩ : ∃ day, day = n + 719468 - (n + 719468) / 146097 * 146097 := ⟨_, rfl⟩
  rw [← hday]
  obtain ⟨year, hyear⟩ : ∃ year, year = (day - day / 1460 + day / 36524 - day / 146096) / 365 := ⟨_, rfl⟩
  rw [← hyear]
  obtain ⟨hrange, hrest, hleap⟩ := yearOfCycle_spec (by omega) hyear
  obtain ⟨hmonth, -⟩ := monthOfYear_spec hrest rfl
  refine ⟨year, _, _, by omega, hrange, hrest, hleap, rfl, ?_⟩
  -- The months from January on belong to the next year.
  split
  · next h => rw [if_neg (by omega)]
  · next h => rw [if_pos (by omega)]

/-- Counting the days of the date of a number gives the number. -/
theorem days_ofDays (n : Int) : (ofDays n).days = n := by
  obtain ⟨cycle, year, day, month, hn, hyear, hday, -, hmonth, heq⟩ := ofDays_spec n
  obtain ⟨hrange, hbefore, -⟩ := monthOfYear_spec hday hmonth
  rw [heq]
  unfold days
  by_cases hlate : month < 10
  · have hm : (month + 3).toNat = month + 3 := by omega
    simp only [if_pos hlate, if_neg (show ¬(month + 3).toNat ≤ 2 by omega), hm, Int.add_sub_cancel]
    omega
  · have hm : (month - 9).toNat = month - 9 := by omega
    simp only [if_neg hlate, if_pos (show (month - 9).toNat ≤ 2 by omega), hm, Int.sub_add_cancel]
    omega

theorem isLeap_add_cycle (year cycle : Int) : isLeap (year + cycle * 400 + 1) = isLeap (year + 1) := by
  rw [Bool.eq_iff_iff, isLeap_iff, isLeap_iff]
  omega

/-- A month counted from March, but the last one, has as many days as there are before the next. -/
theorem monthLength_eq {year month : Int} (h : 0 ≤ month ∧ month < 11) :
    (monthLength year (if month < 10 then month + 3 else month - 9).toNat : Int) =
      daysBeforeMonth (month + 1) - daysBeforeMonth month := by
  have hcases : month = 0 ∨ month = 1 ∨ month = 2 ∨ month = 3 ∨ month = 4 ∨ month = 5 ∨ month = 6 ∨ month = 7 ∨
      month = 8 ∨ month = 9 ∨ month = 10 := by omega
  rcases hcases with rfl | rfl | rfl | rfl | rfl | rfl | rfl | rfl | rfl | rfl | rfl <;> rfl

/-- The date of a number exists. -/
theorem valid_ofDays (n : Int) : (ofDays n).valid = true := by
  obtain ⟨cycle, year, day, month, -, -, hday, hleap, hmonth, heq⟩ := ofDays_spec n
  obtain ⟨hrange, hbefore, hafter⟩ := monthOfYear_spec hday hmonth
  have hlen : (day - daysBeforeMonth month + 1).toNat ≤
      monthLength (if month < 10 then year + cycle * 400 else year + cycle * 400 + 1)
        (if month < 10 then month + 3 else month - 9).toNat := by
    by_cases hlast : month < 11
    · have := @monthLength_eq (if month < 10 then year + cycle * 400 else year + cycle * 400 + 1) month
        ⟨hrange.1, hlast⟩
      have := hafter hlast
      omega
    · -- The last month is February, which has its 29th day only in a leap year.
      have hfeb : month = 11 := by omega
      subst hfeb
      have hbefore' : daysBeforeMonth 11 = 337 := rfl
      rw [if_neg (by decide), if_neg (by decide), show ((11 : Int) - 9).toNat = 2 from rfl, monthLength, if_pos rfl,
        isLeap_add_cycle]
      cases hl : isLeap (year + 1)
      · have hne : day ≠ 365 := fun h => by
          rw [hleap h] at hl
          cases hl
        simp only [Bool.false_eq_true, if_false]
        omega
      · simp only [if_true]
        omega
  rw [heq]
  simp only [valid, Bool.and_eq_true, decide_eq_true_eq]
  refine ⟨⟨⟨?_, ?_⟩, ?_⟩, hlen⟩ <;> omega

end Date
end Calendar
end PageWidgets
