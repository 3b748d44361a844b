import StoreQuery.Time.Calendar
/-!
The calendar tells days apart: the civil date of a day names that day, and it is a date of its month.
-/
namespace StoreQuery.CivilDate

variable {z n c q y d m : Int}

theorem century_of_year (hn : 0 ≤ n ∧ n < 146096) (hc : c = n / 36524) (hq : q = n / 1460)
    (hy : y = (n - q + c) / 365) : y / 100 = c := by
  have hcases : c = 0 ∨ c = 1 ∨ c = 2 ∨ c = 3 := by omega
  rcases hcases with rfl | rfl | rfl | rfl <;> omega

theorem day_of_year_range (hn : 0 ≤ n ∧ n < 146096) (hc : c = n / 36524)
    (hq : q = n / 1460) (hy : y = (n - q + c) / 365) :
    0 ≤ y ∧ y < 400 ∧ 365 * y + y / 4 - c ≤ n ∧ n ≤ 365 * y + y / 4 - c + 365 := by
  have hcases : c = 0 ∨ c = 1 ∨ c = 2 ∨ c = 3 := by omega
  rcases hcases with rfl | rfl | rfl | rfl <;> omega

/-- The year of a day of an era is the one that the day falls into; the last day of the era belongs to
the century before it. -/
theorem year_of_era (hn : 0 ≤ n ∧ n < 146097)
    (hy : y = (n - n / 1460 + n / 36524 - n / 146096) / 365) :
    0 ≤ y ∧ y < 400 ∧ 365 * y + y / 4 - y / 100 ≤ n ∧ n ≤ 365 * y + y / 4 - y / 100 + 365 := by
  by_cases hlast : n = 146096
  · subst hlast
    have : y = 399 := by rw [hy]; rfl
    omega
  · have hday : 0 ≤ n ∧ n < 146096 := by omega
    have hzero : n / 146096 = 0 := by omega
    rw [hzero, Int.sub_zero] at hy
    rw [century_of_year hday rfl rfl hy]
    exact day_of_year_range hday rfl rfl hy

theorem month_of_year (hd : 0 ≤ d ∧ d ≤ 365) (hm : m = (5 * d + 2) / 153) :
    0 ≤ m ∧ m < 12 ∧ 0 ≤ d - (153 * m + 2) / 5 := by
  omega

theorem toDays_of_parts (hn : n = z % 146097)
    (hy : 0 ≤ y ∧ y < 400) (hd : d = n - (365 * y + y / 4 - y / 100))
    (hm : 0 ≤ m ∧ m < 12 ∧ 0 ≤ d - (153 * m + 2) / 5) :
    toDays
      { year := if (if m < 10 then m + 3 else m - 9) ≤ 2 then y + z / 146097 * 400 + 1
          else y + z / 146097 * 400
        month := (if m < 10 then m + 3 else m - 9).toNat
        day := (d - (153 * m + 2) / 5 + 1).toNat } = z - 719468 := by
  have hera : (y + z / 146097 * 400) / 400 = z / 146097 := by omega
  have hyear : (y + z / 146097 * 400) % 400 = y := by omega
  have hdate : (((d - (153 * m + 2) / 5 + 1).toNat : Nat) : Int) = d - (153 * m + 2) / 5 + 1 := by omega
  simp only [toDays, hdate]
  by_cases hlt : m < 10
  · have hmonth : (((m + 3).toNat : Int) + 9) % 12 = m := by omega
    rw [if_pos hlt, if_neg (by omega), if_neg (by omega), hmonth, hera, hyear]
    omega
  · have hmonth : (((m - 9).toNat : Int) + 9) % 12 = m := by omega
    rw [if_neg hlt, if_pos (by omega), if_pos (by omega), hmonth, Int.add_sub_cancel, hera, hyear]
    omega

theorem toDays_ofDays (n : Int) : (ofDays n).toDays = n := by
  have hday : 0 ≤ (n + 719468) % 146097 ∧ (n + 719468) % 146097 < 146097 := by omega
  obtain ⟨hy₀, hy₁, hd₀, hd₁⟩ := year_of_era hday rfl
  have hmonth := month_of_year ⟨Int.sub_nonneg_of_le hd₀, Int.sub_left_le_of_le_add hd₁⟩ rfl
  have h := toDays_of_parts rfl ⟨hy₀, hy₁⟩ rfl hmonth
  rw [Int.add_sub_cancel] at h
  exact h

/-- A day of an era stands before the year after its own begins. -/
theorem day_before_next_year (hn : 0 ≤ n ∧ n < 146097)
    (hy : y = (n - n / 1460 + n / 36524 - n / 146096) / 365) :
    n < 365 * (y + 1) + (y + 1) / 4 - (y + 1) / 100 + (y + 1) / 400 := by
  by_cases hlast : n = 146096
  · subst hlast
    have : y = 399 := by rw [hy]; rfl
    omega
  · have hday : 0 ≤ n ∧ n < 146096 := by omega
    have hzero : n / 146096 = 0 := by omega
    rw [hzero, Int.sub_zero] at hy
    have hcentury := century_of_year hday rfl rfl hy
    by_cases hclosing : y % 100 = 99
    · have hyear : y + 1 = 100 * (n / 36524 + 1) := by omega
      rw [hyear]
      clear hy hcentury
      omega
    · have hcycle : n / 1460 ≤ (y + 1) / 4 := by omega
      have hsame : (y + 1) / 100 = n / 36524 := by omega
      have hera : (y + 1) / 400 = 0 := by omega
      rw [hsame, hera]
      omega

theorem daysInMonth_le (y : Int) (m : Nat) : daysInMonth y m ≤ 31 := by
  rw [daysInMonth]
  split
  · split <;> decide
  · split <;> decide

theorem isLeapYear_iff (y : Int) :
    isLeapYear y = true ↔ y % 4 = 0 ∧ (y % 100 = 0 → y % 400 = 0) := by
  simp only [isLeapYear, Bool.and_eq_true, Bool.or_eq_true, decide_eq_true_eq]
  omega

/-- Eras repeat the leap years. -/
theorem isLeapYear_era (y era : Int) : isLeapYear (y + era * 400) = isLeapYear y := by
  have hfour : (y + era * 400) % 4 = y % 4 := by omega
  have hcentury : (y + era * 400) % 100 = y % 100 := by omega
  have hera : (y + era * 400) % 400 = y % 400 := by omega
  simp only [isLeapYear, hfour, hcentury, hera]

/-- A year that ends with a leap day has one day more. -/
theorem leap_of_last_day (hn : 0 ≤ n ∧ n < 146097)
    (hy : y = (n - n / 1460 + n / 36524 - n / 146096) / 365)
    (hd : 365 ≤ n - (365 * y + y / 4 - y / 100)) : isLeapYear (y + 1) = true := by
  obtain ⟨hy₀, hy₁, -, -⟩ := year_of_era hn hy
  have hnext := day_before_next_year hn hy
  have hlonger : y / 4 - y / 100 < (y + 1) / 4 - (y + 1) / 100 + (y + 1) / 400 := by
    clear hy
    omega
  rw [isLeapYear_iff]
  have hfour : (y + 1) / 4 = y / 4 ∨ (y + 1) % 4 = 0 := by omega
  have hcentury : (y + 1) / 100 = y / 100 ∨ (y + 1) % 100 = 0 := by omega
  have hera : (y + 1) / 400 = 0 ∨ y + 1 = 400 := by omega
  clear hn hy hd hnext
  omega

/-- The months before February, counted from March, have the same lengths in every year. -/
theorem length_of_month (hm : 0 ≤ m ∧ m < 11) (y : Int) :
    (daysInMonth y (if m < 10 then m + 3 else m - 9).toNat : Int) =
      (153 * (m + 1) + 2) / 5 - (153 * m + 2) / 5 := by
  have hcases : m = 0 ∨ m = 1 ∨ m = 2 ∨ m = 3 ∨ m = 4 ∨ m = 5 ∨ m = 6 ∨ m = 7 ∨ m = 8 ∨ m = 9 ∨
      m = 10 := by omega
  rcases hcases with rfl | rfl | rfl | rfl | rfl | rfl | rfl | rfl | rfl | rfl | rfl <;> rfl

/-- A day of a year that begins in March is a day of one of its months; the last of the leap years has a
leap day. -/
theorem valid_of_parts (hd : 0 ≤ d ∧ d ≤ 365) (hm : m = (5 * d + 2) / 153)
    (hleap : 365 ≤ d → isLeapYear (y + 1) = true) :
    Valid
      { year := if (if m < 10 then m + 3 else m - 9) ≤ 2 then y + 1 else y
        month := (if m < 10 then m + 3 else m - 9).toNat
        day := (d - (153 * m + 2) / 5 + 1).toNat } := by
  obtain ⟨hm₀, hm₁, hday⟩ := month_of_year hd hm
  refine ⟨?_, ?_, ?_, ?_⟩
  · dsimp only
    split <;> omega
  · dsimp only
    split <;> omega
  · dsimp only
    omega
  · dsimp only
    by_cases hfebruary : m = 11
    · subst hfebruary
      change _ ≤ daysInMonth (y + 1) 2
      rw [daysInMonth, if_pos rfl]
      by_cases hlast : 365 ≤ d
      · rw [if_pos (hleap hlast)]
        omega
      · split <;> omega
    · have hlength := length_of_month ⟨hm₀, show m < 11 by omega⟩ (if (if m < 10 then m + 3 else m - 9) ≤ 2 then y + 1 else y)
      clear hleap
      omega

theorem valid_ofDays (n : Int) : (ofDays n).Valid := by
  have hday : 0 ≤ (n + 719468) % 146097 ∧ (n + 719468) % 146097 < 146097 := by omega
  obtain ⟨-, -, hd₀, hd₁⟩ := year_of_era hday rfl
  refine valid_of_parts ⟨Int.sub_nonneg_of_le hd₀, Int.sub_left_le_of_le_add hd₁⟩ rfl fun hlast => ?_
  rw [Int.add_right_comm, isLeapYear_era]
  exact leap_of_last_day hday rfl hlast

end StoreQuery.CivilDate
