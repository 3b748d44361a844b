import Mathlib.Logic.Function.Iterate
import StoreQuery.Proofs.Time.Calendar
/-!
The calendar counts the days: a date and the one after it are one day apart, no two dates are one day, and
so the civil date of a day is the one that is reached by counting from the first of 1970.
-/
namespace StoreQuery.CivilDate

def next (d : CivilDate) : CivilDate :=
  if d.day < daysInMonth d.year d.month then ⟨d.year, d.month, d.day + 1⟩
  else if d.month < 12 then ⟨d.year, d.month + 1, 1⟩
  else ⟨d.year + 1, 1, 1⟩

/-- A date that is reached by counting the days from the first of 1970, or back to it. -/
def IsDay (d : CivilDate) (n : Int) : Prop :=
  d.Valid ∧ next^[(-n).toNat] d = next^[n.toNat] ⟨1970, 1, 1⟩

variable {d e : CivilDate}

def daysBefore (y : Int) : Int := 365 * y + y / 4 - y / 100 + y / 400

def marchYear (d : CivilDate) : Int := if d.month ≤ 2 then d.year - 1 else d.year

def dayOfYear (d : CivilDate) : Int := (153 * (((d.month : Int) + 9) % 12) + 2) / 5 + d.day - 1

theorem toDays_eq (d : CivilDate) :
    d.toDays = daysBefore d.marchYear + d.dayOfYear - 719468 := by
  simp only [toDays, daysBefore, dayOfYear, marchYear]
  generalize (if d.month ≤ 2 then d.year - 1 else d.year) = y
  omega

theorem length_of_february (y : Int) :
    (daysInMonth y 2 : Int) = daysBefore y - daysBefore (y - 1) - 337 := by
  have hleap := isLeapYear_iff y
  rw [daysInMonth, if_pos rfl, daysBefore, daysBefore]
  split
  · rename_i h
    rw [hleap] at h
    omega
  · rename_i h
    rw [hleap] at h
    omega

theorem month_cases {m : Nat} (h : 1 ≤ m ∧ m ≤ 12) (hm : m ≠ 2) : m = 1 ∨ m = 3 ∨ m = 4 ∨ m = 5 ∨
    m = 6 ∨ m = 7 ∨ m = 8 ∨ m = 9 ∨ m = 10 ∨ m = 11 ∨ m = 12 := by
  omega

theorem valid_next (h : d.Valid) : d.next.Valid := by
  obtain ⟨hm, hm', hday, hlast⟩ := h
  have hpos : ∀ y m, 1 ≤ daysInMonth y m := by
    intro y m
    rw [daysInMonth]
    split
    · split <;> decide
    · split <;> decide
  rw [next]
  split
  · rename_i hlt
    exact ⟨hm, hm', Nat.succ_pos _, hlt⟩
  · split
    · rename_i hlt
      exact ⟨Nat.succ_pos _, hlt, Nat.le_refl 1, hpos _ _⟩
    · exact ⟨Nat.le_refl 1, Nat.succ_pos 11, Nat.le_refl 1, hpos _ _⟩

/-- Days are counted one by one. -/
theorem toDays_next (h : d.Valid) : d.next.toDays = d.toDays + 1 := by
  obtain ⟨y, m, day⟩ := d
  obtain ⟨hm, hm', hday, hlast⟩ := h
  dsimp only at hm hm' hday hlast
  rw [next]
  dsimp only
  split
  · rw [toDays_eq, toDays_eq]
    simp only [marchYear, dayOfYear]
    omega
  · rename_i hend
    have hday : (day : Int) = daysInMonth y m := by omega
    clear hend hlast
    by_cases hfebruary : m = 2
    · subst hfebruary
      rw [length_of_february] at hday
      rw [if_pos (by decide), toDays_eq, toDays_eq]
      simp only [marchYear, dayOfYear]
      rw [if_neg (by decide), if_pos (by decide), hday]
      omega
    · rcases month_cases ⟨hm, hm'⟩ hfebruary with
        rfl | rfl | rfl | rfl | rfl | rfl | rfl | rfl | rfl | rfl | rfl <;>
      · simp [daysInMonth] at hday
        simp [toDays_eq, marchYear, dayOfYear, hday]
        try omega


theorem daysBefore_mono {y z : Int} (h : y ≤ z) : daysBefore y ≤ daysBefore z := by
  simp only [daysBefore]
  omega

/-- A date is in its year, and in its month by the days before it. -/
theorem dayOfYear_bounds (h : d.Valid) :
    0 ≤ d.dayOfYear ∧ d.dayOfYear < daysBefore (d.marchYear + 1) - daysBefore d.marchYear ∧
      (5 * d.dayOfYear + 2) / 153 = ((d.month : Int) + 9) % 12 := by
  obtain ⟨y, m, day⟩ := d
  obtain ⟨hm, hm', hday, hlast⟩ := h
  dsimp only at hm hm' hday hlast
  have hlast : (day : Int) ≤ daysInMonth y m := by omega
  have hyear : ∀ z, 365 ≤ daysBefore (z + 1) - daysBefore z ∧ daysBefore (z + 1) - daysBefore z ≤ 366 := by
    intro z
    simp only [daysBefore]
    omega
  by_cases hfebruary : m = 2
  · subst hfebruary
    have hlength := hyear (y - 1)
    rw [length_of_february] at hlast
    simp only [dayOfYear, marchYear]
    rw [if_pos (by decide)]
    rw [Int.sub_add_cancel] at hlength ⊢
    omega
  · have hlength := hyear (marchYear ⟨y, m, day⟩)
    generalize marchYear ⟨y, m, day⟩ = z at hlength ⊢
    clear hyear
    rcases month_cases ⟨hm, hm'⟩ hfebruary with
      rfl | rfl | rfl | rfl | rfl | rfl | rfl | rfl | rfl | rfl | rfl <;>
    · simp [daysInMonth] at hlast
      simp [dayOfYear]
      omega

/-- Two dates are two days. -/
theorem toDays_injective (hd : d.Valid) (he : e.Valid) (h : d.toDays = e.toDays) : d = e := by
  obtain ⟨hd₀, hd₁, hdmonth⟩ := dayOfYear_bounds hd
  obtain ⟨he₀, he₁, hemonth⟩ := dayOfYear_bounds he
  rw [toDays_eq, toDays_eq] at h
  have hyear : d.marchYear = e.marchYear := by
    rcases Int.lt_trichotomy d.marchYear e.marchYear with hlt | heq | hlt
    · have hle := daysBefore_mono (Int.add_one_le_of_lt hlt)
      omega
    · exact heq
    · have hle := daysBefore_mono (Int.add_one_le_of_lt hlt)
      omega
  have hday : d.dayOfYear = e.dayOfYear := by
    rw [hyear] at h
    omega
  have hmonth : d.month = e.month := by
    have hsame := hdmonth.symm.trans ((congrArg (fun n => (5 * n + 2) / 153) hday).trans hemonth)
    obtain ⟨hm, hm', -⟩ := hd
    obtain ⟨hn, hn', -⟩ := he
    omega
  obtain ⟨y, m, day⟩ := d
  obtain ⟨z, n, other⟩ := e
  dsimp only at hmonth
  subst hmonth
  have hyear : y = z := by
    simp only [marchYear] at hyear
    split at hyear
    · omega
    · exact hyear
  have hday : day = other := by
    simp only [dayOfYear] at hday
    omega
  rw [hyear, hday]

theorem iterate_next (h : d.Valid) (k : Nat) :
    (next^[k] d).Valid ∧ (next^[k] d).toDays = d.toDays + k := by
  induction k with
  | zero => exact ⟨h, (Int.add_zero _).symm⟩
  | succ k ih =>
    rw [Function.iterate_succ_apply']
    refine ⟨valid_next ih.1, ?_⟩
    rw [toDays_next ih.1, ih.2]
    omega

/-- The date of a day is found by counting. -/
theorem isDay_ofDays (n : Int) : (ofDays n).IsDay n := by
  have hepoch : (⟨1970, 1, 1⟩ : CivilDate).Valid := by decide
  obtain ⟨hback, hbackDays⟩ := iterate_next (valid_ofDays n) (-n).toNat
  obtain ⟨hforth, hforthDays⟩ := iterate_next hepoch n.toNat
  refine ⟨valid_ofDays n, toDays_injective hback hforth ?_⟩
  have hzero : (⟨1970, 1, 1⟩ : CivilDate).toDays = 0 := rfl
  rw [hbackDays, hforthDays, toDays_ofDays, hzero]
  omega

/-- No other date is. -/
theorem IsDay.eq_ofDays {n : Int} (h : d.IsDay n) : d = ofDays n := by
  obtain ⟨hvalid, hcount⟩ := h
  have hepoch : (⟨1970, 1, 1⟩ : CivilDate).Valid := by decide
  apply toDays_injective hvalid (valid_ofDays n)
  have hback := (iterate_next hvalid (-n).toNat).2
  have hforth := (iterate_next hepoch n.toNat).2
  have hzero : (⟨1970, 1, 1⟩ : CivilDate).toDays = 0 := rfl
  rw [hcount, hforth, hzero] at hback
  rw [toDays_ofDays]
  omega

end StoreQuery.CivilDate
