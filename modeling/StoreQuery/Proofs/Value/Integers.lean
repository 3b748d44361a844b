import StoreQuery.Proofs.Number.Nearest
import StoreQuery.Proofs.Value.Numbers
/-!
Floats that are integers. Such an integer is rounded to a float that denotes it, and the float is read
back as the integer.
-/
namespace StoreQuery.Double

open Value (signed signed_eq_iff signed_natAbs_mul)

variable {x : Double} {n : ℤ} {negative : Bool} {b : Nat}

def Denotes (x : Double) (n : ℤ) : Prop := x.reading? = some ((n : ℚ) : ExtendedRational)

theorem isNaN_of_finite (h : x.isFinite = true) : x.isNaN = false := by
  simp only [isFinite, isNaN, decide_eq_true_eq, decide_eq_false_iff_not] at h ⊢
  exact fun hnan => h hnan.1

theorem denotes_iff_scaled : x.Denotes n ↔ x.isFinite = true ∧ x.scaled = n * unit := by
  have hunit : (unit : ℚ) ≠ 0 := Nat.cast_ne_zero.mpr (Nat.ne_of_gt unit_pos)
  rw [Denotes, reading?]
  cases hfinite : x.isFinite with
  | true =>
    rw [if_neg (by rw [isNaN_of_finite hfinite]; exact Bool.false_ne_true), if_pos rfl, Option.some_inj,
      WithBotTop.coe_injective.eq_iff, dyadic_eq, div_eq_iff hunit, ← Int.cast_natCast, ← Int.cast_mul,
      Int.cast_inj]
    exact (and_iff_right rfl).symm
  | false =>
    refine iff_of_false ?_ (fun h => Bool.false_ne_true h.1)
    rw [if_neg Bool.false_ne_true]
    split
    · exact (Option.some_ne_none _).symm
    · split
      · exact fun h => WithBotTop.coe_ne_bot _ (Option.some.inj h).symm
      · exact fun h => WithBotTop.coe_ne_top _ (Option.some.inj h).symm

/-- A float denotes an integer when it is finite and has its magnitude, and its sign unless it is a
zero. -/
theorem denotes_iff : x.Denotes n ↔ x.isFinite = true ∧ x.magnitude = n.natAbs * unit ∧
    (x.magnitude ≠ 0 → x.isNegative = decide (n < 0)) := by
  have hscaled : x.scaled = signed x.isNegative x.magnitude := rfl
  rw [denotes_iff_scaled, hscaled, ← signed_natAbs_mul, signed_eq_iff]

theorem magnitudeAt_of_denotes (h : x.Denotes n) :
    x.magnitudeBits < 2047 * 2 ^ 52 ∧ magnitudeAt x.magnitudeBits = n.natAbs * unit := by
  obtain ⟨hfinite, hmagnitude, -⟩ := denotes_iff.mp h
  exact ⟨(isFinite_iff x).mp hfinite, (magnitude_eq x).symm.trans hmagnitude⟩

theorem denotes_ofWord (hb : b < 2047 * 2 ^ 52) (h : magnitudeAt b = n.natAbs * unit)
    (hsign : n ≠ 0 → negative = decide (n < 0)) : (ofWord negative b).Denotes n := by
  have hbits : (ofWord negative b).magnitudeBits = b := magnitudeBits_ofWord (by omega)
  have hmagnitude : (ofWord negative b).magnitude = n.natAbs * unit := by
    rw [magnitude_eq, hbits, h]
  refine denotes_iff.mpr ⟨(isFinite_iff _).mpr (hbits.symm ▸ hb), hmagnitude, ?_⟩
  intro hne
  rw [isNegative_ofWord (by omega)]
  apply hsign
  rintro rfl
  exact hne (by rw [hmagnitude, Int.natAbs_zero, Nat.zero_mul])

/-- A number that is an integer and a float is rounded to a float that denotes it. -/
theorem denotes_nearest {num den : Nat} (h : x.Denotes n) (hden : 0 < den) (hnum : num = n.natAbs * den)
    (hsign : n ≠ 0 → negative = decide (n < 0)) : (nearest negative num den).Denotes n := by
  obtain ⟨hbits, hmagnitude⟩ := magnitudeAt_of_denotes h
  have hunits : num * unit = magnitudeAt x.magnitudeBits * den := by
    rw [hnum, hmagnitude, Nat.mul_right_comm]
  rw [nearest_magnitudeAt hden hbits hunits]
  exact denotes_ofWord hbits hmagnitude hsign

theorem denotes_ofInt (h : x.Denotes n) : (ofInt n).Denotes n :=
  denotes_nearest h Nat.one_pos (Nat.mul_one _).symm fun _ => rfl

/-- No float is as large as `2 ^ 1024`. -/
theorem natAbs_lt_of_denotes (h : x.Denotes n) : n.natAbs < 10 ^ 309 := by
  obtain ⟨hfinite, hmagnitude, -⟩ := denotes_iff.mp h
  have hbound := magnitude_of_finite hfinite
  have hlarge : infinityUnits ≤ ((10 ^ 309 * unit : ℕ) : ℤ) := by decide +kernel
  rw [hmagnitude] at hbound
  exact Nat.lt_of_mul_lt_mul_right (Int.ofNat_lt.mp (lt_of_lt_of_le hbound hlarge))

/-- The number of digits and the exponent tell the size of a number. -/
theorem size_bounds {m k b : Nat} {e : ℤ} (hpos : 0 < k) (hk : k < 10 ^ b)
    (hvalue : (m : ℚ) * 10 ^ e = k) :
    0 < (Decimal.digits m).length + e ∧ (Decimal.digits m).length + e < b + 1 := by
  have hten : (0 : ℚ) < 10 ^ e := zpow_pos (by norm_num) e
  have hm : 0 < m := by
    rcases Nat.eq_zero_or_pos m with rfl | hm
    · rw [Nat.cast_zero, zero_mul, eq_comm, Nat.cast_eq_zero] at hvalue
      omega
    · exact hm
  obtain ⟨habove, hbelow⟩ := Decimal.length_digits_bounds m
  have hsize : (10 : ℚ) ^ ((Decimal.digits m).length + e) = 10 ^ (Decimal.digits m).length * 10 ^ e := by
    rw [zpow_add₀ (by norm_num), zpow_natCast]
  constructor
  · apply (zpow_lt_zpow_iff_right₀ (show (1 : ℚ) < 10 by norm_num)).mp
    calc (10 : ℚ) ^ (0 : ℤ) ≤ k := by rw [zpow_zero]; exact_mod_cast hpos
      _ = m * 10 ^ e := hvalue.symm
      _ < 10 ^ (Decimal.digits m).length * 10 ^ e := mul_lt_mul_of_pos_right (by exact_mod_cast habove) hten
      _ = 10 ^ ((Decimal.digits m).length + e) := hsize.symm
  · apply (zpow_lt_zpow_iff_right₀ (show (1 : ℚ) < 10 by norm_num)).mp
    calc (10 : ℚ) ^ ((Decimal.digits m).length + e)
        = 10 ^ (Decimal.digits m).length * 10 ^ e := hsize
      _ ≤ 10 * m * 10 ^ e := mul_le_mul_of_nonneg_right (by exact_mod_cast hbelow hm) (le_of_lt hten)
      _ = 10 * k := by rw [mul_assoc, hvalue]
      _ < 10 * 10 ^ b := mul_lt_mul_of_pos_left (by exact_mod_cast hk) (by norm_num)
      _ = 10 ^ ((b : ℤ) + 1) := by rw [zpow_add₀ (by norm_num), zpow_natCast, zpow_one, mul_comm]

/-- A numeral of an integer that is a float is rounded to a float that denotes it. -/
theorem denotes_ofScientific {m : Nat} {e : ℤ} (h : x.Denotes n) (hvalue : (m : ℚ) * 10 ^ e = n.natAbs)
    (hsign : n ≠ 0 → negative = decide (n < 0)) : (ofScientific negative m e).Denotes n := by
  have hten : (10 : ℚ) ^ e ≠ 0 := zpow_ne_zero e (by norm_num)
  rw [ofScientific]
  by_cases hzero : n = 0
  · subst hzero
    have hm : m = 0 := by
      rw [Int.natAbs_zero, Nat.cast_zero, mul_eq_zero] at hvalue
      exact_mod_cast hvalue.resolve_right hten
    rw [if_pos (.inl hm)]
    refine denotes_ofWord (by decide) ?_ fun hne => absurd rfl hne
    rw [Int.natAbs_zero, Nat.zero_mul]
    rfl
  · have hsize := size_bounds (Int.natAbs_pos.mpr hzero) (natAbs_lt_of_denotes h) hvalue
    have hm : m ≠ 0 := by
      rintro rfl
      rw [Nat.cast_zero, zero_mul, eq_comm, Nat.cast_eq_zero, Int.natAbs_eq_zero] at hvalue
      exact hzero hvalue
    rw [if_neg (by omega), if_neg (by omega)]
    refine denotes_nearest h (Nat.pow_pos (by decide)) ?_ hsign
    have hparts : (10 : ℚ) ^ e = 10 ^ e.toNat / 10 ^ (-e).toNat := by
      rw [← zpow_natCast, ← zpow_natCast, ← zpow_sub₀ (by norm_num)]
      congr 1
      omega
    rw [hparts, mul_div_assoc', div_eq_iff (by positivity)] at hvalue
    exact_mod_cast hvalue

/-- An integer of few digits is rounded in the same way from its digits. -/
theorem ofScientific_natAbs (h : n.natAbs < 10 ^ 20) :
    ofScientific (decide (n < 0)) n.natAbs 0 = ofInt n := by
  rw [ofScientific, ofInt]
  by_cases hzero : n = 0
  · subst hzero
    decide +kernel
  · have hsize := size_bounds (m := n.natAbs) (e := 0) (Int.natAbs_pos.mpr hzero) h
      (by rw [zpow_zero, mul_one])
    rw [if_neg (by omega), if_neg (by omega), Int.toNat_zero, Int.neg_zero, Int.toNat_zero,
      Nat.pow_zero, Nat.mul_one]

/-- Up to the limit every integer is a float. -/
theorem exists_denotes (h : n.natAbs ≤ 2 ^ 53) : ∃ x : Double, x.Denotes n := by
  obtain ⟨b, hb, hmagnitude⟩ := exists_magnitudeAt h
  exact ⟨ofWord (decide (n < 0)) b, denotes_ofWord hb hmagnitude fun _ => rfl⟩

/-- A float is read as the integer that it denotes. -/
theorem toInt?_eq_some : x.toInt? = some n ↔ x.Denotes n := by
  have hunit : (unit : ℤ) ≠ 0 := Int.natCast_ne_zero.mpr (Nat.ne_of_gt unit_pos)
  rw [toInt?]
  split
  · rename_i h
    obtain ⟨hfinite, hwhole⟩ := h
    obtain ⟨k, hk⟩ := Nat.dvd_of_mod_eq_zero hwhole
    have hscaled : x.scaled = (if x.isNegative then -(k : ℤ) else k) * unit := by
      rw [scaled, hk, Nat.cast_mul]
      split <;> ring
    rw [denotes_iff_scaled, hscaled, Int.mul_eq_mul_right_iff hunit, hk, Nat.mul_div_cancel_left _ unit_pos,
      Option.some_inj]
    exact (and_iff_right hfinite).symm
  · rename_i h
    refine iff_of_false (Option.some_ne_none n).symm ?_
    intro hdenotes
    obtain ⟨hfinite, hmagnitude, -⟩ := denotes_iff.mp hdenotes
    exact h ⟨hfinite, by rw [hmagnitude, Nat.mul_mod_left]⟩

end StoreQuery.Double
