import Mathlib.Algebra.Order.Field.Power
import Mathlib.Data.Int.ConditionallyCompleteOrder
import Mathlib.Data.Rat.Cast.Order
import Mathlib.Order.Compare
import Mathlib.Order.WithBotTop
import Mathlib.Tactic.FieldSimp
import Mathlib.Tactic.NormNum
import Mathlib.Tactic.Ring
import StoreQuery.Proofs.Number.DoubleText
/-!
What floats denote: nothing for a NaN, else an infinity or the rational number that the bits spell. The
units in which floats are counted keep the order of the numbers.
-/
namespace StoreQuery

abbrev ExtendedRational := WithBotTop ℚ

namespace Double

variable {x y : Double}

/-- The rational number that the bits of a finite float spell without the sign: a fraction with a
leading one in the place that the exponent field tells, or with none in the lowest place. -/
def dyadicMagnitude (x : Double) : ℚ :=
  if x.exponentField = 0 then x.fraction / 2 ^ 52 * (2 : ℚ) ^ (-1022 : ℤ)
  else (1 + x.fraction / 2 ^ 52) * (2 : ℚ) ^ ((x.exponentField : ℤ) - 1023)

def dyadic (x : Double) : ℚ := if x.isNegative then -x.dyadicMagnitude else x.dyadicMagnitude

def reading? (x : Double) : Option ExtendedRational :=
  if x.isNaN then none
  else if x.isFinite then some (x.dyadic : ℚ)
  else some (if x.isNegative then ⊥ else ⊤)

theorem cast_unit : (unit : ℚ) = (2 : ℚ) ^ (1074 : ℤ) := by
  rw [unit, Nat.cast_pow, Nat.cast_ofNat, ← zpow_natCast, Nat.cast_ofNat]

theorem cast_magnitude (x : Double) :
    (x.magnitude : ℚ) = x.significand * (2 : ℚ) ^ (x.shift : ℤ) := by
  rw [magnitude, Nat.cast_mul, Nat.cast_pow, Nat.cast_ofNat, zpow_natCast]

/-- The fraction of a significand and its last place. -/
theorem fraction_mul_place (q : ℚ) (k : ℤ) :
    q / 2 ^ 52 * (2 : ℚ) ^ k = q * (2 : ℚ) ^ (k - 52) := by
  rw [zpow_sub₀ two_ne_zero, mul_div_assoc', div_mul_eq_mul_div]
  rfl

theorem dyadicMagnitude_eq (x : Double) : x.dyadicMagnitude = x.magnitude / unit := by
  rw [cast_unit, cast_magnitude, mul_div_assoc, ← zpow_sub₀ two_ne_zero, dyadicMagnitude, significand,
    shift]
  split
  · rename_i hzero
    rw [hzero, fraction_mul_place]
    rfl
  · rename_i hnormal
    have hplace : ((x.exponentField - 1 : ℕ) : ℤ) - 1074 = x.exponentField - 1023 - 52 := by omega
    have hone : (1 : ℚ) + x.fraction / 2 ^ 52 = ((2 ^ 52 + x.fraction : ℕ) : ℚ) / 2 ^ 52 := by
      rw [Nat.cast_add, Nat.cast_pow, Nat.cast_ofNat, add_div, div_self (by norm_num)]
    rw [hplace, hone, fraction_mul_place]

/-- A float is what its units are parts of. -/
theorem dyadic_eq (x : Double) : x.dyadic = x.scaled / unit := by
  rw [dyadic, scaled, dyadicMagnitude_eq]
  split
  · push_cast
    rw [neg_div]
  · push_cast
    rfl

def infinityUnits : ℤ := magnitudeAt (2047 * 2 ^ 52)

def ofUnits (s : ℤ) : ExtendedRational :=
  if s ≤ -infinityUnits then ⊥
  else if infinityUnits ≤ s then ⊤
  else (s / unit : ℚ)

def range : Set ℤ := Set.Icc (-infinityUnits) infinityUnits

theorem strictMonoOn_ofUnits : StrictMonoOn ofUnits range := by
  rintro s ⟨hs, hs'⟩ t ⟨ht, ht'⟩ hlt
  rw [ofUnits, ofUnits]
  by_cases hlow : s ≤ -infinityUnits
  · rw [if_pos hlow, if_neg (by omega)]
    split
    · exact bot_lt_top
    · exact WithBot.bot_lt_coe _
  · rw [if_neg hlow, if_neg (by omega), if_neg (by omega)]
    split
    · exact WithBot.coe_lt_coe.mpr (WithTop.coe_lt_top _)
    · apply WithBotTop.coe_lt_coe.mpr
      exact div_lt_div_of_pos_right (Int.cast_lt.mpr hlt) (Nat.cast_pos.mpr unit_pos)

theorem infinityUnits_pos : 0 < infinityUnits := by decide +kernel

theorem isFinite_iff (x : Double) : x.isFinite = true ↔ x.magnitudeBits < 2047 * 2 ^ 52 := by
  have hbits : x.magnitudeBits < 2 ^ 63 := Nat.mod_lt _ (by decide)
  simp only [isFinite, decide_eq_true_eq, exponentField_eq]
  omega

theorem magnitude_of_finite (h : x.isFinite = true) : (x.magnitude : ℤ) < infinityUnits := by
  rw [infinityUnits, magnitude_eq, Int.ofNat_lt]
  exact strictMono_magnitudeAt ((isFinite_iff x).mp h)

theorem magnitude_of_infinite (hnan : x.isNaN = false) (h : x.isFinite = false) :
    (x.magnitude : ℤ) = infinityUnits := by
  rw [magnitude_eq, magnitudeBits_of_infinite hnan h, infinityUnits]

/-- What a float reads as is what its units read as. -/
theorem reading?_eq (hnan : x.isNaN = false) :
    x.scaled ∈ range ∧ x.reading? = some (ofUnits x.scaled) := by
  have hpos := infinityUnits_pos
  rw [reading?, if_neg (by rw [hnan]; exact Bool.false_ne_true), dyadic_eq, ofUnits]
  cases hfinite : x.isFinite with
  | true =>
    have hbound := magnitude_of_finite hfinite
    have hsides : -infinityUnits < x.scaled ∧ x.scaled < infinityUnits := by
      rw [scaled]
      split <;> omega
    refine ⟨⟨by omega, by omega⟩, ?_⟩
    rw [if_pos rfl, if_neg (by omega), if_neg (by omega)]
  | false =>
    have hunits : x.scaled = if x.isNegative then -infinityUnits else infinityUnits := by
      rw [scaled, magnitude_of_infinite hnan hfinite]
    rw [if_neg Bool.false_ne_true, hunits]
    split
    · exact ⟨⟨Int.le_refl _, by omega⟩, by rw [if_pos (Int.le_refl _)]⟩
    · exact ⟨⟨by omega, Int.le_refl _⟩, by rw [if_neg (by omega), if_pos (Int.le_refl _)]⟩

/-- Integers of 64 bits lie between the infinities. -/
theorem ofUnits_integer (n : Int64) :
    n.toInt * unit ∈ range ∧ ofUnits (n.toInt * unit) = (n.toInt : ℚ) := by
  have hlarge : 2 ^ 63 * (unit : ℤ) < infinityUnits := by decide +kernel
  have hunit : (0 : ℤ) < unit := Int.natCast_pos.mpr unit_pos
  have hlow : -2 ^ 63 * (unit : ℤ) ≤ n.toInt * unit :=
    Int.mul_le_mul_of_nonneg_right n.le_toInt (Int.le_of_lt hunit)
  have hhigh : n.toInt * unit < 2 ^ 63 * (unit : ℤ) := Int.mul_lt_mul_of_pos_right n.toInt_lt hunit
  refine ⟨⟨by omega, by omega⟩, ?_⟩
  rw [ofUnits, if_neg (by omega), if_neg (by omega), Int.cast_mul, Int.cast_natCast,
    mul_div_cancel_right₀ _ (Nat.cast_ne_zero.mpr (Nat.ne_of_gt unit_pos))]

end Double

end StoreQuery
