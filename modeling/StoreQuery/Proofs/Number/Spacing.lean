import Mathlib.Order.Monotone.Basic
import StoreQuery.Number.DoubleText
/-!
How floats lie on the line. Their bits count them by magnitude, each one last place above the one before
it, so the intervals of the numbers that round to them follow one another and share no more than an end.
-/
namespace StoreQuery.Double

variable {x y : Double} {m n : Nat}

theorem word_lt (x : Double) : x.word < 2 ^ 64 := x.bits.toNat_lt

theorem exponentField_eq (x : Double) : x.exponentField = x.magnitudeBits / 2 ^ 52 := by
  simp only [exponentField, magnitudeBits]
  omega

theorem fraction_eq (x : Double) : x.fraction = x.magnitudeBits % 2 ^ 52 := by
  simp only [fraction, magnitudeBits]
  omega

theorem eq_of_magnitudeBits (hsign : x.isNegative = y.isNegative)
    (h : x.magnitudeBits = y.magnitudeBits) : x = y := by
  have hx := x.word_lt
  have hy := y.word_lt
  have hword : x.word = y.word := by
    simp only [isNegative, decide_eq_decide] at hsign
    simp only [magnitudeBits] at h
    omega
  obtain ⟨bits⟩ := x
  obtain ⟨other⟩ := y
  exact congrArg Double.mk (UInt64.toNat_inj.mp hword)

def placeAt (m : Nat) : Nat := 2 ^ (m / 2 ^ 52 - 1)

def significandAt (m : Nat) : Nat := if m / 2 ^ 52 = 0 then m % 2 ^ 52 else 2 ^ 52 + m % 2 ^ 52

def magnitudeAt (m : Nat) : Nat := significandAt m * placeAt m

theorem magnitude_eq (x : Double) : x.magnitude = magnitudeAt x.magnitudeBits := by
  simp only [magnitude, significand, shift, exponentField_eq, fraction_eq]
  rfl

theorem placeAt_pos (m : Nat) : 0 < placeAt m := Nat.two_pow_pos _

/-- From the last number of a binade to the first of the next one. -/
theorem step_carry (h : m % 2 ^ 52 = 2 ^ 52 - 1) :
    (m + 1) / 2 ^ 52 = m / 2 ^ 52 + 1 ∧ (m + 1) % 2 ^ 52 = 0 := by
  omega

theorem step_within (h : m % 2 ^ 52 ≠ 2 ^ 52 - 1) :
    (m + 1) / 2 ^ 52 = m / 2 ^ 52 ∧ (m + 1) % 2 ^ 52 = m % 2 ^ 52 + 1 := by
  omega

theorem placeAt_double {e : Nat} (h : m / 2 ^ 52 = e + 1) (hcarry : m % 2 ^ 52 = 2 ^ 52 - 1) :
    placeAt (m + 1) = 2 * placeAt m := by
  simp only [placeAt, (step_carry hcarry).1, h, Nat.add_sub_cancel]
  rw [Nat.pow_succ, Nat.mul_comm]

theorem magnitudeAt_succ (m : Nat) : magnitudeAt (m + 1) = magnitudeAt m + placeAt m := by
  by_cases hcarry : m % 2 ^ 52 = 2 ^ 52 - 1
  · obtain ⟨hnext, hzero⟩ := step_carry hcarry
    cases he : m / 2 ^ 52 with
    | zero =>
      simp only [magnitudeAt, significandAt, placeAt, hnext, hzero, he, hcarry]
      rfl
    | succ e =>
      rw [magnitudeAt, placeAt_double he hcarry]
      simp only [magnitudeAt, significandAt, hnext, hzero, he, hcarry]
      rw [if_neg (by omega), if_neg (by omega)]
      generalize placeAt m = u
      omega
  · obtain ⟨hnext, hmod⟩ := step_within hcarry
    simp only [magnitudeAt, significandAt, placeAt, hnext, hmod]
    generalize 2 ^ (m / 2 ^ 52 - 1) = u
    split
    · rw [Nat.succ_mul]
    · rw [← Nat.add_assoc, Nat.succ_mul]

theorem strictMono_magnitudeAt : StrictMono magnitudeAt := by
  apply strictMono_nat_of_lt_succ
  intro m
  have hpos := placeAt_pos m
  rw [magnitudeAt_succ]
  omega

/-- Numbers of one magnitude have one form. -/
theorem magnitudeBits_of_magnitude (h : x.magnitude = y.magnitude) :
    x.magnitudeBits = y.magnitudeBits := by
  rw [magnitude_eq, magnitude_eq] at h
  exact strictMono_magnitudeAt.injective h

/-- The upper end of the numbers that round to a number, in quarters of a unit. -/
def upperAt (m : Nat) : Nat := 4 * magnitudeAt m + 2 * placeAt m

theorem strictMono_upperAt : StrictMono upperAt := by
  apply strictMono_nat_of_lt_succ
  intro m
  have hpos := placeAt_pos m
  have hnext := placeAt_pos (m + 1)
  simp only [upperAt, magnitudeAt_succ]
  omega

theorem high_eq (x : Double) : x.roundingInterval.high = upperAt x.magnitudeBits := by
  simp only [roundingInterval, upperAt, magnitude_eq, shift, exponentField_eq]
  rfl

/-- An interval begins where the one below it ends, also where the last place doubles. -/
theorem low_eq (h : x.magnitudeBits = m + 1) : x.roundingInterval.low = upperAt m := by
  have hplace : 2 ^ x.shift = placeAt (m + 1) := by
    simp only [shift, exponentField_eq, h]
    rfl
  have hpos := placeAt_pos m
  simp only [roundingInterval, hplace, magnitude_eq, exponentField_eq, fraction_eq, h, upperAt,
    magnitudeAt_succ]
  by_cases hcarry : m % 2 ^ 52 = 2 ^ 52 - 1
  · obtain ⟨hnext, hzero⟩ := step_carry hcarry
    cases he : m / 2 ^ 52 with
    | zero =>
      have hsame : placeAt (m + 1) = placeAt m := by simp only [placeAt, hnext, he]
      rw [if_neg (by omega), hsame]
      omega
    | succ e =>
      rw [if_pos (by omega), placeAt_double he hcarry]
      omega
  · obtain ⟨hnext, hmod⟩ := step_within hcarry
    have hsame : placeAt (m + 1) = placeAt m := by simp only [placeAt, hnext]
    rw [if_neg (by omega), hsame]
    omega

theorem closed_iff (x : Double) : x.roundingInterval.closed = true ↔ x.magnitudeBits % 2 = 0 := by
  simp only [roundingInterval, significand, exponentField_eq, fraction_eq, decide_eq_true_eq]
  split <;> omega

def RoundingInterval.Holds (i : RoundingInterval) (n scale : Nat) : Prop :=
  (i.low * scale ≤ n ∧ n ≤ i.high * scale) ∧
    (i.closed = false → i.low * scale < n ∧ n < i.high * scale)

/-- No number rounds to two floats. -/
theorem not_holds_of_lt {n scale : Nat} (hscale : 0 < scale) (hx : x.roundingInterval.Holds n scale)
    (hlt : x.magnitudeBits < y.magnitudeBits) : ¬ y.roundingInterval.Holds n scale := by
  intro hy
  obtain ⟨m, hm⟩ : ∃ m, y.magnitudeBits = m + 1 := ⟨y.magnitudeBits - 1, by omega⟩
  obtain ⟨⟨-, hhigh⟩, hxopen⟩ := hx
  obtain ⟨⟨hlow, -⟩, hyopen⟩ := hy
  rw [high_eq] at hhigh hxopen
  rw [low_eq hm] at hlow hyopen
  rcases Nat.lt_or_ge x.magnitudeBits m with hfar | hnear
  · have hends := Nat.mul_lt_mul_of_pos_right (strictMono_upperAt hfar) hscale
    omega
  · -- Neighbours meet at one number, which belongs to the even one of them.
    obtain rfl : m = x.magnitudeBits := by omega
    have hparity := closed_iff x
    have hother := closed_iff y
    cases hxclosed : x.roundingInterval.closed with
    | false =>
      have := hxopen hxclosed
      omega
    | true =>
      have heven := hparity.mp hxclosed
      have hyclosed : y.roundingInterval.closed = false := by
        apply Bool.eq_false_iff.mpr
        intro hyclosed
        have := hother.mp hyclosed
        omega
      have := hyopen hyclosed
      omega

theorem magnitudeBits_of_holds {n scale : Nat} (hscale : 0 < scale)
    (hx : x.roundingInterval.Holds n scale) (hy : y.roundingInterval.Holds n scale) :
    x.magnitudeBits = y.magnitudeBits := by
  rcases Nat.lt_trichotomy x.magnitudeBits y.magnitudeBits with hlt | heq | hgt
  · exact (not_holds_of_lt hscale hx hlt hy).elim
  · exact heq
  · exact (not_holds_of_lt hscale hy hgt hx).elim

end StoreQuery.Double
