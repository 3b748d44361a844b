import StoreQuery.Proofs.Number.Reading
/-!
Rounding to floats. A number that is a float is rounded to that float, so integers that are floats stay
what they are.
-/
namespace StoreQuery.Double

variable {b k num den : Nat} {negative : Bool}

theorem magnitudeBits_ofWord (hb : b < 2 ^ 63) : (ofWord negative b).magnitudeBits = b := by
  simp only [ofWord, magnitudeBits, word, UInt64.toNat_ofNat']
  split <;> omega

theorem isNegative_ofWord (hb : b < 2 ^ 63) : (ofWord negative b).isNegative = negative := by
  simp only [ofWord, isNegative, word, UInt64.toNat_ofNat']
  cases negative <;> simp <;> omega

/-- A whole number of divisors needs no rounding. -/
theorem roundHalfEven_mul (hden : 0 < den) (k : Nat) : roundHalfEven (k * den) den = k := by
  simp only [roundHalfEven, Nat.mul_div_cancel k hden, Nat.mul_mod_left]
  rw [if_neg (by omega)]

/-- The last place of a number is found from its magnitude. -/
theorem log2_magnitudeAt (b : Nat) : (magnitudeAt b).log2 - 52 = b / 2 ^ 52 - 1 := by
  have hfraction : b % 2 ^ 52 < 2 ^ 52 := Nat.mod_lt _ (by decide)
  rw [magnitudeAt, significandAt, placeAt]
  by_cases hzero : b / 2 ^ 52 = 0
  · rw [if_pos hzero, hzero, Nat.pow_zero, Nat.mul_one]
    by_cases hnone : b % 2 ^ 52 = 0
    · rw [hnone, Nat.log2_zero]
    · have hlog := (Nat.log2_lt hnone).mpr hfraction
      omega
  · rw [if_neg hzero]
    generalize b / 2 ^ 52 - 1 = k
    have hpos : (0 : Nat) < 2 ^ k := Nat.two_pow_pos k
    have hlog : ((2 ^ 52 + b % 2 ^ 52) * 2 ^ k).log2 = 52 + k := by
      rw [Nat.log2_eq_iff (Nat.ne_of_gt (Nat.mul_pos (by omega) hpos)), Nat.pow_add, Nat.add_right_comm,
        Nat.pow_add]
      exact ⟨Nat.mul_le_mul_right _ (by omega), Nat.mul_lt_mul_of_pos_right (by omega) hpos⟩
    rw [hlog, Nat.add_sub_cancel_left]

/-- The bits count the numbers, whole binades of them first. -/
theorem binades_add_significandAt (b : Nat) : (b / 2 ^ 52 - 1) * 2 ^ 52 + significandAt b = b := by
  rw [significandAt]
  split <;> omega

/-- A number that is a float is rounded to it. -/
theorem nearest_magnitudeAt (hden : 0 < den) (hb : b < 2047 * 2 ^ 52)
    (h : num * unit = magnitudeAt b * den) : nearest negative num den = ofWord negative b := by
  have hplaces : magnitudeAt b * den = significandAt b * (den * placeAt b) := by
    rw [magnitudeAt, Nat.mul_assoc, Nat.mul_comm den]
  have hround : roundHalfEven (magnitudeAt b * den) (den * 2 ^ (b / 2 ^ 52 - 1)) = significandAt b := by
    rw [hplaces]
    exact roundHalfEven_mul (Nat.mul_pos hden (placeAt_pos b)) _
  simp only [nearest, h, Nat.mul_div_cancel _ hden, log2_magnitudeAt, hround, binades_add_significandAt]
  rw [Nat.min_eq_left (Nat.le_of_lt hb)]

/-- A significand of full length, and the place that makes it the number. -/
theorem exists_normal (hpos : 0 < k) (hk : k < 2 ^ 53) : ∃ l s, l ≤ 52 ∧ 2 ^ 52 ≤ s ∧ s < 2 ^ 53 ∧
    s * 2 ^ (1022 + l) = k * unit := by
  have hlog : k.log2 < 53 := (Nat.log2_lt (Nat.ne_of_gt hpos)).mpr hk
  obtain ⟨hlow, hhigh⟩ := (Nat.log2_eq_iff (Nat.ne_of_gt hpos)).mp rfl
  have hplaces : (0 : Nat) < 2 ^ (52 - k.log2) := Nat.two_pow_pos _
  refine ⟨k.log2, k * 2 ^ (52 - k.log2), by omega, ?_, ?_, ?_⟩
  · calc 2 ^ 52 = 2 ^ k.log2 * 2 ^ (52 - k.log2) := by rw [← Nat.pow_add]; congr 1; omega
      _ ≤ k * 2 ^ (52 - k.log2) := Nat.mul_le_mul_right _ hlow
  · calc k * 2 ^ (52 - k.log2) < 2 ^ (k.log2 + 1) * 2 ^ (52 - k.log2) :=
          Nat.mul_lt_mul_of_pos_right hhigh hplaces
      _ = 2 ^ 53 := by rw [← Nat.pow_add]; congr 1; omega
  · rw [Nat.mul_assoc, ← Nat.pow_add, unit]
    congr 2
    omega

/-- Up to this limit every whole number is a float. -/
theorem exists_magnitudeAt (hk : k ≤ 2 ^ 53) : ∃ b : Nat, b < 2047 * 2 ^ 52 ∧ magnitudeAt b = k * unit := by
  rcases Nat.eq_zero_or_pos k with rfl | hpos
  · exact ⟨0, by decide, by rw [Nat.zero_mul]; rfl⟩
  · rcases Nat.lt_or_eq_of_le hk with hlt | rfl
    · obtain ⟨l, s, hl, hlow, hhigh, hunits⟩ := exists_normal hpos hlt
      have hfield : ((1022 + l) * 2 ^ 52 + s) / 2 ^ 52 = 1023 + l := by omega
      have hfraction : 2 ^ 52 + ((1022 + l) * 2 ^ 52 + s) % 2 ^ 52 = s := by omega
      refine ⟨(1022 + l) * 2 ^ 52 + s, by omega, ?_⟩
      rw [magnitudeAt, significandAt, placeAt, hfield, if_neg (by omega), hfraction, ← hunits]
      congr 2
      omega
    · exact ⟨1076 * 2 ^ 52, by decide, by decide +kernel⟩

end StoreQuery.Double
