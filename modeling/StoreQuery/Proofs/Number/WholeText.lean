import Mathlib.Tactic.Ring
import StoreQuery.Proofs.Number.DoubleText
/-!
Whole numbers as floats. Up to a limit, and often past it, a float that is a whole number is written with
all its digits. One that is not is written like another whole number that rounds to it.
-/
namespace StoreQuery.Double

variable {x : Double} {k j : Nat}

/-- Up to here the last place counts two at most, so the digits of a whole number are not cut. -/
def exactLimit : Nat := 2 ^ 54

theorem unit_of_place (h : x.shift ≤ 1074) : ∃ w, unit = w * 2 ^ x.shift := by
  refine ⟨2 ^ (1074 - x.shift), ?_⟩
  rw [unit, ← Nat.pow_add, Nat.sub_add_cancel h]

structure Coarse (x : Double) (w : Nat) : Prop where
  place : 2 ^ x.shift = w * unit
  even : w = 2 ∨ w = 4 ∨ 8 ≤ w
  normal : x.significand = 2 ^ 52 + x.fraction
  least : x.fraction = 0 → x.roundingInterval.low = 4 * x.magnitude - 2 ^ x.shift

theorem exists_coarse (h : 1075 ≤ x.shift) : ∃ w, x.Coarse w := by
  have hfield : 1 < x.exponentField := by
    simp only [shift] at h
    omega
  refine ⟨2 ^ (x.shift - 1074), ?_, ?_, ?_, ?_⟩
  · rw [unit, ← Nat.pow_add, Nat.sub_add_cancel (by omega)]
  · have hcases : x.shift - 1074 = 1 ∨ x.shift - 1074 = 2 ∨ 3 ≤ x.shift - 1074 := by omega
    rcases hcases with hone | htwo | hmore
    · exact .inl (by rw [hone, Nat.pow_one])
    · exact .inr (.inl (by rw [htwo]; rfl))
    · exact .inr (.inr (Nat.pow_le_pow_right (n := 2) (by omega) hmore))
  · exact if_neg (by omega)
  · intro hfraction
    exact if_pos ⟨hfraction, hfield⟩

/-- Within two quarters of the last place on both sides. -/
theorem holds_bounds {n : Nat} (h : x.roundingInterval.Holds n 1) :
    4 * x.magnitude ≤ n + 2 * 2 ^ x.shift ∧ n ≤ 4 * x.magnitude + 2 * 2 ^ x.shift := by
  obtain ⟨⟨hlow, hhigh⟩, -⟩ := h
  rw [Nat.mul_one] at hlow hhigh
  refine ⟨?_, hhigh⟩
  have hleast : 4 * x.magnitude - 2 * 2 ^ x.shift ≤ x.roundingInterval.low := by
    simp only [roundingInterval]
    split <;> omega
  omega

/-- Where the last place is at most one, the whole number that rounds to a float is the float. -/
theorem magnitude_of_holds (hfine : x.shift ≤ 1074)
    (h : x.roundingInterval.Holds (k * (4 * unit)) 1) : x.magnitude = k * unit := by
  obtain ⟨w, hw⟩ := unit_of_place hfine
  obtain ⟨hlow, hhigh⟩ := holds_bounds h
  have hplace : (0 : Nat) < 2 ^ x.shift := Nat.two_pow_pos _
  simp only [magnitude] at hlow hhigh ⊢
  rw [hw] at hlow hhigh ⊢
  generalize (2 ^ x.shift : Nat) = u at hlow hhigh hplace ⊢
  have hbelow : 4 * x.significand ≤ 4 * (k * w) + 2 := by
    apply Nat.le_of_mul_le_mul_right _ hplace
    calc 4 * x.significand * u = 4 * (x.significand * u) := Nat.mul_assoc _ _ _
      _ ≤ k * (4 * (w * u)) + 2 * u := hlow
      _ = (4 * (k * w) + 2) * u := by ring
  have habove : 4 * (k * w) ≤ 4 * x.significand + 2 := by
    apply Nat.le_of_mul_le_mul_right _ hplace
    calc 4 * (k * w) * u = k * (4 * (w * u)) := by ring
      _ ≤ 4 * (x.significand * u) + 2 * u := hhigh
      _ = (4 * x.significand + 2) * u := by ring
  rw [show x.significand = k * w by omega, Nat.mul_assoc]

theorem Coarse.magnitude_eq {w : Nat} (hcoarse : x.Coarse w) :
    x.magnitude = (2 ^ 52 * w + x.fraction * w) * unit := by
  rw [magnitude, hcoarse.place, hcoarse.normal, ← Nat.mul_assoc, Nat.add_mul]

/-- Where it counts more, a whole number that rounds to a float is at most half a last place away. -/
theorem Coarse.bounds {w : Nat} (hcoarse : x.Coarse w) (hmagnitude : x.magnitude = k * unit)
    (h : x.roundingInterval.Holds (j * (4 * unit)) 1) :
    4 * k ≤ 4 * j + 2 * w ∧ 4 * j ≤ 4 * k + 2 * w ∧ (x.fraction = 0 → 4 * k ≤ 4 * j + w) := by
  obtain ⟨hlow, hhigh⟩ := holds_bounds h
  have hcut := h.1.1
  rw [hcoarse.place, hmagnitude] at hlow hhigh
  rw [Nat.mul_one] at hcut
  refine ⟨?_, ?_, ?_⟩
  · apply Nat.le_of_mul_le_mul_right _ unit_pos
    calc 4 * k * unit = 4 * (k * unit) := Nat.mul_assoc _ _ _
      _ ≤ j * (4 * unit) + 2 * (w * unit) := hlow
      _ = (4 * j + 2 * w) * unit := by ring
  · apply Nat.le_of_mul_le_mul_right _ unit_pos
    calc 4 * j * unit = j * (4 * unit) := by ring
      _ ≤ 4 * (k * unit) + 2 * (w * unit) := hhigh
      _ = (4 * k + 2 * w) * unit := by ring
  · -- Below the least number of a binade the floats lie closer, so its interval is cut short there.
    intro hfraction
    rw [hcoarse.least hfraction, hcoarse.place, hmagnitude] at hcut
    apply Nat.le_of_mul_le_mul_right _ unit_pos
    calc 4 * k * unit = 4 * (k * unit) := Nat.mul_assoc _ _ _
      _ ≤ j * (4 * unit) + w * unit := Nat.sub_le_iff_le_add.mp hcut
      _ = (4 * j + w) * unit := by ring

/-- A float to which a whole number rounds is one. -/
theorem exists_whole (h : x.roundingInterval.Holds (j * (4 * unit)) 1) :
    ∃ k, x.magnitude = k * unit := by
  by_cases hfine : x.shift ≤ 1074
  · exact ⟨j, magnitude_of_holds hfine h⟩
  · obtain ⟨w, hcoarse⟩ := exists_coarse (show 1075 ≤ x.shift by omega)
    exact ⟨_, hcoarse.magnitude_eq⟩

/-- A multiple of ten that rounds to such a float is the float. -/
theorem tens_of_whole (hk : k ≤ exactLimit) (hmagnitude : x.magnitude = k * unit) (hten : 10 ∣ j)
    (h : x.roundingInterval.Holds (j * (4 * unit)) 1) : j = k := by
  by_cases hfine : x.shift ≤ 1074
  · rw [magnitude_of_holds hfine h] at hmagnitude
    exact Nat.mul_right_cancel unit_pos hmagnitude
  · obtain ⟨w, hcoarse⟩ := exists_coarse (show 1075 ≤ x.shift by omega)
    obtain ⟨hbelow, habove, hleast⟩ := hcoarse.bounds hmagnitude h
    have hwhole := hcoarse.magnitude_eq
    rw [hmagnitude] at hwhole
    have hsum : k = 2 ^ 52 * w + x.fraction * w := Nat.mul_right_cancel unit_pos hwhole
    simp only [exactLimit] at hk
    rcases hcoarse.even with rfl | rfl | hlarge <;> omega

theorem gridPoint?_exact {i : RoundingInterval} {scale : Nat} (hpos : 0 < k) (hscale : 0 < scale)
    (hvalue : i.value = k * scale) (hlow : i.low < i.value) (hhigh : i.value < i.high) :
    gridPoint? i scale 0 = some k := by
  have hholds : i.Holds (k * scale) 1 := by
    simp only [RoundingInterval.Holds, Nat.mul_one, ← hvalue]
    exact ⟨⟨Nat.le_of_lt hlow, Nat.le_of_lt hhigh⟩, fun _ => ⟨hlow, hhigh⟩⟩
  rw [← RoundingInterval.holds_iff, Nat.mul_one, Nat.mul_one] at hholds
  simp only [gridPoint?, Int.neg_zero, Int.toNat_zero, Nat.pow_zero, Nat.one_mul, Nat.mul_one, hvalue,
    Nat.mul_div_cancel _ hscale, Nat.mul_mod_left, Nat.mul_zero, hscale, if_true, hholds, hpos,
    decide_true, Bool.true_and]
  split
  · rfl
  · rfl
  · rename_i hfalse _
    cases hfalse
  · rename_i hfalse _
    cases hfalse

/-- A whole number that is a float is written with its digits. -/
theorem magnitudeText_of_whole (hpos : 0 < k) (hk : k ≤ exactLimit)
    (hmagnitude : x.magnitude = k * unit) : x.magnitudeText = Decimal.digits k := by
  have hzero : x.magnitude ≠ 0 := by
    rw [hmagnitude]
    exact Nat.ne_of_gt (Nat.mul_pos hpos unit_pos)
  obtain ⟨hlow, hhigh⟩ := value_within hzero
  have hvalue : x.roundingInterval.value = k * (4 * unit) := by
    rw [Nat.mul_left_comm, ← hmagnitude]
    rfl
  have hexact := gridPoint?_exact hpos (Nat.mul_pos (by decide) unit_pos) hvalue hlow hhigh
  have hshortest := coarsest_shortest hzero
  rw [magnitudeText_of_ne_zero hzero]
  generalize x.shortest.1 = d at hshortest ⊢
  generalize x.shortest.2 = p at hshortest ⊢
  have hp : 0 ≤ p := hshortest.coarsest 0 (mem_exponents.mpr (by omega)) (by rw [hexact]; rfl)
  obtain ⟨hd, hholds⟩ := gridPoint?_holds hshortest.point
  rw [Int.toNat_of_nonpos (show -p ≤ 0 by omega), Nat.pow_zero, ← Nat.mul_assoc] at hholds
  rw [positional, if_pos hp, ← Decimal.digits_mul_pow hd]
  by_cases hunits : p = 0
  · subst hunits
    have hpoint := hshortest.point
    rw [hexact] at hpoint
    cases hpoint
    rw [Int.toNat_zero, Nat.pow_zero, Nat.mul_one]
  · have hten : 10 ∣ d * 10 ^ p.toNat :=
      Nat.dvd_mul_left_of_dvd (dvd_pow_self 10 (by omega)) d
    rw [tens_of_whole hk hmagnitude hten hholds]

/-- The text of an integer as a sign and digits. -/
theorem ofInt_eq (n : Int) : Decimal.ofInt n = String.ofList
    (if decide (n < 0) then '-' :: Decimal.digits n.natAbs else Decimal.digits n.natAbs) := by
  rw [Decimal.ofInt, Decimal.ofNat]
  by_cases hn : n < 0
  · rw [if_pos hn, if_pos (decide_eq_true hn), ← List.singleton_append, String.ofList_append]
  · rw [if_neg hn, if_neg (by rw [decide_eq_false hn]; exact Bool.false_ne_true)]

theorem digits_ne_minus (n : Nat) (rest : List Char) : Decimal.digits n ≠ '-' :: rest := by
  intro h
  have hdigit := Decimal.isDigit_of_mem_digits (n := n) (c := '-') (by rw [h]; exact List.mem_cons_self)
  cases hdigit

/-- What is written as an integer has its sign and is finite, and its digits are those of the
integer. -/
theorem magnitudeText_of_text {n : Int} (hnan : x.isNaN = false) (h : x.text = Decimal.ofInt n) :
    x.isNegative = decide (n < 0) ∧ x.isFinite = true ∧
      x.magnitudeText = Decimal.digits n.natAbs := by
  rw [text_eq hnan, ofInt_eq, String.ofList_inj] at h
  obtain ⟨hsign, hbody⟩ := signed_injective (body_ne_minus x) (digits_ne_minus _) h
  refine ⟨hsign, ?_⟩
  cases hfinite : x.isFinite with
  | true =>
    rw [body, if_pos hfinite] at hbody
    exact ⟨rfl, hbody⟩
  | false =>
    rw [body_of_infinite hfinite] at hbody
    have hdigit := Decimal.isDigit_of_mem_digits (n := n.natAbs) (c := 'i')
      (by rw [← hbody]; exact List.mem_cons_self)
    cases hdigit

/-- An integer that is written like a float rounds to it. -/
theorem holds_of_text {n : Int} (hnan : x.isNaN = false) (h : x.text = Decimal.ofInt n) :
    x.isNegative = decide (n < 0) ∧ (x.magnitude = 0 → n = 0) ∧
      (x.magnitude ≠ 0 → x.roundingInterval.Holds (n.natAbs * (4 * unit)) 1) := by
  obtain ⟨hsign, -, htext⟩ := magnitudeText_of_text hnan h
  obtain ⟨hplaces, hspelled⟩ := pointless (Decimal.digits n.natAbs) fun c hc => ne_point_of_mem_digits hc
  rw [Decimal.value_digits] at hspelled
  refine ⟨hsign, ?_, ?_⟩
  · intro hzero
    have hnone := spelled_of_zero hzero
    rw [htext, hspelled] at hnone
    exact Int.natAbs_eq_zero.mp hnone
  · intro hzero
    have hholds := (holds_spelled hzero).2
    rw [htext, hplaces, hspelled] at hholds
    exact hholds

/-- A whole number that is not written with all its digits. -/
def Cut (x : Double) : Prop :=
  x.isFinite = true ∧ ∃ k, x.magnitude = k * unit ∧ x.magnitudeText ≠ Decimal.digits k

theorem Cut.large (h : x.Cut) : exactLimit * unit < x.magnitude := by
  obtain ⟨-, k, hwhole, htext⟩ := h
  rw [hwhole]
  apply Nat.mul_lt_mul_of_pos_right _ unit_pos
  by_contra hle
  apply htext
  rcases Nat.eq_zero_or_pos k with rfl | hpos
  · rw [Nat.zero_mul] at hwhole
    rw [magnitudeText_of_zero hwhole]
    rfl
  · exact magnitudeText_of_whole hpos (Nat.not_lt.mp hle) hwhole

/-- Numbers of 64 bits are not infinite. -/
theorem isFinite_of_whole (hk : k ≤ 2 ^ 64) (hmagnitude : x.magnitude = k * unit) :
    x.isFinite = true := by
  rw [isFinite, decide_eq_true_eq]
  intro hinfinite
  have hplace : x.magnitude = 2 ^ 52 * 2 ^ 2046 + x.fraction * 2 ^ 2046 := by
    rw [magnitude, significand, shift, hinfinite, if_neg (by decide), Nat.add_mul]
  have hlarge : 2 ^ 64 * unit < 2 ^ 52 * 2 ^ 2046 := by decide +kernel
  have hbound := Nat.mul_le_mul_right unit hk
  rw [hplace] at hmagnitude
  generalize (2 ^ 52 * 2 ^ 2046 : Nat) = large at hmagnitude hlarge
  omega

/-- An integer is written like a float that is the same number with the same sign, unless the float is
not written with all its digits. -/
theorem text_eq_ofInt_iff {n : Int} (hnan : x.isNaN = false) (hcut : ¬ x.Cut)
    (hn : n.natAbs ≤ 2 ^ 64) :
    x.text = Decimal.ofInt n ↔ x.magnitude = n.natAbs * unit ∧ x.isNegative = decide (n < 0) := by
  have hwritten : ∀ k, x.isFinite = true → x.magnitude = k * unit →
      x.magnitudeText = Decimal.digits k := by
    intro k hfinite hwhole
    by_contra hne
    exact hcut ⟨hfinite, k, hwhole, hne⟩
  constructor
  · intro h
    obtain ⟨hsign, hzero, hholds⟩ := holds_of_text hnan h
    obtain ⟨-, hfinite, hdigits⟩ := magnitudeText_of_text hnan h
    refine ⟨?_, hsign⟩
    by_cases hx : x.magnitude = 0
    · rw [hx, hzero hx, Int.natAbs_zero, Nat.zero_mul]
    · obtain ⟨k, hwhole⟩ := exists_whole (hholds hx)
      rw [hwritten k hfinite hwhole] at hdigits
      rw [hwhole, Decimal.digits_injective hdigits]
  · rintro ⟨hmagnitude, hsign⟩
    have hfinite := isFinite_of_whole hn hmagnitude
    rw [text_eq hnan, ofInt_eq, hsign, body, if_pos hfinite, hwritten _ hfinite hmagnitude]

/-- A float that is not written with all its digits is written like another number. -/
theorem Cut.ne_of_text {n : Int} (hcut : x.Cut) (hnan : x.isNaN = false)
    (h : x.text = Decimal.ofInt n) : x.magnitude ≠ n.natAbs * unit := by
  intro hmagnitude
  obtain ⟨-, k, hwhole, htext⟩ := hcut
  rw [hmagnitude] at hwhole
  rw [← Nat.mul_right_cancel unit_pos hwhole] at htext
  exact htext (magnitudeText_of_text hnan h).2.2

theorem ofInt_injective {m n : Int} (h : Decimal.ofInt m = Decimal.ofInt n) : m = n := by
  rw [ofInt_eq, ofInt_eq, String.ofList_inj] at h
  obtain ⟨hsign, hdigits⟩ := signed_injective (digits_ne_minus _) (digits_ne_minus _) h
  have habs := Decimal.digits_injective hdigits
  rw [decide_eq_decide] at hsign
  omega

theorem isNumeral_ofInt {n : Int} {c : Char} (h : c ∈ (Decimal.ofInt n).toList) : IsNumeral c := by
  rw [ofInt_eq] at h
  exact isNumeral_signed (fun _ hc => .inl (Decimal.isDigit_of_mem_digits hc)) h

end StoreQuery.Double
