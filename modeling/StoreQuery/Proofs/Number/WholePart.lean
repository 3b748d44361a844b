import Mathlib.Algebra.Order.Ring.Int
import StoreQuery.Number.Double
/-!
Integers next to floats. To compare with the whole part of a float first and with what stands behind the
point after that is to compare exact numbers.
-/
namespace StoreQuery.Double

variable {m n s u : Int} {x : Double}

/-- Less than a unit stands behind the point, on the side of the number away from zero. -/
theorem behind_point (hu : 0 < u) (s : Int) :
    ∃ r, s = s.tdiv u * u + r ∧ -u < r ∧ r < u ∧ (0 ≤ s → 0 ≤ r) := by
  refine ⟨s.tmod u, (Int.tdiv_mul_add_tmod s u).symm, Int.lt_tmod_of_pos s hu,
    Int.tmod_lt_of_pos s hu, ?_⟩
  exact fun hs => Int.tmod_nonneg u hs

theorem succ_mul_le (hu : 0 < u) (h : m < n) : m * u + u ≤ n * u := by
  have hle : (m + 1) * u ≤ n * u := Int.mul_le_mul_of_nonneg_right h (Int.le_of_lt hu)
  rwa [Int.add_mul, Int.one_mul] at hle

/-- The whole part of a number between two whole numbers is between them. -/
theorem tdiv_bounds (hu : 0 < u) (hm : 0 < m) (hlow : -(m * u) ≤ s) (hhigh : s < m * u) :
    -m ≤ s.tdiv u ∧ s.tdiv u < m := by
  obtain ⟨r, hs, hr, hr', hsign⟩ := behind_point hu s
  generalize s.tdiv u = w at hs
  constructor
  · by_contra hlt
    have hstep := succ_mul_le hu (Int.not_le.mp hlt)
    rw [Int.neg_mul] at hstep
    omega
  · by_contra hge
    have hmul : m * u ≤ w * u := Int.mul_le_mul_of_nonneg_right (Int.not_lt.mp hge) (Int.le_of_lt hu)
    have hone := succ_mul_le hu hm
    rw [Int.zero_mul] at hone
    omega

/-- The whole part decides, and for the integer itself the rest does. -/
theorem compare_whole (hu : 0 < u) (n s : Int) :
    (match compare n (s.tdiv u) with
      | .eq => compare 0 (s - s.tdiv u * u)
      | o => o) = compare (n * u) s := by
  obtain ⟨r, hs, hr, hr', -⟩ := behind_point hu s
  generalize s.tdiv u = w at hs ⊢
  rcases Int.lt_trichotomy n w with hlt | rfl | hgt
  · have hstep := succ_mul_le hu hlt
    rw [Int.compare_eq_lt.mpr hlt]
    exact (Int.compare_eq_lt.mpr (by omega)).symm
  · have hlt : 0 < s - n * u ↔ n * u < s := by omega
    have heq : 0 = s - n * u ↔ n * u = s := by omega
    rw [Std.compare_self]
    simp only [compare, compareOfLessAndEq, hlt, heq]
  · have hstep := succ_mul_le hu hgt
    rw [Int.compare_eq_gt.mpr hgt]
    exact (Int.compare_eq_gt.mpr (by omega)).symm

/-- An integer of 64 bits compares with a float as the exact numbers do. -/
theorem compareInt?_eq (n : Int64) (x : Double) :
    compareInt? n x = if x.isNaN then none else some (compare (n.toInt * unit) x.scaled) := by
  have hunit : (0 : Int) < unit := Int.natCast_pos.mpr unit_pos
  have hlow := n.le_toInt
  have hhigh := n.toInt_lt
  rw [compareInt?, whole]
  generalize (unit : Int) = u at hunit ⊢
  generalize x.scaled = s
  split
  · rfl
  split
  · rename_i habove
    have hstep := succ_mul_le hunit hhigh
    rw [Int.compare_eq_lt.mpr (by omega)]
  split
  · rename_i hbelow
    have hle : -2 ^ 63 * u ≤ n.toInt * u := Int.mul_le_mul_of_nonneg_right hlow (Int.le_of_lt hunit)
    rw [Int.compare_eq_gt.mpr (by omega)]
  · obtain ⟨hleast, hmost⟩ := tdiv_bounds (s := s) hunit (show (0 : Int) < 2 ^ 63 by decide)
      (by omega) (by omega)
    rw [Int64.toInt_ofInt_of_le hleast hmost, ← compare_whole hunit]
    cases compare n.toInt (s.tdiv u) <;> rfl

end StoreQuery.Double
