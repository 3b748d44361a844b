import StoreQuery.Proofs.Value.SortPlace
/-!
Numbers as a sign and a magnitude. Integers and floats compare by both, but a zero hides its sign.
-/
namespace StoreQuery

namespace Value

open Double (unit)

variable {a b : Value}

def IsNumber : Value → Prop
  | .integer _ | .float _ => True
  | _ => False

/-- Whether a number carries a minus sign; a zero may. -/
def isNegative : Value → Bool
  | .integer n => decide (n.toInt < 0)
  | .float x => x.isNegative
  | _ => false

def magnitude : Value → Nat
  | .integer n => n.toInt.natAbs * unit
  | .float x => x.magnitude
  | _ => 0

def signed (negative : Bool) (magnitude : Nat) : Int :=
  if negative then -(magnitude : Int) else magnitude

theorem natAbs_signed (s : Bool) (m : Nat) : (signed s m).natAbs = m := by
  rw [signed]
  split <;> omega

theorem signed_neg_iff {s : Bool} {m : Nat} (hm : m ≠ 0) : signed s m < 0 ↔ s = true := by
  cases s with
  | false => exact ⟨fun h => absurd h (Int.not_lt.mpr (Int.natCast_nonneg m)), fun h => nomatch h⟩
  | true =>
    have hpos : (0 : Int) < m := Int.natCast_pos.mpr (Nat.pos_of_ne_zero hm)
    exact ⟨fun _ => rfl, fun _ => Int.neg_neg_of_pos hpos⟩

/-- Only a zero hides its sign. -/
theorem signed_eq_iff {s t : Bool} {m n : Nat} :
    signed s m = signed t n ↔ m = n ∧ (m ≠ 0 → s = t) := by
  constructor
  · intro h
    have hsame : m = n := by rw [← natAbs_signed s m, h, natAbs_signed]
    refine ⟨hsame, fun hm => ?_⟩
    rw [Bool.eq_iff_iff, ← signed_neg_iff hm, h, signed_neg_iff (hsame ▸ hm)]
  · rintro ⟨rfl, hsign⟩
    by_cases hm : m = 0
    · rw [hm]
      cases s <;> cases t <;> rfl
    · rw [hsign hm]

theorem signed_natAbs_mul (n : Int) (u : Nat) : signed (decide (n < 0)) (n.natAbs * u) = n * u := by
  by_cases hn : n < 0
  · rw [signed, if_pos (decide_eq_true hn), Int.natCast_mul,
      Int.ofNat_natAbs_of_nonpos (Int.le_of_lt hn), Int.neg_mul, Int.neg_neg]
  · rw [signed, if_neg (by rw [decide_eq_false hn]; exact Bool.false_ne_true), Int.natCast_mul,
      Int.natAbs_of_nonneg (Int.not_lt.mp hn)]

theorem place_of (ha : a.IsNumber) :
    SortPlace.of a = { rank := 1, number := signed a.isNegative a.magnitude } := by
  cases a with
  | integer n =>
    rw [isNegative, magnitude, signed_natAbs_mul]
    rfl
  | float x => rfl
  | _ => exact ha.elim

theorem compare?_numbers (ha : a.IsScalar) (hb : b.IsScalar) (hna : a.IsNumber) (hnb : b.IsNumber) :
    a.compare? b = some .eq ↔
      a.magnitude = b.magnitude ∧ (a.magnitude ≠ 0 → a.isNegative = b.isNegative) := by
  have hrank : a.kind.rank = b.kind.rank := by
    rw [← SortPlace.rank_of, ← SortPlace.rank_of, place_of hna, place_of hnb]
  rw [SortPlace.compare?_of_rank_eq ha hb hrank, place_of hna, place_of hnb, SortPlace.compare_number,
    Option.some_inj, Std.compare_eq_iff_eq, signed_eq_iff]

end Value

end StoreQuery
