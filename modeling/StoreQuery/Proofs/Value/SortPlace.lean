import StoreQuery.Paging.EntityOrder
import StoreQuery.Proofs.Number.WholePart
/-!
The order of sorting on scalar values. Each of them has a place: the rank of its kind, and inside the
rank a number, a moment, a text or bytes.
-/
namespace StoreQuery

/-- What sorting can place: neither a list nor an entity nor a NaN. -/
def Value.IsScalar : Value → Prop
  | .float x => x.isNaN = false
  | .sequence _ => False
  | .entity _ => False
  | _ => True

structure SortPlace where
  rank : Nat
  number : Int := 0
  nanos : Nat := 0
  text : String := ""
  bytes : List Nat := []

namespace SortPlace

protected def compare : SortPlace → SortPlace → Ordering :=
  compareLex (compareOn rank) (compareLex (compareOn number) (compareLex (compareOn nanos)
    (compareLex (compareOn text) (compareOn bytes))))

instance : Ord SortPlace := ⟨SortPlace.compare⟩

instance : Std.TransCmp SortPlace.compare := by
  simp only [SortPlace.compare]
  infer_instance

instance : Std.TransOrd SortPlace := inferInstanceAs (Std.TransCmp SortPlace.compare)

/-- Integers and floats share a rank, and are counted in the same units. -/
def of : Value → SortPlace
  | .integer n => { rank := 1, number := n.toInt * Double.unit }
  | .float x => { rank := 1, number := x.scaled }
  | .boolean b => { rank := 0, number := b.toNat }
  | .text s => { rank := 2, text := s }
  | .temporal t => { rank := 3, number := t.seconds, nanos := t.nanos }
  | .bytes bs => { rank := 4, bytes := bs.map UInt8.toNat }
  | v => { rank := v.kind.rank }

theorem rank_of (v : Value) : (of v).rank = v.kind.rank := by
  cases v <;> rfl

theorem compare_eq (a b : SortPlace) :
    compare a b = (compare a.rank b.rank).then ((compare a.number b.number).then
      ((compare a.nanos b.nanos).then ((compare a.text b.text).then (compare a.bytes b.bytes)))) :=
  rfl

theorem compare_number (rank : Nat) (m n : Int) :
    compare ({ rank := rank, number := m } : SortPlace) { rank := rank, number := n } =
      compare m n := by
  simp only [compare_eq, Std.compare_self, Ordering.eq_then, Ordering.then_eq]

theorem compare_of_rank_ne {a b : SortPlace} (h : a.rank ≠ b.rank) :
    compare a b = compare a.rank b.rank := by
  have hne : compare a.rank b.rank ≠ .eq := fun heq => h (Nat.compare_eq_eq.mp heq)
  rw [compare_eq]
  cases hc : compare a.rank b.rank with
  | lt => rfl
  | eq => exact (hne hc).elim
  | gt => rfl

theorem compare_mul_unit (m n : Int) :
    compare (m * Double.unit) (n * Double.unit) = compare m n := by
  have hpos : (0 : Int) < Double.unit := Int.natCast_pos.mpr Double.unit_pos
  generalize (Double.unit : Int) = unit at hpos
  have hlt : m * unit < n * unit ↔ m < n := Int.mul_lt_mul_right hpos
  have heq : m * unit = n * unit ↔ m = n := Int.mul_eq_mul_right_iff (by omega)
  simp only [compare, compareOfLessAndEq, hlt, heq]

theorem compare?_of_rank_ne {a b : Value} (h : a.kind.rank ≠ b.kind.rank) :
    a.compare? b = none := by
  cases a <;> cases b <;> first
    | exact (h rfl).elim
    | simp only [Value.compare?]

theorem compare?_of_rank_eq {a b : Value} (ha : a.IsScalar) (hb : b.IsScalar)
    (h : a.kind.rank = b.kind.rank) : a.compare? b = some (compare (of a) (of b)) := by
  cases a with
  | text s =>
    cases b with
    | text t =>
      simp only [Value.compare?, of, compare_eq, Std.compare_self, Ordering.eq_then,
        Ordering.then_eq]
    | _ => cases h
  | integer m =>
    cases b with
    | integer n => simp only [Value.compare?, of, compare_number, compare_mul_unit]
    | float y =>
      have hnan : y.isNaN = false := hb
      simp only [Value.compare?, Double.compareInt?_eq, of, compare_number, hnan, Bool.false_eq_true,
        if_false]
    | _ => cases h
  | float x =>
    have hx : x.isNaN = false := ha
    cases b with
    | integer n =>
      have hswap : compare x.scaled (n.toInt * Double.unit) =
          (compare (n.toInt * Double.unit) x.scaled).swap := Std.OrientedCmp.eq_swap
      simp only [Value.compare?, Double.compareInt?_eq, of, compare_number, hx, hswap,
        Bool.false_eq_true, if_false, Option.map_some]
    | float y =>
      have hy : y.isNaN = false := hb
      simp only [Value.compare?, Double.compare?, of, compare_number, hx, hy, Bool.or_self,
        Bool.false_eq_true, if_false]
    | _ => cases h
  | boolean x =>
    cases b with
    | boolean y => cases x <;> cases y <;> rfl
    | _ => cases h
  | temporal x =>
    cases b with
    | temporal y =>
      simp only [Value.compare?, Instant.compare, of, compare_eq, Std.compare_self,
        Ordering.eq_then, Ordering.then_eq]
    | _ => cases h
  | bytes x =>
    cases b with
    | bytes y => simp only [Value.compare?, of, compare_eq, Std.compare_self, Ordering.eq_then]
    | _ => cases h
  | sequence items => exact ha.elim
  | entity e => exact ha.elim

/-- On scalars sorting compares places, with nothing before everything else. -/
theorem sortOrder_eq_compare {a b : Option Value} (ha : ∀ v ∈ a, v.IsScalar)
    (hb : ∀ v ∈ b, v.IsScalar) : sortOrder a b = compare (a.map of) (b.map of) := by
  cases a with
  | none =>
    cases b with
    | none => rfl
    | some b => rfl
  | some a =>
    cases b with
    | none => rfl
    | some b =>
      change _ = compare (of a) (of b)
      by_cases h : a.kind.rank = b.kind.rank
      · simp only [sortOrder, compare?_of_rank_eq (ha a rfl) (hb b rfl) h, Option.getD_some]
      · have hplaces : (of a).rank ≠ (of b).rank := by
          rw [rank_of, rank_of]
          exact h
        simp only [sortOrder, compare?_of_rank_ne h, Option.getD_none]
        rw [compare_of_rank_ne hplaces, rank_of, rank_of]

end SortPlace

end StoreQuery
