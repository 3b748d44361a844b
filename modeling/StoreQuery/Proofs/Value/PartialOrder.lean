import StoreQuery.Proofs.Number.Reading
import StoreQuery.Proofs.Value.Numbers
import StoreQuery.Proofs.Value.Order
/-!
The comparison of values as a partial order. Between numbers it is the order of what they denote, whether
they are integers or floats, and a NaN compares with nothing.
-/
namespace StoreQuery.Value

open Double (ofUnits range)

variable {a b : Value} {r s : ExtendedRational}

/-- What a number denotes: an integer itself, and a float what its bits spell, unless it is a NaN. -/
def number? : Value → Option ExtendedRational
  | .integer n => some (n.toInt : ℚ)
  | .float x => x.reading?
  | _ => none

/-- What a number denotes is found in the place that it is compared by. -/
theorem place_of_number? (h : a.number? = some r) :
    a.IsScalar ∧ ∃ u ∈ range, SortPlace.of a = { rank := 1, number := u } ∧ ofUnits u = r := by
  cases a with
  | integer n =>
    obtain ⟨hrange, hunits⟩ := Double.ofUnits_integer n
    exact ⟨trivial, _, hrange, rfl, hunits.trans (Option.some.inj h)⟩
  | float x =>
    cases hnan : x.isNaN with
    | true =>
      rw [number?, Double.reading?, if_pos hnan] at h
      cases h
    | false =>
      obtain ⟨hrange, hreading⟩ := Double.reading?_eq hnan
      exact ⟨hnan, _, hrange, rfl, Option.some.inj (hreading.symm.trans h)⟩
  | _ => cases h

/-- Numbers compare as what they denote. -/
theorem compare?_of_number? (ha : a.number? = some r) (hb : b.number? = some s) :
    ∃ o, a.compare? b = some o ∧ o.Compares r s := by
  obtain ⟨hscalar, u, hu, hplace, rfl⟩ := place_of_number? ha
  obtain ⟨hscalar', v, hv, hplace', rfl⟩ := place_of_number? hb
  have hrank : a.kind.rank = b.kind.rank := by
    rw [← SortPlace.rank_of, ← SortPlace.rank_of, hplace, hplace']
  refine ⟨compare u v, ?_, ?_⟩
  · rw [SortPlace.compare?_of_rank_eq hscalar hscalar' hrank, hplace, hplace',
      SortPlace.compare_number]
  · rw [Double.strictMonoOn_ofUnits.compares hu hv, ← cmp_eq_compare]
    exact cmp_compares u v

theorem compare?_nan {x : Double} (h : x.isNaN = true) (b : Value) :
    (Value.float x).compare? b = none := by
  cases b with
  | integer n => rw [compare?, Double.compareInt?, if_pos h, Option.map_none]
  | float y => rw [compare?, Double.compare?, h, Bool.true_or, if_pos rfl]
  | _ => simp only [compare?]

theorem then_ne_gt {o p : Ordering} (ho : o ≠ .gt) (hp : p ≠ .gt) : o.then p ≠ .gt := by
  cases o with
  | gt => exact (ho rfl).elim
  | lt => exact nofun
  | eq => exact hp

/-- The comparison turns round with its sides. Two steps that do not go down make one that does not, over
any value between, and it stays level only if both do. Numbers compare as what they denote, and a NaN
with nothing. -/
theorem values_partially_ordered (a b c : Value) :
    b.compare? a = (a.compare? b).map Ordering.swap ∧
      (∀ o p, a.compare? b = some o → b.compare? c = some p → o ≠ .gt → p ≠ .gt →
        ∃ q, a.compare? c = some q ∧ q ≠ .gt ∧ (q = .eq → o = .eq ∧ p = .eq)) ∧
      (∀ r s, a.number? = some r → b.number? = some s →
        ∃ o, a.compare? b = some o ∧ o.Compares r s) ∧
      ∀ x, x.isNaN = true → (Value.float x).compare? b = none := by
  refine ⟨compare?_swap a b, ?_, fun r s => compare?_of_number?, fun x hnan => compare?_nan hnan b⟩
  intro o p hab hbc ho hp
  exact ⟨o.then p, compare?_trans hab hbc ho hp, then_ne_gt ho hp, Ordering.then_eq_eq.mp⟩

/-- Lists that differ only past the largest integers that are floats, with a float between them, and the
largest integer of 64 bits next to the float that it rounds to. -/
theorem values_partially_ordered_past_limit :
    let limit : Double := ⟨0x4340000000000000⟩
    let a : Value := .sequence [.integer 9007199254740992]
    let b : Value := .sequence [.float limit, .float .nan]
    let c : Value := .sequence [.integer 9007199254740993]
    let most : Value := .integer 9223372036854775807
    let rounded : Value := .float ⟨0x43E0000000000000⟩
    a.compare? b = some .lt ∧ b.compare? c = some .lt ∧
      (∃ q, a.compare? c = some q ∧ q ≠ .gt ∧ (q = .eq → Ordering.lt = .eq ∧ Ordering.lt = .eq)) ∧
      (∃ r s, most.number? = some r ∧ rounded.number? = some s ∧
        ∃ o, most.compare? rounded = some o ∧ o.Compares r s) ∧
      (Value.float .nan).compare? b = none := by
  intro limit a b c most rounded
  have hab : a.compare? b = some .lt := by decide +kernel
  have hbc : b.compare? c = some .lt := by decide +kernel
  have hrounded : ∃ s, rounded.number? = some s := ⟨_, (Double.reading?_eq (by decide)).2⟩
  obtain ⟨s, hs⟩ := hrounded
  obtain ⟨-, hchain, -, hnan⟩ := values_partially_ordered a b c
  obtain ⟨-, -, hnumbers, -⟩ := values_partially_ordered most rounded c
  exact ⟨hab, hbc, hchain .lt .lt hab hbc nofun nofun, ⟨_, s, rfl, hs, hnumbers _ s rfl hs⟩,
    hnan .nan (by decide)⟩

end StoreQuery.Value
