import StoreQuery.Proofs.Search.Places
import StoreQuery.Proofs.Value.Coercion
/-!
Numbers of documents. What stands in a document is read in its place: each number as the number that it is,
except that integers of more than 64 bits with their sign are rounded to floats.
-/
namespace StoreQuery.Search

/-- The integer of a document is read as itself if it has 64 bits with its sign or is a float. -/
theorem denotes_integerValue (n : ℤ) : (integerValue n).Denotes n ↔
    (-2 ^ 63 ≤ n ∧ n < 2 ^ 63) ∨ ∃ x : Double, x.Denotes n := by
  rw [integerValue]
  split
  · rename_i hrange
    exact iff_of_true (Int64.toInt_ofInt_of_le hrange.1 hrange.2) (.inl hrange)
  · rename_i hrange
    constructor
    · exact fun h => .inr ⟨Double.ofInt n, h⟩
    · rintro (h | ⟨x, hx⟩)
      · exact absurd h hrange
      · exact Double.denotes_ofInt hx

theorem isNumber_integerValue (n : ℤ) : (integerValue n).IsNumber := by
  rw [integerValue]
  split
  · trivial
  · trivial

/-- Reading a document refuses empty names only. Every number outside the field for the name of the entity
is read in its place: a float as that float, and an integer as a number that denotes it exactly if it has
64 bits with its sign or is a float. -/
theorem documents_keep_numbers (hit : Hit) (hordered : (Json.object hit.source).Ordered)
    (collection : String) :
    FailsAs QueryError.IsInvalid (hit.toEntity collection) ∧
    ((Json.object hit.source).Named → collection ≠ "" → ∃ e, hit.toEntity collection = .ok e) ∧
    ∀ e, hit.toEntity collection = .ok e → ∀ name path, name ≠ entityField →
      (∀ x, (Json.object hit.source).at? (.field name :: path) = some (.float x) →
        (Value.entity e).at? (.field name :: path) = some (.float x)) ∧
      ∀ n, (Json.object hit.source).at? (.field name :: path) = some (.integer n) →
        ∃ v, (Value.entity e).at? (.field name :: path) = some v ∧ v.IsNumber ∧
          (v.Denotes n ↔ (-2 ^ 63 ≤ n ∧ n < 2 ^ 63) ∨ ∃ x : Double, x.Denotes n) := by
  refine ⟨failsAs_toEntity hit collection, fun hnamed hcollection => ?_, ?_⟩
  · exact exists_toEntity_of_named hnamed (entityName_ne_empty hcollection hit.source)
  · intro e he name path hname
    constructor
    · intro x hx
      obtain ⟨w, field, hw, hread⟩ := at?_of_toEntity he hordered hname hx rfl
      cases hread
      exact hw
    · intro n hn
      obtain ⟨w, field, hw, hread⟩ := at?_of_toEntity he hordered hname hn rfl
      cases hread
      exact ⟨_, hw, isNumber_integerValue n, denotes_integerValue n⟩

/-- An integer of 64 bits without a sign that is a float, behind a null in an array. -/
theorem documents_keep_numbers_in_array :
    let hit : Hit := ⟨"r1", [("rows", .array [.null, .object [("n", .integer 9223372036854775808)]])]⟩
    (Json.object hit.source).Ordered ∧ ∃ e, hit.toEntity "readings" = .ok e ∧
      ∃ v, (Value.entity e).at? [.field "rows", .item 0, .field "n"] = some v ∧
        v.Denotes 9223372036854775808 := by
  intro hit
  have hinteger (j : Json) : j.Within (.integer 9223372036854775808) ↔ j = .integer 9223372036854775808 :=
    Json.within_of_scalar rfl
  have hnull (j : Json) : j.Within .null ↔ j = .null := Json.within_of_scalar rfl
  have hobjects : ∀ fs, (Json.object fs).Within (.object hit.source) →
      fs = hit.source ∨ fs = [("n", .integer 9223372036854775808)] := by
    intro fs h
    simpa [hit, hinteger, hnull] using h
  have hordered : (Json.object hit.source).Ordered := by
    intro fs h
    rcases hobjects fs h with rfl | rfl <;> decide
  have hnamed : (Json.object hit.source).Named := by
    intro fs h
    rcases hobjects fs h with rfl | rfl <;> decide
  obtain ⟨-, hsucceeds, hkept⟩ := documents_keep_numbers hit hordered "readings"
  obtain ⟨e, he⟩ := hsucceeds hnamed (by decide)
  obtain ⟨v, hv, -, hdenotes⟩ := (hkept e he "rows" [.item 0, .field "n"] (by decide)).2 _ rfl
  have hfloat : Double.Denotes ⟨0x43E0000000000000⟩ 9223372036854775808 :=
    Double.toInt?_eq_some.mp (by decide +kernel)
  exact ⟨hordered, e, he, v, hv, hdenotes.mpr (.inr ⟨_, hfloat⟩)⟩

/-- The next integer is read as the same float. -/
theorem number_rounded_past_limit :
    let hit : Hit := ⟨"r1", [("n", .integer 9223372036854775809)]⟩
    ∃ x, hit.toEntity "readings" = .ok ⟨"readings", [⟨"_id", .text "r1"⟩, ⟨"n", .float x⟩]⟩ ∧
      x.Denotes 9223372036854775808 ∧ ¬ x.Denotes 9223372036854775809 := by
  have hrounded : (Double.ofInt 9223372036854775809).Denotes 9223372036854775808 :=
    Double.toInt?_eq_some.mp (by decide +kernel)
  refine ⟨Double.ofInt 9223372036854775809, rfl, hrounded, ?_⟩
  intro hkept
  have hsame := Double.toInt?_eq_some.mpr hkept
  rw [Double.toInt?_eq_some.mpr hrounded] at hsame
  cases hsame

end StoreQuery.Search
