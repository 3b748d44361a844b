import StoreQuery.Proofs.Failures
import StoreQuery.Proofs.Number.Numeral
import StoreQuery.Proofs.Value.Integers
import StoreQuery.Value.Coerce
/-!
Reading the integer that a value stands for as a number of another type. It is read as what it is or it
is refused, except that a text is rounded to a float.
-/
namespace StoreQuery.Value

open Decimal (Natural Signed Spells signed?_eq_some spells_of_signed)

variable {α : Type} {v : Value} {s : String} {n : ℤ} {x : Double}

/-- The integers and floats that are an integer, and the texts that are a numeral of it. -/
def Denotes : Value → ℤ → Prop
  | .integer k, n => k.toInt = n
  | .float x, n => x.Denotes n
  | .text s, n => Spells (Text.trim s.toList) n
  | _, _ => False

/-- A reading that keeps what is read, or fails for want of a conversion. -/
structure Lossless (keeps : α → Prop) (r : Except QueryError α) : Prop where
  kept : ∀ a, r = .ok a → keeps a
  refused : FailsAs QueryError.IsConversion r

def Agree (r s : Except QueryError α) : Prop := r.toOption = s.toOption

theorem failsAs_asInteger (v : Value) : FailsAs QueryError.IsConversion v.asInteger := by
  cases v with
  | integer n => exact .ok n
  | float x =>
    simp only [asInteger]
    split
    · split
      · exact .ok _
      · exact .error ⟨_, _, rfl⟩
    · exact .error ⟨_, _, rfl⟩
  | text s =>
    simp only [asInteger]
    split
    · exact .ok _
    · exact .error ⟨_, _, rfl⟩
  | _ => exact .error ⟨_, _, rfl⟩

theorem failsAs_asInteger32 (v : Value) : FailsAs QueryError.IsConversion v.asInteger32 := by
  apply (failsAs_asInteger v).bind
  intro n
  split
  · exact .ok _
  · exact .error ⟨_, _, rfl⟩

theorem failsAs_asFloat (v : Value) : FailsAs QueryError.IsConversion v.asFloat := by
  cases v with
  | float x => exact .ok x
  | integer n =>
    simp only [asFloat]
    split
    · exact .ok _
    · exact .error ⟨_, _, rfl⟩
  | text s =>
    simp only [asFloat]
    split
    · exact .ok _
    · exact .error ⟨_, _, rfl⟩
  | _ => exact .error ⟨_, _, rfl⟩

/-- An integer of 64 bits is told by its value. -/
theorem ofInt_eq_iff {k : Int64} (hlow : -2 ^ 63 ≤ n) (hhigh : n < 2 ^ 63) :
    Int64.ofInt n = k ↔ n = k.toInt := by
  rw [← Int64.toInt_inj, Int64.toInt_ofInt_of_le hlow hhigh]

/-- A float is read as the integer that it is. -/
theorem asInteger_float {k : Int64} : (float x).asInteger = .ok k ↔ x.Denotes k.toInt := by
  rw [← Double.toInt?_eq_some, asInteger]
  cases x.toInt? with
  | none => exact iff_of_false nofun nofun
  | some n =>
    simp only [Option.some.injEq]
    split
    · rename_i hrange
      rw [Except.ok.injEq, ofInt_eq_iff hrange.1 hrange.2]
    · rename_i hrange
      refine iff_of_false nofun ?_
      rintro rfl
      exact hrange ⟨k.le_toInt, k.toInt_lt⟩

/-- A text is read as the integer that its digits spell. -/
theorem asInteger_text {k : Int64} :
    (text s).asInteger = .ok k ↔ Signed Natural (Text.trim s.toList) k.toInt := by
  have hread : (text s).asInteger = .ok k ↔ Decimal.int64? (Text.trim s.toList) = some k := by
    rw [asInteger]
    split
    · rename_i m hm
      rw [hm, Except.ok.injEq, Option.some.injEq]
    · rename_i hnone
      rw [hnone]
      exact iff_of_false nofun nofun
  rw [hread, ← signed?_eq_some, Decimal.int64?]
  cases Decimal.signed? (Text.trim s.toList) with
  | none => exact iff_of_false nofun nofun
  | some n =>
    rw [Option.bind_some, Option.some.injEq]
    split
    · rename_i hrange
      rw [Option.some.injEq, ofInt_eq_iff hrange.1 (Int.lt_of_le_of_lt hrange.2 (by decide))]
    · rename_i hrange
      refine iff_of_false nofun ?_
      rintro rfl
      exact hrange ⟨k.le_toInt, Int.le_of_lt_add_one k.toInt_lt⟩

theorem asInteger32_eq_ok {k : Int32} : v.asInteger32 = .ok k ↔ v.asInteger = .ok k.toInt64 := by
  rw [asInteger32]
  cases v.asInteger with
  | error e => exact iff_of_false nofun nofun
  | ok m =>
    have hm : (.ok m : Except QueryError Int64) = .ok k.toInt64 ↔ m.toInt = k.toInt := by
      rw [Except.ok.injEq, ← Int64.toInt_inj, Int32.toInt_toInt64]
    rw [hm]
    show (if _ then _ else _) = _ ↔ _
    split
    · rename_i hrange
      rw [Except.ok.injEq, ← Int32.toInt_inj, Int32.toInt_ofInt_of_le hrange.1 hrange.2]
    · rename_i hrange
      refine iff_of_false nofun fun h => hrange ?_
      rw [h]
      exact ⟨k.le_toInt, k.toInt_lt⟩

/-- What is read as an integer stands for it. -/
theorem toInt_of_asInteger {k : Int64} (h : v.Denotes n) (hread : v.asInteger = .ok k) : k.toInt = n := by
  cases v with
  | integer m =>
    cases hread
    exact h
  | float x =>
    have hx := asInteger_float.mp hread
    rw [← Double.toInt?_eq_some] at hx
    exact Option.some.inj (hx.symm.trans (Double.toInt?_eq_some.mpr h))
  | text s => exact_mod_cast (Decimal.Spells.eq_of_signed h (asInteger_text.mp hread)).symm
  | _ => exact h.elim

theorem lossless_asInteger (h : v.Denotes n) : Lossless (·.toInt = n) v.asInteger where
  kept _ hread := toInt_of_asInteger h hread
  refused := failsAs_asInteger v

theorem lossless_asInteger32 (h : v.Denotes n) : Lossless (·.toInt = n) v.asInteger32 where
  kept k hread := by
    rw [← Int32.toInt_toInt64]
    exact toInt_of_asInteger h (asInteger32_eq_ok.mp hread)
  refused := failsAs_asInteger32 v

/-- A numeral is always read as a float, and an integer that is a float as that. -/
theorem asFloat_text (h : Spells (Text.trim s.toList) n) :
    ∃ x, (text s).asFloat = .ok x ∧ ((∃ y : Double, y.Denotes n) → x.Denotes n) := by
  obtain ⟨negative, m, e, hvalue, hsign, hread⟩ := Double.ofText?_of_spells h
  refine ⟨Double.ofScientific negative m e, ?_, ?_⟩
  · rw [asFloat, hread]
  · rintro ⟨y, hy⟩
    apply Double.denotes_ofScientific hy
    · rw [← hvalue, Nat.cast_natAbs, Int.cast_abs]
    · intro hne
      rw [hsign (Int.cast_ne_zero.mpr hne)]
      exact decide_eq_decide.mpr Int.cast_lt_zero

/-- Integers are refused past the limit up to which all of them are floats. -/
theorem asFloat_integer (k : Int64) :
    (integer k).asFloat.toOption = if k.toInt.natAbs ≤ 2 ^ 53 then some (Double.ofInt k.toInt) else none := by
  rw [asFloat, maxExactInteger]
  split <;> rfl

/-- What is read as a float stands for it, but a text of what is no float is rounded. -/
theorem lossless_asFloat_iff (h : v.Denotes n) :
    Lossless (·.Denotes n) v.asFloat ↔ v.text? = none ∨ ∃ x : Double, x.Denotes n := by
  constructor
  · intro hlossless
    cases v with
    | text s =>
      obtain ⟨x, hread, -⟩ := asFloat_text h
      exact .inr ⟨x, hlossless.kept x hread⟩
    | _ => exact .inl rfl
  · intro hfloat
    refine ⟨fun x hread => ?_, failsAs_asFloat v⟩
    cases v with
    | float y =>
      cases hread
      exact h
    | integer k =>
      obtain rfl : k.toInt = n := h
      rw [asFloat] at hread
      split at hread
      · rename_i hlimit
        obtain ⟨y, hy⟩ := Double.exists_denotes hlimit
        rw [← Except.ok.inj hread]
        exact Double.denotes_ofInt hy
      · cases hread
    | text s =>
      obtain ⟨y, hy, hkept⟩ := asFloat_text h
      cases hy.symm.trans hread
      exact hkept (hfloat.resolve_left nofun)
    | _ => exact h.elim

theorem trim_ofInt (n : ℤ) : Text.trim (Decimal.ofInt n).toList = (Decimal.ofInt n).toList :=
  Text.trim_eq_self fun _ hc => Decimal.isBlank_of_mem_signed (Decimal.signed_ofInt n) hc

/-- The written form of an integer is read as that integer. -/
theorem asInteger_ofInt (k : Int64) : (text (Decimal.ofInt k.toInt)).asInteger = .ok k := by
  rw [asInteger_text, trim_ofInt]
  exact Decimal.signed_ofInt k.toInt

theorem asFloat_ofInt (k : Int64) :
    (text (Decimal.ofInt k.toInt)).asFloat = .ok (Double.ofInt k.toInt) := by
  have hlow := k.le_toInt
  have hhigh := k.toInt_lt
  have hsmall : k.toInt.natAbs < 10 ^ 20 := by omega
  rw [asFloat, trim_ofInt, Double.ofText?_ofInt, Double.ofScientific_natAbs hsmall]

/-- An integer and its written form are read alike, but as floats only up to the limit. -/
theorem agree_ofInt (k : Int64) :
    Agree (integer k).asInteger (text (Decimal.ofInt k.toInt)).asInteger ∧
      Agree (integer k).asInteger32 (text (Decimal.ofInt k.toInt)).asInteger32 ∧
      (Agree (integer k).asFloat (text (Decimal.ofInt k.toInt)).asFloat ↔ k.toInt.natAbs ≤ 2 ^ 53) := by
  refine ⟨?_, ?_, ?_⟩
  · rw [asInteger_ofInt]
    rfl
  · rw [asInteger32, asInteger32, asInteger_ofInt]
    rfl
  · rw [Agree, asFloat_integer, asFloat_ofInt]
    split
    · rename_i hlimit
      exact iff_of_true rfl hlimit
    · rename_i hlimit
      exact iff_of_false nofun hlimit

/-- No reading of a value as a number changes the integer that it stands for, except that a text of an
integer that is no float is rounded to a float. An integer and its written form are read alike, except that
past the limit only the text is read as a float. A float is read as an integer exactly if it is one. -/
theorem coercions_keep_integers (v : Value) :
    (∀ n : ℤ, v.Denotes n →
      Lossless (·.toInt = n) v.asInteger ∧ Lossless (·.toInt = n) v.asInteger32 ∧
      (Lossless (·.Denotes n) v.asFloat ↔ v.text? = none ∨ ∃ x : Double, x.Denotes n)) ∧
    (∀ k : Int64, v = integer k →
      Agree v.asInteger (text (Decimal.ofInt k.toInt)).asInteger ∧
      Agree v.asInteger32 (text (Decimal.ofInt k.toInt)).asInteger32 ∧
      (Agree v.asFloat (text (Decimal.ofInt k.toInt)).asFloat ↔ k.toInt.natAbs ≤ 2 ^ 53)) ∧
    ∀ x : Double, v = float x →
      (∀ k : Int64, v.asInteger = .ok k ↔ x.Denotes k.toInt) ∧
      (∀ k : Int32, v.asInteger32 = .ok k ↔ x.Denotes k.toInt) := by
  refine ⟨fun n h => ?_, ?_, ?_⟩
  · exact ⟨lossless_asInteger h, lossless_asInteger32 h, lossless_asFloat_iff h⟩
  · rintro k rfl
    exact agree_ofInt k
  · rintro x rfl
    refine ⟨fun k => asInteger_float, fun k => ?_⟩
    rw [asInteger32_eq_ok, asInteger_float, Int32.toInt_toInt64]

/-- Fifteen below zero, with a blank behind it and an exponent. -/
theorem coercions_keep_integers_scientific :
    (text "-1.5e1 ").Denotes (-15) ∧ Lossless (·.Denotes (-15)) (text "-1.5e1 ").asFloat := by
  have hspells : (text "-1.5e1 ").Denotes (-15) := by
    have htail : Decimal.Exponent ['e', '1'] 1 := .power (.inl rfl) (signed?_eq_some.mp (by decide))
    have hmagnitude := @Decimal.Magnitude.pointed ['1'] ['5'] ['e', '1'] 1 (by decide) (by decide)
      (by decide) htail
    have hvalue : (Decimal.value (['1'] ++ ['5']) : ℚ) * 10 ^ ((1 : ℤ) - ['5'].length) = 15 := by
      rw [show Decimal.value (['1'] ++ ['5']) = 15 by decide]
      norm_num
    rw [hvalue] at hmagnitude
    exact .minus hmagnitude
  exact ⟨hspells, ((coercions_keep_integers _).1 (-15) hspells).2.2.mpr
    (.inr (Double.exists_denotes (by decide)))⟩

/-- One past the limit, a text is rounded to the float below and the integer is refused. -/
theorem text_rounded_past_limit :
    (text "9007199254740993").Denotes 9007199254740993 ∧
      (∃ x : Double, (text "9007199254740993").asFloat = .ok x ∧ x.Denotes 9007199254740992) ∧
      ¬ Lossless (·.Denotes 9007199254740993) (text "9007199254740993").asFloat ∧
      ¬ Agree (integer 9007199254740993).asFloat (text "9007199254740993").asFloat := by
  have hspells : (text "9007199254740993").Denotes 9007199254740993 :=
    spells_of_signed (signed?_eq_some.mp (by decide +kernel))
  have hread : (text "9007199254740993").asFloat = .ok ⟨0x4340000000000000⟩ := by
    rw [asFloat, show Double.ofText? (Text.trim "9007199254740993".toList) =
      some ⟨0x4340000000000000⟩ by decide +kernel]
  have hrounded : Double.Denotes ⟨0x4340000000000000⟩ 9007199254740992 :=
    Double.toInt?_eq_some.mp (by decide +kernel)
  refine ⟨hspells, ⟨_, hread, hrounded⟩, ?_, ?_⟩
  · intro hlossless
    have hkept := Double.toInt?_eq_some.mpr (hlossless.kept _ hread)
    rw [Double.toInt?_eq_some.mpr hrounded] at hkept
    cases hkept
  · rw [Agree, asFloat_integer, hread]
    exact nofun

end StoreQuery.Value
