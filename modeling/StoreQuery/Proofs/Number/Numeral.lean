import Mathlib.Algebra.Order.Field.Power
import Mathlib.Data.Rat.Cast.Order
import StoreQuery.Number.DoubleText
import StoreQuery.Proofs.Number.Decimal
import StoreQuery.Text.Blank
/-!
Numerals, and the numbers that they spell: a sign, digits around a point, and an exponent of ten. The
reader of integers takes the numerals that are digits behind a sign, and takes from each the integer that
it spells. The reader of floats takes all numerals.
-/
namespace StoreQuery

namespace Decimal

variable {α : Type} {cs : List Char} {q : ℚ} {e n : ℤ} {k : Nat}

inductive Signed [Neg α] (unsigned : List Char → α → Prop) : List Char → α → Prop where
  | plain {cs a} (h : unsigned cs a) : Signed unsigned cs a
  | plus {cs a} (h : unsigned cs a) : Signed unsigned ('+' :: cs) a
  | minus {cs a} (h : unsigned cs a) : Signed unsigned ('-' :: cs) (-a)

def Digits (cs : List Char) : Prop := ∀ c ∈ cs, c.isDigit = true

instance (cs : List Char) : Decidable (Digits cs) := List.decidableBAll _ cs

inductive Natural : List Char → ℤ → Prop where
  | digits {ds} (hne : ds ≠ []) (hds : Digits ds) : Natural ds (value ds)

/-- The power of ten that a numeral ends in; without one it is `10 ^ 0`. -/
inductive Exponent : List Char → ℤ → Prop where
  | none : Exponent [] 0
  | power {mark cs e} (hmark : mark = 'e' ∨ mark = 'E') (h : Signed Natural cs e) :
    Exponent (mark :: cs) e

/-- Digits, at least one, with an optional point between them or at an end. Each digit behind the point
divides by ten. -/
inductive Magnitude : List Char → ℚ → Prop where
  | whole {ds tail e} (hne : ds ≠ []) (hds : Digits ds) (htail : Exponent tail e) :
    Magnitude (ds ++ tail) (value ds * 10 ^ e)
  | pointed {ds ps tail e} (hne : ds ++ ps ≠ []) (hds : Digits ds) (hps : Digits ps)
    (htail : Exponent tail e) :
    Magnitude (ds ++ '.' :: (ps ++ tail)) (value (ds ++ ps) * 10 ^ (e - ps.length))

def Spells : List Char → ℚ → Prop := Signed Magnitude

def Begun (cs : List Char) : Prop := ∃ c rest, cs = c :: rest ∧ (c.isDigit = true ∨ c = '.')

theorem begun_append {ds : List Char} (hne : ds ≠ []) (hds : Digits ds) (rest : List Char) :
    Begun (ds ++ rest) := by
  obtain ⟨d, ds, rfl⟩ := List.exists_cons_of_ne_nil hne
  exact ⟨d, ds ++ rest, rfl, .inl (hds d List.mem_cons_self)⟩

theorem Natural.begun (h : Natural cs n) : Begun cs := by
  obtain ⟨hne, hds⟩ := h
  rw [← List.append_nil cs]
  exact begun_append hne hds []

theorem Magnitude.begun (h : Magnitude cs q) : Begun cs := by
  cases h with
  | whole hne hds htail => exact begun_append hne hds _
  | @pointed ds ps _ _ hne hds hps htail =>
    by_cases hnil : ds = []
    · subst hnil
      exact ⟨'.', _, rfl, .inr rfl⟩
    · exact begun_append hnil hds _

/-- No sign begins a number without a sign. -/
theorem Begun.ne_sign {c : Char} (h : Begun (c :: cs)) : c ≠ '+' ∧ c ≠ '-' := by
  obtain ⟨_, _, ⟨⟩, hdigit | rfl⟩ := h
  · constructor
    · rintro rfl
      cases hdigit
    · rintro rfl
      cases hdigit
  · decide

section Integers

theorem nat?_eq_some : nat? cs = some k ↔ Natural cs k := by
  rw [nat?]
  constructor
  · intro h
    split at h
    · rename_i hcs
      cases h
      exact .digits hcs.1 (List.all_eq_true.mp hcs.2)
    · cases h
  · generalize hn : (k : ℤ) = n
    intro h
    obtain ⟨hne, hds⟩ := h
    rw [if_pos ⟨hne, List.all_eq_true.mpr hds⟩, Int.ofNat_inj.mp hn]

theorem unsigned?_of_begun (h : Begun cs) : unsigned? cs = nat? cs := by
  obtain ⟨c, rest, rfl, -⟩ := id h
  rw [unsigned?]
  rintro _ ⟨⟩
  exact h.ne_sign.1 rfl

theorem signed?_of_begun (h : Begun cs) : signed? cs = (nat? cs).map Int.ofNat := by
  obtain ⟨c, rest, rfl, -⟩ := id h
  rw [signed?, unsigned?_of_begun h]
  rintro _ ⟨⟩
  exact h.ne_sign.2 rfl

theorem signed?_minus (cs : List Char) : signed? ('-' :: cs) = (nat? cs).map fun k : Nat => -(k : ℤ) := by
  rw [signed?]
  cases nat? cs <;> rfl

/-- The reader of integers takes exactly what spells them. -/
theorem signed?_eq_some : signed? cs = some n ↔ Signed Natural cs n := by
  constructor
  · intro h
    fun_cases signed? cs
    · rw [signed?_minus] at h
      obtain ⟨k, hk, rfl⟩ := Option.map_eq_some_iff.mp h
      exact .minus (nat?_eq_some.mp hk)
    · rename_i hminus
      rw [signed?] at h
      · obtain ⟨k, hk, rfl⟩ := Option.map_eq_some_iff.mp h
        fun_cases unsigned? cs
        · exact .plus (nat?_eq_some.mp hk)
        · rename_i hplus
          rw [unsigned?] at hk
          · exact .plain (nat?_eq_some.mp hk)
          · exact hplus
      · exact hminus
  · have hread : ∀ {cs n}, Natural cs n → (nat? cs).map Int.ofNat = some n := by
      rintro ds _ ⟨hne, hds⟩
      rw [nat?_eq_some.mpr (.digits hne hds)]
      rfl
    rintro (h | h | h)
    · rw [signed?_of_begun h.begun, hread h]
    · exact hread h
    · obtain ⟨hne, hds⟩ := h
      rw [signed?_minus, nat?_eq_some.mpr (.digits hne hds)]
      rfl

/-- Digits alone spell one number only. -/
theorem Magnitude.eq_of_natural (h : Magnitude cs q) (hn : Natural cs n) : q = n := by
  obtain ⟨-, hds⟩ := hn
  cases h with
  | whole hne _ htail =>
    cases htail with
    | none => rw [List.append_nil, zpow_zero, mul_one, Int.cast_natCast]
    | power hmark _ =>
      have hdigit := hds _ (List.mem_append_right _ List.mem_cons_self)
      rcases hmark with rfl | rfl <;> cases hdigit
  | pointed _ _ _ _ =>
    have hdigit := hds '.' (List.mem_append_right _ List.mem_cons_self)
    cases hdigit

/-- A text that is read as an integer spells no other number. -/
theorem Spells.eq_of_signed (h : Spells cs q) (hn : Signed Natural cs n) : q = n := by
  cases hn with
  | plain hn =>
    cases h with
    | plain h => exact h.eq_of_natural hn
    | plus h => exact absurd rfl hn.begun.ne_sign.1
    | minus h => exact absurd rfl hn.begun.ne_sign.2
  | plus hn =>
    cases h with
    | plain h => exact absurd rfl h.begun.ne_sign.1
    | plus h => exact h.eq_of_natural hn
  | minus hn =>
    cases h with
    | plain h => exact absurd rfl h.begun.ne_sign.2
    | minus h => rw [h.eq_of_natural hn, Int.cast_neg]

end Integers

theorem natural_digits (k : Nat) : Natural (digits k) k := nat?_eq_some.mp (nat?_digits k)

/-- What is written of an integer spells it. -/
theorem signed_ofInt (n : ℤ) : Signed Natural (ofInt n).toList n := by
  have hnatural : Natural (ofNat n.natAbs).toList n.natAbs := by
    rw [ofNat, String.toList_ofList]
    exact natural_digits n.natAbs
  rw [ofInt]
  split
  · rw [String.toList_append, show n = -(n.natAbs : ℤ) by omega, Int.natAbs_neg, Int.natAbs_natCast]
    exact .minus hnatural
  · rw [show n = (n.natAbs : ℤ) by omega, Int.natAbs_natCast]
    exact .plain hnatural

theorem Natural.magnitude (h : Natural cs n) : Magnitude cs n := by
  obtain ⟨hne, hds⟩ := h
  have hwhole := Magnitude.whole hne hds .none
  rwa [List.append_nil, zpow_zero, mul_one, ← Int.cast_natCast] at hwhole

/-- What the reader of integers takes is a numeral. -/
theorem spells_of_signed (h : Signed Natural cs n) : Spells cs n := by
  cases h with
  | plain h => exact .plain h.magnitude
  | plus h => exact .plus h.magnitude
  | minus h =>
    rw [Int.cast_neg]
    exact .minus h.magnitude

theorem isBlank_of_mem_signed {c : Char} (h : Signed Natural cs n) (hc : c ∈ cs) :
    Text.isBlank c = false := by
  have hblank : ∀ {ds k}, Natural ds k → c ∈ ds → Text.isBlank c = false := by
    rintro _ _ ⟨-, hds⟩ hmem
    exact Text.isBlank_of_isDigit (hds c hmem)
  cases h with
  | plain h => exact hblank h hc
  | plus h =>
    rcases List.mem_cons.mp hc with rfl | hc
    · rfl
    · exact hblank h hc
  | minus h =>
    rcases List.mem_cons.mp hc with rfl | hc
    · rfl
    · exact hblank h hc

end Decimal

namespace Double

open Decimal

variable {cs : List Char} {q : ℚ} {e : ℤ}

theorem exponent?_of_exponent (h : Exponent cs e) : exponent? cs = some e := by
  cases h with
  | none => rfl
  | power hmark h =>
    rw [exponent?, if_pos hmark]
    exact signed?_eq_some.mpr h

theorem stops_of_exponent (h : Exponent cs e) : Stops cs := by
  cases h with
  | none => exact nofun
  | power hmark _ => rcases hmark with rfl | rfl <;> exact stops_cons rfl _

theorem unsignedOfText?_whole {ds tail : List Char} (hne : ds ≠ []) (hds : Digits ds)
    (htail : Exponent tail e) (negative : Bool) :
    unsignedOfText? negative (ds ++ tail) = some (ofScientific negative (value ds) e) := by
  have hstops := stops_of_exponent htail
  have hexponent := exponent?_of_exponent htail
  have hplaces : (if ds ++ [] = [] then none else (exponent? tail).map fun e =>
      ofScientific negative (value (ds ++ [])) (e - (0 : Nat))) =
        some (ofScientific negative (value ds) e) := by
    rw [List.append_nil, if_neg hne, hexponent, Option.map_some, Int.natCast_zero, Int.sub_zero]
  simp only [unsignedOfText?, takeWhile_digits hds hstops, dropWhile_digits hds hstops]
  -- no exponent begins with a point, so there are no digits behind one
  rcases htail with _ | ⟨rfl | rfl, -⟩ <;> exact hplaces

theorem unsignedOfText?_pointed {ds ps tail : List Char} (hne : ds ++ ps ≠ []) (hds : Digits ds)
    (hps : Digits ps) (htail : Exponent tail e) (negative : Bool) :
    unsignedOfText? negative (ds ++ '.' :: (ps ++ tail)) =
      some (ofScientific negative (value (ds ++ ps)) (e - ps.length)) := by
  have hstops := stops_of_exponent htail
  have hpoint : Stops ('.' :: (ps ++ tail)) := stops_cons rfl _
  simp only [unsignedOfText?, takeWhile_digits hds hpoint, dropWhile_digits hds hpoint,
    takeWhile_digits hps hstops, dropWhile_digits hps hstops]
  rw [if_neg hne, exponent?_of_exponent htail, Option.map_some]

theorem toLower_of_begins {c : Char} (h : c.isDigit = true ∨ c = '.') : c.toLower = c := by
  rcases h with hdigit | rfl
  · apply dif_neg
    simp only [Char.isDigit, Bool.and_eq_true, decide_eq_true_eq] at hdigit
    have hlast : c.val.toNat ≤ 57 := UInt32.le_iff_toNat_le.mp hdigit.2
    rintro ⟨hupper, -⟩
    have hfirst : 65 ≤ c.val.toNat := UInt32.le_iff_toNat_le.mp hupper
    omega
  · rfl

/-- The names of what is no number begin with a letter. -/
theorem magnitudeOfText?_of_begun (h : Begun cs) (negative : Bool) :
    magnitudeOfText? negative cs = unsignedOfText? negative cs := by
  obtain ⟨c, rest, rfl, hc⟩ := h
  have hname : ∀ s : String, s.toList.head? ≠ some c → String.ofList ((c :: rest).map Char.toLower) ≠ s := by
    rintro s hs rfl
    rw [String.toList_ofList, List.map_cons, List.head?_cons, toLower_of_begins hc] at hs
    exact hs rfl
  have hletter : ∀ d : Char, d.isDigit = false → d ≠ '.' → some d ≠ some c := by
    rintro _ hdigit hpoint ⟨⟩
    rcases hc with hc | hc
    · exact Bool.false_ne_true (hdigit.symm.trans hc)
    · exact hpoint hc
  have hi := hletter 'i' rfl (by decide)
  have hn := hletter 'n' rfl (by decide)
  simp only [magnitudeOfText?]
  rw [if_neg (not_or.mpr ⟨hname "inf" hi, hname "infinity" hi⟩), if_neg (hname "nan" hn)]

theorem ofText?_of_begun (h : Begun cs) : ofText? cs = magnitudeOfText? false cs := by
  obtain ⟨c, rest, rfl, -⟩ := id h
  rw [ofText?]
  · rintro _ ⟨⟩
    exact h.ne_sign.1 rfl
  · rintro _ ⟨⟩
    exact h.ne_sign.2 rfl

/-- The digits of a numeral, as one number, and the exponent of their last place. -/
theorem magnitudeOfText?_of_magnitude (h : Magnitude cs q) : ∃ (m : Nat) (e : ℤ), q = m * 10 ^ e ∧
    ∀ negative, magnitudeOfText? negative cs = some (ofScientific negative m e) := by
  have hnamed := magnitudeOfText?_of_begun h.begun
  cases h with
  | @whole ds tail e hne hds htail =>
    refine ⟨value ds, e, rfl, fun negative => ?_⟩
    rw [hnamed, unsignedOfText?_whole hne hds htail]
  | @pointed ds ps tail e hne hds hps htail =>
    refine ⟨value (ds ++ ps), e - ps.length, rfl, fun negative => ?_⟩
    rw [hnamed, unsignedOfText?_pointed hne hds hps htail]

/-- The written form of an integer has no other digits than those of its magnitude. -/
theorem ofText?_ofInt (n : ℤ) :
    ofText? (Decimal.ofInt n).toList = some (ofScientific (decide (n < 0)) n.natAbs 0) := by
  have hbegun : Begun (digits n.natAbs) := (natural_digits n.natAbs).begun
  have hread : ∀ negative, magnitudeOfText? negative (digits n.natAbs) =
      some (ofScientific negative n.natAbs 0) := by
    intro negative
    have hwhole := unsignedOfText?_whole (digits_ne_nil n.natAbs) (fun _ => isDigit_of_mem_digits)
      .none negative
    rw [List.append_nil, value_digits] at hwhole
    rw [magnitudeOfText?_of_begun hbegun, hwhole]
  rw [Decimal.ofInt]
  split
  · rename_i hneg
    rw [decide_eq_true hneg, ← hread true, ofNat, String.toList_append, String.toList_ofList,
      String.toList_ofList]
    rfl
  · rename_i hnonneg
    rw [decide_eq_false hnonneg, ← hread false, ofNat, String.toList_ofList, ofText?_of_begun hbegun]

/-- The reader of floats takes every numeral, with its sign, its digits and its exponent. -/
theorem ofText?_of_spells (h : Spells cs q) : ∃ (negative : Bool) (m : Nat) (e : ℤ),
    |q| = m * 10 ^ e ∧ (q ≠ 0 → negative = decide (q < 0)) ∧
      ofText? cs = some (ofScientific negative m e) := by
  have hnonneg : ∀ (m : Nat) (e : ℤ), (0 : ℚ) ≤ m * 10 ^ e := fun m e => by positivity
  cases h with
  | plain h =>
    obtain ⟨m, e, rfl, hread⟩ := magnitudeOfText?_of_magnitude h
    refine ⟨false, m, e, abs_of_nonneg (hnonneg m e), fun _ => ?_, ?_⟩
    · exact (decide_eq_false (not_lt.mpr (hnonneg m e))).symm
    · rw [ofText?_of_begun h.begun, hread]
  | plus h =>
    obtain ⟨m, e, rfl, hread⟩ := magnitudeOfText?_of_magnitude h
    refine ⟨false, m, e, abs_of_nonneg (hnonneg m e), fun _ => ?_, hread false⟩
    exact (decide_eq_false (not_lt.mpr (hnonneg m e))).symm
  | minus h =>
    obtain ⟨m, e, rfl, hread⟩ := magnitudeOfText?_of_magnitude h
    refine ⟨true, m, e, ?_, fun hne => ?_, hread true⟩
    · rw [abs_neg, abs_of_nonneg (hnonneg m e)]
    · have hle : -((m : ℚ) * 10 ^ e) ≤ 0 := neg_nonpos.mpr (hnonneg m e)
      exact (decide_eq_true (lt_of_le_of_ne hle hne)).symm

end Double

end StoreQuery
