import StoreQuery.MapStore.Record
import StoreQuery.Proofs.Number.WholeText
import StoreQuery.Proofs.Time.InstantText
import StoreQuery.Proofs.Value.Numbers
/-!
Key texts and the order of values. Two keys have one text when they compare equal and the other way
round, apart from texts that spell the other key, the two zeros, floats that are not written with all
their digits next to integers, and leap seconds out of their place next to other instants.
-/
namespace StoreQuery

namespace Value

open Double (unit)

def OneText (a b : Value) : Prop := ¬(a.kind = .string ↔ b.kind = .string)

/-- Two zeros, of which one alone carries a minus sign. -/
structure OppositeZeros (a b : Value) : Prop where
  numbers : a.IsNumber ∧ b.IsNumber
  zeros : a.magnitude = 0 ∧ b.magnitude = 0
  signs : a.isNegative ≠ b.isNegative

/-- An integer, and a whole float that is not written with all its digits. -/
def Inexact : Value → Value → Prop
  | .integer _, .float x | .float x, .integer _ => x.Cut
  | _, _ => False

def Rounds : Value → Value → Prop
  | .integer n, .float x | .float x, .integer n =>
    x.roundingInterval.Holds (n.toInt.natAbs * (4 * unit)) 1 ∧ x.isNegative = decide (n.toInt < 0)
  | _, _ => False

/-- Two instants, of which one alone is a leap second out of its place. -/
def LeapBeside : Value → Value → Prop
  | .temporal t, .temporal u => ¬(t.Misplaced ↔ u.Misplaced)
  | _, _ => False

end Value

theorem Instant.compare_eq_iff {t u : Instant} : t.compare u = .eq ↔ t = u := by
  rw [Instant.compare, Ordering.then_eq_eq, Std.compare_eq_iff_eq, Std.compare_eq_iff_eq]
  constructor
  · rintro ⟨hseconds, hnanos⟩
    cases t
    cases u
    cases hseconds
    cases hnanos
    rfl
  · rintro rfl
    exact ⟨rfl, rfl⟩

namespace MapStore

open Double (unit exactLimit)

variable {a b : Value} {name s t : String}

theorem natAbs_toInt_le (n : Int64) : n.toInt.natAbs ≤ 2 ^ 64 := by
  have hlow := n.le_toInt
  have hhigh := n.toInt_lt
  omega

theorem text_ofInt_iff {x : Double} {n : Int64} (hx : x.isNaN = false) (hcut : ¬ x.Cut) :
    x.text = Decimal.ofInt n.toInt ↔
      (Value.float x).magnitude = (Value.integer n).magnitude ∧
        (Value.float x).isNegative = (Value.integer n).isNegative :=
  Double.text_eq_ofInt_iff hx hcut (natAbs_toInt_le n)

theorem ofInt_ofInt_iff {m n : Int64} : Decimal.ofInt m.toInt = Decimal.ofInt n.toInt ↔
    (Value.integer m).magnitude = (Value.integer n).magnitude ∧
      (Value.integer m).isNegative = (Value.integer n).isNegative := by
  constructor
  · intro h
    rw [Value.magnitude, Value.magnitude, Value.isNegative, Value.isNegative, Double.ofInt_injective h]
    exact ⟨rfl, rfl⟩
  · rintro ⟨hmagnitude, hsign⟩
    have habs : m.toInt.natAbs = n.toInt.natAbs := Nat.mul_right_cancel Double.unit_pos hmagnitude
    have hsame : m.toInt = n.toInt := by
      simp only [Value.isNegative, decide_eq_decide] at hsign
      omega
    rw [hsame]

theorem text_text_iff {x y : Double} (hx : x.isNaN = false) (hy : y.isNaN = false) : x.text = y.text ↔
    (Value.float x).magnitude = (Value.float y).magnitude ∧
      (Value.float x).isNegative = (Value.float y).isNegative := by
  constructor
  · intro h
    rw [Double.text_injective hx hy h]
    exact ⟨rfl, rfl⟩
  · rintro ⟨hmagnitude, hsign⟩
    rw [Double.eq_of_magnitudeBits hsign (Double.magnitudeBits_of_magnitude hmagnitude)]

/-- Apart from a float that is not written with all its digits next to an integer, the text of a number
tells its sign and its magnitude. -/
theorem keyText_numbers (ha : a.IsScalar) (hb : b.IsScalar) (hna : a.IsNumber) (hnb : b.IsNumber)
    (hexact : ¬ a.Inexact b) (hs : keyText name a = .ok s) (ht : keyText name b = .ok t) :
    s = t ↔ a.magnitude = b.magnitude ∧ a.isNegative = b.isNegative := by
  cases a with
  | integer m =>
    cases hs
    cases b with
    | integer n =>
      cases ht
      exact ofInt_ofInt_iff
    | float y =>
      cases ht
      rw [eq_comm, text_ofInt_iff hb hexact, eq_comm, @eq_comm Bool]
    | _ => exact hnb.elim
  | float x =>
    cases hs
    cases b with
    | integer n =>
      cases ht
      exact text_ofInt_iff ha hexact
    | float y =>
      cases ht
      exact text_text_iff ha hb
    | _ => exact hnb.elim
  | _ => exact hna.elim

theorem isNumeral_keyText {c : Char} (ha : a.IsScalar) (hna : a.IsNumber) (hs : keyText name a = .ok s)
    (hc : c ∈ s.toList) : Double.IsNumeral c := by
  cases a with
  | integer n =>
    cases hs
    exact Double.isNumeral_ofInt hc
  | float x =>
    cases hs
    exact Double.isNumeral_text ha hc
  | _ => exact hna.elim

theorem letter_mem_write (t : Instant) : 'Z' ∈ (Rfc3339.write .letter t).toList := by
  rw [Rfc3339.write, String.toList_append]
  exact List.mem_append_right _ List.mem_cons_self

/-- Two letters of a text tell what kind of key it is of, unless it is a text itself. -/
theorem rank_of_keyText (ha : a.IsScalar) (hkind : a.kind ≠ .string) (hs : keyText name a = .ok s) :
    a.kind.rank = if 'Z' ∈ s.toList then 3 else if 'e' ∈ s.toList then 0 else 1 := by
  have hnumber : a.IsNumber → 'Z' ∉ s.toList ∧ 'e' ∉ s.toList := fun hna =>
    ⟨fun h => Double.not_isNumeral_letter (.inl rfl) (isNumeral_keyText ha hna hs h),
      fun h => Double.not_isNumeral_letter (.inr rfl) (isNumeral_keyText ha hna hs h)⟩
  cases a with
  | integer n =>
    obtain ⟨hz, he⟩ := hnumber trivial
    rw [if_neg hz, if_neg he]
    rfl
  | float x =>
    obtain ⟨hz, he⟩ := hnumber trivial
    rw [if_neg hz, if_neg he]
    rfl
  | boolean b =>
    cases hs
    cases b <;> rfl
  | temporal t =>
    cases hs
    rw [if_pos (letter_mem_write t)]
    rfl
  | text s => exact (hkind rfl).elim
  | bytes bs => cases hs
  | sequence items => cases hs
  | entity e => cases hs

/-- What the texts of two keys say about the keys. -/
structure KeysTold (a b : Value) (s t : String) : Prop where
  equal : ¬ a.OneText b → ¬ a.OppositeZeros b → ¬ a.Inexact b → ¬ a.LeapBeside b →
    (s = t ↔ a.compare? b = some .eq)
  spelled : a.OneText b → a.compare? b = none
  zeros : a.OppositeZeros b → a.compare? b = some .eq ∧ s ≠ t
  large : a.Inexact b → exactLimit * unit < max a.magnitude b.magnitude
  rounded : a.Inexact b → s = t → a.Rounds b ∧ a.compare? b ≠ some .eq
  leapt : a.LeapBeside b → a.compare? b ≠ some .eq

theorem isNumber_of_rank (h : a.kind.rank = 1) : a.IsNumber := by
  cases a with
  | integer n => trivial
  | float x => trivial
  | _ => cases h

/-- Keys of one kind, numbers taken together. -/
theorem keyText_eq_iff_of_rank (ha : a.IsScalar) (hb : b.IsScalar) (hrank : a.kind.rank = b.kind.rank)
    (hzeros : ¬ a.OppositeZeros b) (hexact : ¬ a.Inexact b) (hleap : ¬ a.LeapBeside b)
    (hs : keyText name a = .ok s) (ht : keyText name b = .ok t) :
    s = t ↔ a.compare? b = some .eq := by
  by_cases hone : a.kind.rank = 1
  · have hna := isNumber_of_rank hone
    have hnb := isNumber_of_rank (hrank.symm.trans hone)
    rw [keyText_numbers ha hb hna hnb hexact hs ht, Value.compare?_numbers ha hb hna hnb]
    refine and_congr_right fun hmagnitude => ⟨fun hsign _ => hsign, fun hsign => ?_⟩
    by_cases hzero : a.magnitude = 0
    · by_contra hne
      exact hzeros ⟨⟨hna, hnb⟩, ⟨hzero, hmagnitude ▸ hzero⟩, hne⟩
    · exact hsign hzero
  · cases a with
    | text s =>
      cases b with
      | text t =>
        cases hs
        cases ht
        simp only [Value.compare?, Option.some_inj, Std.compare_eq_iff_eq]
      | _ => cases hrank
    | boolean x =>
      cases b with
      | boolean y =>
        cases hs
        cases ht
        cases x <;> cases y <;> decide
      | _ => cases hrank
    | temporal t =>
      cases b with
      | temporal u =>
        cases hs
        cases ht
        simp only [Value.compare?, Option.some_inj, Instant.compare_eq_iff]
        refine ⟨fun h => ?_, congrArg _⟩
        exact Instant.eq_of_shown (Decidable.not_not.mp hleap) (Rfc3339.write_eq_iff.mp h)
      | _ => cases hrank
    | integer n => exact (hone rfl).elim
    | float x => exact (hone rfl).elim
    | bytes bs => cases hs
    | sequence items => cases hs
    | entity e => cases hs

theorem kind_eq_string_iff : a.kind = .string ↔ a.kind.rank = 2 := by
  cases a <;> simp [Value.kind, Kind.rank]

theorem compare?_of_oneText (h : a.OneText b) : a.compare? b = none := by
  apply SortPlace.compare?_of_rank_ne
  intro hrank
  rw [Value.OneText, kind_eq_string_iff, kind_eq_string_iff, hrank] at h
  exact h Iff.rfl

theorem exists_cut (h : a.Inexact b) : ∃ x n, Double.Cut x ∧
    ((a = .integer n ∧ b = .float x) ∨ (a = .float x ∧ b = .integer n)) := by
  cases a with
  | integer n =>
    cases b with
    | float x => exact ⟨x, n, h, .inl ⟨rfl, rfl⟩⟩
    | _ => exact h.elim
  | float x =>
    cases b with
    | integer n => exact ⟨x, n, h, .inr ⟨rfl, rfl⟩⟩
    | _ => exact h.elim
  | _ => exact h.elim

theorem large_of_inexact (h : a.Inexact b) : exactLimit * unit < max a.magnitude b.magnitude := by
  obtain ⟨x, n, hcut, ⟨rfl, rfl⟩ | ⟨rfl, rfl⟩⟩ := exists_cut h
  · exact Nat.lt_of_lt_of_le hcut.large (Nat.le_max_right _ _)
  · exact Nat.lt_of_lt_of_le hcut.large (Nat.le_max_left _ _)

theorem not_inexact_of_zeros (h : a.OppositeZeros b) : ¬ a.Inexact b := by
  intro hexact
  have hlarge := large_of_inexact hexact
  rw [h.zeros.1, h.zeros.2] at hlarge
  exact Nat.not_lt_zero _ hlarge

/-- A float that is not written with all its digits is written like another number that rounds to it. -/
theorem rounds_of_text {x : Double} {n : Int64} (hx : x.isNaN = false) (hcut : x.Cut)
    (h : x.text = Decimal.ofInt n.toInt) : (Value.float x).Rounds (.integer n) ∧
      (Value.float x).magnitude ≠ (Value.integer n).magnitude := by
  obtain ⟨hsign, -, hholds⟩ := Double.holds_of_text hx h
  exact ⟨⟨hholds (Nat.ne_of_gt (Nat.zero_lt_of_lt hcut.large)), hsign⟩, hcut.ne_of_text hx h⟩

theorem rounds_of_keyText (ha : a.IsScalar) (hb : b.IsScalar) (hexact : a.Inexact b)
    (hs : keyText name a = .ok s) (ht : keyText name b = .ok t) (hsame : s = t) :
    a.Rounds b ∧ a.compare? b ≠ some .eq := by
  obtain ⟨x, n, hcut, ⟨rfl, rfl⟩ | ⟨rfl, rfl⟩⟩ := exists_cut hexact
  · cases hs
    cases ht
    obtain ⟨hrounds, hne⟩ := rounds_of_text hb hcut hsame.symm
    refine ⟨hrounds, fun hequal => hne ?_⟩
    exact ((Value.compare?_numbers ha hb trivial trivial).mp hequal).1.symm
  · cases hs
    cases ht
    obtain ⟨hrounds, hne⟩ := rounds_of_text ha hcut hsame
    refine ⟨hrounds, fun hequal => hne ?_⟩
    exact ((Value.compare?_numbers ha hb trivial trivial).mp hequal).1

theorem compare?_of_leapBeside (h : a.LeapBeside b) : a.compare? b ≠ some .eq := by
  cases a with
  | temporal t =>
    cases b with
    | temporal u =>
      simp only [Value.compare?, ne_eq, Option.some_inj, Instant.compare_eq_iff]
      rintro rfl
      exact h Iff.rfl
    | _ => exact h.elim
  | _ => exact h.elim

theorem keysTold (ha : a.IsScalar) (hb : b.IsScalar) (hs : keyText name a = .ok s)
    (ht : keyText name b = .ok t) : KeysTold a b s t := by
  constructor
  · intro hone hzeros hexact hleap
    by_cases hrank : a.kind.rank = b.kind.rank
    · exact keyText_eq_iff_of_rank ha hb hrank hzeros hexact hleap hs ht
    · have htexts := Decidable.not_not.mp hone
      have hna : a.kind ≠ .string := by
        intro h
        rw [h, htexts.mp h] at hrank
        exact hrank rfl
      have hnb : b.kind ≠ .string := fun h => hna (htexts.mpr h)
      rw [SortPlace.compare?_of_rank_ne hrank]
      refine ⟨fun h => ?_, nofun⟩
      rw [rank_of_keyText ha hna hs, rank_of_keyText hb hnb ht, h] at hrank
      exact (hrank rfl).elim
  · exact compare?_of_oneText
  · intro hzeros
    obtain ⟨hna, hnb⟩ := hzeros.numbers
    obtain ⟨hza, hzb⟩ := hzeros.zeros
    refine ⟨?_, fun hsame => ?_⟩
    · rw [Value.compare?_numbers ha hb hna hnb]
      exact ⟨hza.trans hzb.symm, fun h => absurd hza h⟩
    · exact hzeros.signs
        ((keyText_numbers ha hb hna hnb (not_inexact_of_zeros hzeros) hs ht).mp hsame).2
  · exact large_of_inexact
  · intro hexact hsame
    exact rounds_of_keyText ha hb hexact hs ht hsame
  · exact compare?_of_leapBeside

end MapStore

end StoreQuery
