import StoreQuery.Proofs.Time.Counting
import StoreQuery.Proofs.Time.InstantText
/-!
What a timestamp in UTC looks like: the date of the day, the time of day, and the fraction of the second in
as few groups of three digits as are exact. What is written of an instant looks like that.
-/
namespace StoreQuery.Rfc3339

open Decimal

/-- So many digits, perhaps with zeros in front. -/
structure Numeral (width n : Nat) (cs : List Char) : Prop where
  length : cs.length = width
  digits : ∀ c ∈ cs, c.isDigit = true
  value : value cs = n

/-- Four digits, or more if they are needed; a year out of their range has a sign. -/
inductive YearForm (y : Int) : List Char → Prop where
  | mk {sign ds : List Char} :
      (0 ≤ y ∧ y ≤ 9999 ∧ sign = []) ∨ (9999 < y ∧ sign = ['+']) ∨ (y < 0 ∧ sign = ['-']) →
      Numeral ds.length y.natAbs ds → 4 ≤ ds.length →
      (4 < ds.length → 10 ^ (ds.length - 1) ≤ y.natAbs) → YearForm y (sign ++ ds)

/-- No fraction, or one of three, six or nine digits, where fewer would not be exact. -/
inductive FractionForm (nanos : Nat) : List Char → Prop where
  | none : nanos = 0 → FractionForm nanos []
  | some {places n : Nat} {ds : List Char} : places ∈ [3, 6, 9] → Numeral places n ds →
      n * 10 ^ (9 - places) = nanos → ¬ 10 ^ (9 - (places - 3)) ∣ nanos →
      FractionForm nanos ('.' :: ds)

structure Face where
  day : Int
  date : CivilDate
  hour : Nat
  minute : Nat
  second : Nat

structure Face.Of (f : Face) (t : Instant) : Prop where
  date : f.date.IsDay f.day
  hour : f.hour < 24
  minute : f.minute < 60
  second : f.second < 60
  seconds : t.seconds = 86400 * f.day + (3600 * f.hour + 60 * f.minute + f.second : Nat)

structure Parts where
  year : List Char
  month : List Char
  day : List Char
  hour : List Char
  minute : List Char
  second : List Char
  fraction : List Char

def Parts.text (p : Parts) : List Char :=
  p.year ++ '-' :: (p.month ++ '-' :: (p.day ++ 'T' :: (p.hour ++ ':' :: (p.minute ++ ':' ::
    (p.second ++ (p.fraction ++ ['Z']))))))

/-- A leap second is shown as the one after the second that it belongs to. -/
structure Parts.Show (p : Parts) (f : Face) (leap nanos : Nat) : Prop where
  year : YearForm f.date.year p.year
  month : Numeral 2 f.date.month p.month
  day : Numeral 2 f.date.day p.day
  hour : Numeral 2 f.hour p.hour
  minute : Numeral 2 f.minute p.minute
  second : Numeral 2 (f.second + leap) p.second
  fraction : FractionForm nanos p.fraction

def Timestamp (t : Instant) (s : String) : Prop :=
  ∃ (f : Face) (p : Parts), f.Of t ∧ p.Show f (t.nanos / 1000000000) (t.nanos % 1000000000) ∧
    s.toList = p.text

theorem numeral_padded {width n : Nat} (hwidth : 0 < width) (h : n < 10 ^ width) :
    Numeral width n (padded width n).toList where
  length := length_padded hwidth h
  digits _ := isDigit_of_mem_padded
  value := value_padded width n

theorem numeral_two {n : Nat} (h : n < 100) : Numeral 2 n (padded 2 n).toList :=
  numeral_padded Nat.two_pos h

theorem yearForm_yearText (y : Int) : YearForm y (yearText y).toList := by
  rw [yearText_toList]
  have hlength := length_padded_eq_max 4 y.natAbs
  apply YearForm.mk
  · rw [yearSign]
    split
    · rename_i hrange
      exact .inl ⟨hrange.1, hrange.2, rfl⟩
    · rename_i hrange
      split
      · rename_i hneg
        exact .inr (.inr ⟨hneg, rfl⟩)
      · rename_i hneg
        exact .inr (.inl ⟨by omega, rfl⟩)
  · exact ⟨rfl, fun _ => isDigit_of_mem_padded, value_padded 4 _⟩
  · omega
  · intro hlong
    have hpos : 0 < y.natAbs := by
      by_contra hzero
      rw [Nat.eq_zero_of_not_pos hzero] at hlong
      exact absurd hlong (by decide)
    have hbound := (length_digits_bounds y.natAbs).2 hpos
    have hlength : (Decimal.digits y.natAbs).length = (padded 4 y.natAbs).toList.length - 1 + 1 := by
      omega
    rw [hlength, Nat.pow_succ, Nat.mul_comm] at hbound
    exact Nat.le_of_mul_le_mul_left hbound (by decide)

theorem fractionForm_padded {places n nanos : Nat} (hplaces : places ∈ [3, 6, 9])
    (hlt : n < 10 ^ places) (hexact : n * 10 ^ (9 - places) = nanos)
    (hfewer : ¬ 10 ^ (9 - (places - 3)) ∣ nanos) :
    FractionForm nanos ("." ++ padded places n).toList := by
  have hpos : 0 < places := by
    simp only [List.mem_cons, List.not_mem_nil, or_false] at hplaces
    omega
  rw [String.toList_append]
  exact .some hplaces (numeral_padded hpos hlt) hexact hfewer

theorem fractionForm_fractionText {nanos : Nat} (h : nanos < 1000000000) :
    FractionForm nanos (fractionText nanos).toList := by
  rw [fractionText]
  split
  · rename_i hzero
    exact .none hzero
  · rename_i hzero
    split
    · rename_i hmillis
      refine fractionForm_padded (by decide) ?_ ?_ ?_
      · omega
      · omega
      · omega
    · rename_i hmillis
      split
      · rename_i hmicros
        refine fractionForm_padded (by decide) ?_ ?_ ?_
        · omega
        · omega
        · omega
      · rename_i hmicros
        refine fractionForm_padded (by decide) ?_ ?_ ?_
        · exact h
        · omega
        · omega

def Face.of (t : Instant) : Face :=
  ⟨t.seconds / 86400, t.date, t.secondOfDay / 3600, t.secondOfDay / 60 % 60, t.secondOfDay % 60⟩

theorem Face.of_spec (t : Instant) : (Face.of t).Of t := by
  have hsecond : t.secondOfDay < 86400 ∧ (t.secondOfDay : Int) = t.seconds % 86400 := by
    rw [Instant.secondOfDay]
    omega
  rw [Face.of]
  constructor
  · exact CivilDate.isDay_ofDays _
  · dsimp only
    omega
  · dsimp only
    omega
  · dsimp only
    omega
  · dsimp only
    omega

def Parts.of (f : Face) (leap nanos : Nat) : Parts where
  year := (yearText f.date.year).toList
  month := (padded 2 f.date.month).toList
  day := (padded 2 f.date.day).toList
  hour := (padded 2 f.hour).toList
  minute := (padded 2 f.minute).toList
  second := (padded 2 (f.second + leap)).toList
  fraction := (fractionText nanos).toList

theorem Face.Of.show_parts {f : Face} {t : Instant} (h : f.Of t) {leap nanos : Nat} (hleap : leap ≤ 1)
    (hnanos : nanos < 1000000000) : (Parts.of f leap nanos).Show f leap nanos := by
  obtain ⟨⟨⟨-, hmonth, -, hday⟩, -⟩, hhour, hminute, hsecond, -⟩ := h
  have hlast := CivilDate.daysInMonth_le f.date.year f.date.month
  constructor <;> dsimp only [Parts.of]
  · exact yearForm_yearText _
  · exact numeral_two (by omega)
  · exact numeral_two (by omega)
  · exact numeral_two (by omega)
  · exact numeral_two (by omega)
  · exact numeral_two (by omega)
  · exact fractionForm_fractionText hnanos

theorem toList_write (t : Instant) : (write .letter t).toList =
    (Parts.of (Face.of t) (t.nanos / 1000000000) (t.nanos % 1000000000)).text := by
  have hminus : "-".toList = ['-'] := rfl
  have hmiddle : "T".toList = ['T'] := rfl
  have hcolon : ":".toList = [':'] := rfl
  have hletter : "Z".toList = ['Z'] := rfl
  simp only [write, dateText, timeText, UtcSuffix.text, String.toList_append, List.append_assoc,
    hminus, hmiddle, hcolon, hletter, List.cons_append, List.nil_append, Parts.text, Parts.of, Face.of]

/-- An instant is written as a timestamp. -/
theorem timestamp_write (t : Instant) : Timestamp t (write .letter t) := by
  have hface := Face.of_spec t
  have hleap : t.nanos / 1000000000 ≤ 1 := by
    have hnanos := t.nanos_lt
    omega
  exact ⟨_, _, hface, hface.show_parts hleap (Nat.mod_lt _ (by decide)), toList_write t⟩

end StoreQuery.Rfc3339
