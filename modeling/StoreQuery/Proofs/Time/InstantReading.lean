import Mathlib.Data.String.Basic
import StoreQuery.Proofs.Step
import StoreQuery.Proofs.Time.InstantText
import StoreQuery.Proofs.Time.Millis
/-!
Instants read back from the text that is written of them. Each part of the text is read as what was
written, and leaves the rest; a year of more than four digits, or before the year 0, is refused. A leap
second out of its place is read as the second that it looks like.
-/
namespace StoreQuery

namespace Decimal

theorem width_le_length_padded (width n : Nat) : width ≤ (padded width n).toList.length := by
  rw [padded_toList, List.length_append, List.length_replicate]
  omega

end Decimal

/-- The years that are written without a sign. -/
def Instant.FourDigitYear (t : Instant) : Prop := 0 ≤ t.date.year ∧ t.date.year ≤ 9999

instance (t : Instant) : Decidable t.FourDigitYear := inferInstanceAs (Decidable (_ ∧ _))

namespace Rfc3339

open Decimal (padded padded_toList isDigit_of_mem_padded value_padded length_padded Stops stops_cons
  width_le_length_padded)

variable {rest : List Char} {d : CivilDate} {second nanos : Nat} {suffix : UtcSuffix} {t : Instant}

theorem digits_append {ds : List Char} (hds : ∀ c ∈ ds, c.isDigit = true) (acc : Nat) (rest : List Char) :
    digits ds.length acc (ds ++ rest) =
      .ok (ds.foldl (fun n c => 10 * n + Decimal.digitValue c) acc, rest) := by
  induction ds generalizing acc with
  | nil => rfl
  | cons c ds ih =>
    rw [List.forall_mem_cons] at hds
    rw [List.length_cons, List.cons_append, digits, if_pos hds.1, ih hds.2, List.foldl_cons]

theorem digits_padded {width n : Nat} (hwidth : 0 < width) (h : n < 10 ^ width) (rest : List Char) :
    digits width 0 ((padded width n).toList ++ rest) = .ok (n, rest) := by
  have hdigits : ∀ c ∈ (padded width n).toList, c.isDigit = true := fun _ => isDigit_of_mem_padded
  have hread := digits_append hdigits 0 rest
  rw [length_padded hwidth h] at hread
  rw [hread]
  exact congrArg (fun n => Except.ok (n, rest)) (value_padded width n)

theorem char_cons (c : Char) (rest : List Char) : char c (c :: rest) = .ok rest := if_pos rfl

/-- What is written of a date with a year of four digits. -/
theorem dateText_toList (hyear : 0 ≤ d.year ∧ d.year ≤ 9999) (rest : List Char) :
    (dateText d).toList ++ rest = (padded 4 d.year.toNat).toList ++
      '-' :: ((padded 2 d.month).toList ++ '-' :: ((padded 2 d.day).toList ++ rest)) := by
  simp only [dateText, yearText, if_pos hyear, String.toList_append, List.append_assoc]
  rfl

theorem date_dateText (hvalid : d.Valid) (hyear : 0 ≤ d.year ∧ d.year ≤ 9999) (rest : List Char) :
    date ((dateText d).toList ++ rest) = .ok (d, rest) := by
  have hfour : d.year.toNat < 10 ^ 4 := by omega
  have hmonth : d.month < 10 ^ 2 := Nat.lt_of_le_of_lt hvalid.2.1 (by decide)
  have hday : d.day < 10 ^ 2 :=
    Nat.lt_of_le_of_lt (Nat.le_trans hvalid.2.2.2 (CivilDate.daysInMonth_le _ _)) (by decide)
  have hdate : (⟨d.year.toNat, d.month, d.day⟩ : CivilDate) = d := by
    rw [Int.toNat_of_nonneg hyear.1]
  rw [dateText_toList hyear, date, digits_padded (by decide) hfour]
  simp only [ok_bind, char_cons, digits_padded Nat.two_pos hmonth, digits_padded Nat.two_pos hday, hdate]
  rw [if_pos hvalid]

/-- A year is read without a sign. -/
theorem date_signed (hyear : ¬ (0 ≤ d.year ∧ d.year ≤ 9999)) (rest : List Char) :
    date ((dateText d).toList ++ rest) = .error .invalid := by
  obtain ⟨c, tail, htext, hc⟩ : ∃ c tail, (dateText d).toList ++ rest = c :: tail ∧ c.isDigit = false := by
    simp only [dateText, yearText, if_neg hyear, String.toList_append, List.append_assoc]
    split
    · exact ⟨'-', _, rfl, rfl⟩
    · exact ⟨'+', _, rfl, rfl⟩
  rw [htext, date, digits, if_neg (by rw [hc]; exact Bool.false_ne_true)]
  rfl

theorem timeText_toList (second nanos : Nat) (rest : List Char) :
    (timeText second nanos).toList ++ rest = (padded 2 (second / 3600)).toList ++
      ':' :: ((padded 2 (second / 60 % 60)).toList ++
        ':' :: ((padded 2 (second % 60 + nanos / 1000000000)).toList ++
          ((fractionText (nanos % 1000000000)).toList ++ rest))) := by
  simp only [timeText, String.toList_append, List.append_assoc]
  rfl

/-- A leap second is read from second 60. -/
theorem time_timeText (hsecond : second < 86400) (hnanos : nanos < 2000000000)
    (hleap : 1000000000 ≤ nanos → second % 60 = 59) (hrest : Stops rest)
    (hpoint : rest.head? ≠ some '.') :
    time ((timeText second nanos).toList ++ rest) = .ok ((second, nanos), rest) := by
  have hhour : second / 3600 < 10 ^ 2 := by omega
  have hminute : second / 60 % 60 < 10 ^ 2 := by omega
  have hlast : second % 60 + nanos / 1000000000 < 10 ^ 2 := by omega
  have hfraction : nanos % 1000000000 < 1000000000 := Nat.mod_lt _ (by decide)
  rw [timeText_toList, time, digits_padded (by decide) hhour]
  simp only [ok_bind, char_cons, digits_padded Nat.two_pos hminute, digits_padded Nat.two_pos hlast,
    fraction_fractionText hfraction hrest hpoint]
  rw [if_pos (by omega)]
  have hclock : second / 3600 * 3600 + second / 60 % 60 * 60 + second % 60 = second := by omega
  by_cases hsixty : second % 60 + nanos / 1000000000 = 60
  · have hleap : second % 60 = 59 := hleap (by omega)
    have hnano : nanos % 1000000000 + 1000000000 = nanos := by omega
    rw [if_pos hsixty, hnano, ← hleap, hclock]
  · have hnano : nanos < 1000000000 := by
      by_contra hmore
      have hleap := hleap (by omega)
      omega
    rw [if_neg hsixty, Nat.div_eq_of_lt hnano, Nat.mod_eq_of_lt hnano, Nat.add_zero, hclock]

theorem separator_middle (rest : List Char) : separator ('T' :: rest) = .ok rest := by
  rw [separator, if_pos (.inl rfl)]

theorem offset_suffix (suffix : UtcSuffix) : offset suffix.text.toList = .ok (0, []) := by
  cases suffix <;> rfl

theorem length_le_utf8ByteSize (s : String) : s.toList.length ≤ s.utf8ByteSize := by
  have hbytes (cs : List Char) : cs.length ≤ String.utf8Len cs := by
    induction cs with
    | nil => exact Nat.le_refl 0
    | cons c cs ih =>
      rw [String.utf8Len_cons]
      exact Nat.add_le_add ih c.utf8Size_pos
  rw [← String.ofList_toList (s := s), String.utf8ByteSize_ofList, String.toList_ofList]
  exact hbytes s.toList

theorem utf8ByteSize_write (suffix : UtcSuffix) (t : Instant) : 19 ≤ (write suffix t).utf8ByteSize := by
  refine Nat.le_trans ?_ (length_le_utf8ByteSize _)
  have hyear := width_le_length_padded 4 t.date.year.natAbs
  have hmonth := width_le_length_padded 2 t.date.month
  have hday := width_le_length_padded 2 t.date.day
  have hhour := width_le_length_padded 2 (t.secondOfDay / 3600)
  have hminute := width_le_length_padded 2 (t.secondOfDay / 60 % 60)
  have hsecond := width_le_length_padded 2 (t.secondOfDay % 60 + t.nanos / 1000000000)
  have hminus : "-".toList.length = 1 := rfl
  have hmiddle : "T".toList.length = 1 := rfl
  have hcolon : ":".toList.length = 1 := rfl
  simp only [write, dateText, timeText, String.toList_append, yearText_toList, List.length_append, hminus,
    hmiddle, hcolon]
  omega

theorem shown_fourDigitYear (t : Instant) : t.shown.FourDigitYear ↔ t.FourDigitYear := by
  by_cases h : t.Misplaced
  · have hday : t.shown.seconds / 86400 = t.seconds / 86400 := by
      have hseconds := (Instant.shown_of_misplaced h).1
      have hlast := h.2
      omega
    rw [Instant.FourDigitYear, Instant.FourDigitYear, Instant.date, Instant.date, hday]
  · rw [Instant.shown_of_not_misplaced h]

/-- Text is refused if its year has a sign, and else it is read as the instant that it shows. -/
theorem read_write_of_placed (suffix : UtcSuffix) (h : ¬ t.Misplaced) :
    read (write suffix t) = if t.FourDigitYear then .ok t else .error .invalid := by
  have htext : (write suffix t).toList = (dateText t.date).toList ++
      'T' :: ((timeText t.secondOfDay t.nanos).toList ++ suffix.text.toList) := by
    rw [write, String.toList_append, String.toList_append, String.toList_append, List.append_assoc,
      List.append_assoc, show "T".toList = ['T'] from rfl, List.singleton_append]
  have hsize := utf8ByteSize_write suffix t
  rw [read, if_neg (by omega), htext]
  by_cases hyear : t.FourDigitYear
  · have hday : t.secondOfDay < 86400 := by
      rw [Instant.secondOfDay]
      omega
    have hleap : 1000000000 ≤ t.nanos → t.secondOfDay % 60 = 59 := by
      intro hnanos
      have hlast : t.seconds % 60 = 59 := Decidable.not_not.mp fun hlast => h ⟨hnanos, hlast⟩
      rw [Instant.secondOfDay]
      omega
    have hstops : Stops suffix.text.toList ∧ suffix.text.toList.head? ≠ some '.' := by
      cases suffix with
      | zero => exact ⟨stops_cons rfl _, by decide⟩
      | letter => exact ⟨stops_cons rfl _, by decide⟩
    have hseconds : t.date.toDays * 86400 + t.secondOfDay - 0 = t.seconds := by
      rw [Instant.date, CivilDate.toDays_ofDays, Instant.secondOfDay]
      omega
    have hvalid : t.date.Valid := CivilDate.valid_ofDays _
    rw [if_pos hyear, date_dateText hvalid hyear]
    simp only [ok_bind, separator_middle, time_timeText hday t.nanos_lt hleap hstops.1 hstops.2,
      offset_suffix, hseconds, Instant.of?_eq_some h]
    rfl
  · rw [if_neg hyear, date_signed hyear]
    rfl

theorem read_write (suffix : UtcSuffix) (t : Instant) :
    read (write suffix t) = if t.FourDigitYear then .ok t.shown else .error .invalid := by
  rw [← write_shown, read_write_of_placed suffix t.not_misplaced_shown]
  exact if_congr (shown_fourDigitYear t) rfl rfl

end Rfc3339

end StoreQuery
