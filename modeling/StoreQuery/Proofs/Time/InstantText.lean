import StoreQuery.Proofs.Number.Decimal
import StoreQuery.Proofs.Time.Calendar
import StoreQuery.Time.Rfc3339
/-!
The written text of an instant tells the instant, but for a leap second out of its place, which looks like
the next second. Every part of the text is told together with the place where it ends, from left to right.
-/
namespace StoreQuery

namespace Instant

/-- The instant that is seen in the written text: a misplaced leap second looks like the next second. -/
def shown (t : Instant) : Instant :=
  if h : t.Misplaced then
    { seconds := t.seconds + 1
      nanos := t.nanos - 1000000000
      in_range := by
        have hrange := t.in_range
        have hlast := h.2
        omega
      nanos_lt := Nat.lt_of_le_of_lt (Nat.sub_le _ _) t.nanos_lt }
  else t

variable {t u : Instant}

theorem shown_of_misplaced (h : t.Misplaced) :
    t.shown.seconds = t.seconds + 1 ∧ t.shown.nanos + 1000000000 = t.nanos := by
  rw [shown, dif_pos h]
  exact ⟨rfl, Nat.sub_add_cancel h.1⟩

theorem shown_of_not_misplaced (h : ¬ t.Misplaced) : t.shown = t := dif_neg h

theorem not_misplaced_shown (t : Instant) : ¬ t.shown.Misplaced := by
  by_cases h : t.Misplaced
  · have hnanos := t.nanos_lt
    have hshown := (shown_of_misplaced h).2
    intro hleap
    have hmore := hleap.1
    omega
  · rw [shown_of_not_misplaced h]
    exact h

theorem shown_ne (h : t.Misplaced) : t.shown ≠ t := by
  intro heq
  have hseconds := (shown_of_misplaced h).1
  rw [heq] at hseconds
  omega

theorem eq_of_fields (hseconds : t.seconds = u.seconds) (hnanos : t.nanos = u.nanos) : t = u := by
  cases t
  cases u
  cases hseconds
  cases hnanos
  rfl

/-- The text hides a misplaced leap second only from the second that it looks like. -/
theorem eq_of_shown (hplaced : t.Misplaced ↔ u.Misplaced) (h : t.shown = u.shown) : t = u := by
  by_cases ht : t.Misplaced
  · obtain ⟨hseconds, hnanos⟩ := shown_of_misplaced ht
    obtain ⟨hseconds', hnanos'⟩ := shown_of_misplaced (hplaced.mp ht)
    rw [h] at hseconds hnanos
    exact eq_of_fields (by omega) (by omega)
  · rwa [shown_of_not_misplaced ht, shown_of_not_misplaced (mt hplaced.mpr ht)] at h

end Instant

namespace Rfc3339

open Decimal

variable {rest other : List Char} {t u : Instant}

def yearSign (y : Int) : List Char :=
  if 0 ≤ y ∧ y ≤ 9999 then [] else if y < 0 then ['-'] else ['+']

theorem yearText_toList (y : Int) : (yearText y).toList = yearSign y ++ (padded 4 y.natAbs).toList := by
  rw [yearText, yearSign]
  by_cases hrange : 0 ≤ y ∧ y ≤ 9999
  · rw [if_pos hrange, if_pos hrange, List.nil_append, show y.toNat = y.natAbs by omega]
  · rw [if_neg hrange, if_neg hrange, String.toList_append]
    split <;> rfl

theorem isDigit_of_mem_yearSign {y : Int} {c : Char} (h : c ∈ yearSign y) : c.isDigit = false := by
  rw [yearSign] at h
  split at h
  · cases h
  · split at h <;> (rw [List.mem_singleton.mp h]; rfl)

theorem minus_mem_yearSign (y : Int) : '-' ∈ yearSign y ↔ y < 0 := by
  by_cases hrange : 0 ≤ y ∧ y ≤ 9999
  · rw [yearSign, if_pos hrange]
    exact ⟨fun h => absurd h List.not_mem_nil, fun h => by omega⟩
  · rw [yearSign, if_neg hrange]
    by_cases hneg : y < 0
    · rw [if_pos hneg]
      exact ⟨fun _ => hneg, fun _ => List.mem_cons_self⟩
    · rw [if_neg hneg]
      exact ⟨fun h => absurd (List.mem_singleton.mp h) (by decide), fun h => absurd h hneg⟩

theorem yearText_append_injective {y z : Int} (hrest : Stops rest) (hother : Stops other)
    (h : (yearText y).toList ++ rest = (yearText z).toList ++ other) : y = z ∧ rest = other := by
  rw [yearText_toList, yearText_toList, List.append_assoc, List.append_assoc] at h
  have hsign := congrArg (List.takeWhile fun c => !c.isDigit) h
  rw [takeWhile_sign fun _ hc => isDigit_of_mem_yearSign hc,
    takeWhile_sign fun _ hc => isDigit_of_mem_yearSign hc] at hsign
  rw [hsign] at h
  obtain ⟨habs, htail⟩ := padded_append_injective hrest hother (List.append_cancel_left h)
  have hneg : y < 0 ↔ z < 0 := by rw [← minus_mem_yearSign, hsign, minus_mem_yearSign]
  exact ⟨by omega, htail⟩

theorem fraction_padded {width m : Nat} (hwidth : 0 < width) (hnine : width ≤ 9) (h : m < 10 ^ width)
    (hrest : Stops rest) :
    fraction ('.' :: ((padded width m).toList ++ rest)) = .ok (m * 10 ^ (9 - width), rest) := by
  have hlength := length_padded hwidth h
  have hruns : ((padded width m).toList ++ rest).takeWhile Char.isDigit = (padded width m).toList :=
    takeWhile_digits (fun _ hc => isDigit_of_mem_padded hc) hrest
  have htail : ((padded width m).toList ++ rest).dropWhile Char.isDigit = rest :=
    dropWhile_digits (fun _ hc => isDigit_of_mem_padded hc) hrest
  have hne : (padded width m).toList ≠ [] := List.ne_nil_of_length_pos (by rw [hlength]; exact hwidth)
  simp only [fraction]
  rw [hruns, htail, if_neg (List.append_ne_nil_of_left_ne_nil hne _), if_neg hne,
    List.take_of_length_le (by rw [hlength]; exact hnine), hlength, value_padded]

theorem fraction_empty (hpoint : rest.head? ≠ some '.') : fraction rest = .ok (0, rest) := by
  rw [fraction]
  intro cs h
  rw [h] at hpoint
  exact hpoint rfl

/-- The fraction that is written reads back, and it ends at what is no digit. -/
theorem fraction_fractionText {nanos : Nat} (h : nanos < 1000000000) (hrest : Stops rest)
    (hpoint : rest.head? ≠ some '.') :
    fraction ((fractionText nanos).toList ++ rest) = .ok (nanos, rest) := by
  rw [fractionText]
  by_cases hzero : nanos = 0
  · rw [if_pos hzero, hzero]
    exact fraction_empty hpoint
  · rw [if_neg hzero]
    by_cases hmillis : nanos % 1000000 = 0
    · rw [if_pos hmillis, String.toList_append]
      refine (fraction_padded (by decide) (by decide) (by omega) hrest).trans ?_
      rw [show nanos / 1000000 * 10 ^ (9 - 3) = nanos by omega]
    · rw [if_neg hmillis]
      by_cases hmicros : nanos % 1000 = 0
      · rw [if_pos hmicros, String.toList_append]
        refine (fraction_padded (by decide) (by decide) (by omega) hrest).trans ?_
        rw [show nanos / 1000 * 10 ^ (9 - 6) = nanos by omega]
      · rw [if_neg hmicros, String.toList_append]
        refine (fraction_padded (by decide) (by decide) (by omega) hrest).trans ?_
        rw [show nanos * 10 ^ (9 - 9) = nanos by omega]

theorem stops_fractionText (nanos : Nat) (hrest : Stops rest) :
    Stops ((fractionText nanos).toList ++ rest) := by
  have hpoint : ∀ s : String, Stops (("." ++ s).toList ++ rest) := by
    intro s
    rw [String.toList_append]
    exact stops_cons rfl _
  rw [fractionText]
  split
  · exact hrest
  · split
    · exact hpoint _
    · split
      · exact hpoint _
      · exact hpoint _

theorem dateText_append_injective {d e : CivilDate} (hrest : Stops rest) (hother : Stops other)
    (h : (dateText d).toList ++ rest = (dateText e).toList ++ other) : d = e ∧ rest = other := by
  simp only [dateText, String.toList_append, List.append_assoc] at h
  have hminus : ∀ cs : List Char, Stops ("-".toList ++ cs) := stops_cons rfl
  obtain ⟨hyear, h⟩ := yearText_append_injective (hminus _) (hminus _) h
  obtain ⟨hmonth, h⟩ := padded_append_injective (hminus _) (hminus _) (List.append_cancel_left h)
  obtain ⟨hday, h⟩ := padded_append_injective hrest hother (List.append_cancel_left h)
  refine ⟨?_, h⟩
  cases d
  cases e
  cases hyear
  cases hmonth
  cases hday
  rfl

/-- The second of the day and the nanoseconds as the clock shows them. -/
theorem timeText_append_injective {second nanos second' nanos' : Nat} (hrest : Stops rest)
    (hother : Stops other) (hpoint : rest.head? ≠ some '.') (hpoint' : other.head? ≠ some '.')
    (h : (timeText second nanos).toList ++ rest = (timeText second' nanos').toList ++ other) :
    second / 60 = second' / 60 ∧
      second % 60 + nanos / 1000000000 = second' % 60 + nanos' / 1000000000 ∧
      nanos % 1000000000 = nanos' % 1000000000 ∧ rest = other := by
  simp only [timeText, String.toList_append, List.append_assoc] at h
  have hcolon : ∀ cs : List Char, Stops (":".toList ++ cs) := stops_cons rfl
  obtain ⟨hhour, h⟩ := padded_append_injective (hcolon _) (hcolon _) h
  obtain ⟨hminute, h⟩ := padded_append_injective (hcolon _) (hcolon _) (List.append_cancel_left h)
  obtain ⟨hsecond, h⟩ := padded_append_injective (stops_fractionText _ hrest)
    (stops_fractionText _ hother) (List.append_cancel_left h)
  have hread := congrArg fraction h
  rw [fraction_fractionText (Nat.mod_lt _ (by decide)) hrest hpoint,
    fraction_fractionText (Nat.mod_lt _ (by decide)) hother hpoint'] at hread
  obtain ⟨hnanos, htail⟩ := Prod.mk.inj (Except.ok.inj hread)
  exact ⟨by omega, hsecond, hnanos, htail⟩

/-- A misplaced leap second is in one minute with the second after it. -/
theorem write_shown (suffix : UtcSuffix) (t : Instant) : write suffix t.shown = write suffix t := by
  by_cases h : t.Misplaced
  · obtain ⟨hseconds, hnanos⟩ := Instant.shown_of_misplaced h
    have hlast := h.2
    have hlt := t.nanos_lt
    have hdate : t.shown.date = t.date := by
      rw [Instant.date, Instant.date, hseconds]
      congr 1
      omega
    have hsecond : t.shown.secondOfDay = t.secondOfDay + 1 := by
      rw [Instant.secondOfDay, Instant.secondOfDay, hseconds]
      omega
    have hminute : t.secondOfDay % 60 ≠ 59 := by
      rw [Instant.secondOfDay]
      omega
    have htime : timeText t.shown.secondOfDay t.shown.nanos = timeText t.secondOfDay t.nanos := by
      have hhour : (t.secondOfDay + 1) / 3600 = t.secondOfDay / 3600 := by omega
      have hminutes : (t.secondOfDay + 1) / 60 = t.secondOfDay / 60 := by omega
      have hclock : (t.secondOfDay + 1) % 60 + t.shown.nanos / 1000000000 =
          t.secondOfDay % 60 + t.nanos / 1000000000 := by omega
      have hfraction : t.shown.nanos % 1000000000 = t.nanos % 1000000000 := by omega
      rw [timeText, timeText, hsecond, hhour, hminutes, hclock, hfraction]
    rw [write, write, hdate, htime]
  · rw [Instant.shown_of_not_misplaced h]

/-- A leap second in its place is told from the second after it, as it is written as second 60. -/
theorem eq_of_write (ht : ¬ t.Misplaced) (hu : ¬ u.Misplaced)
    (h : write .letter t = write .letter u) : t = u := by
  have hletter : Stops UtcSuffix.letter.text.toList := stops_cons rfl []
  have hpoint : UtcSuffix.letter.text.toList.head? ≠ some '.' := by decide
  have hlist := congrArg String.toList h
  simp only [write, String.toList_append, List.append_assoc] at hlist
  have hmiddle : ∀ cs : List Char, Stops ("T".toList ++ cs) := stops_cons rfl
  obtain ⟨hdate, hlist⟩ := dateText_append_injective (hmiddle _) (hmiddle _) hlist
  obtain ⟨hminute, hsecond, hnanos, -⟩ :=
    timeText_append_injective hletter hletter hpoint hpoint (List.append_cancel_left hlist)
  have hday : t.seconds / 86400 = u.seconds / 86400 := by
    rw [← CivilDate.toDays_ofDays (t.seconds / 86400), ← CivilDate.toDays_ofDays (u.seconds / 86400)]
    exact congrArg CivilDate.toDays hdate
  have hlt := t.nanos_lt
  have hlt' := u.nanos_lt
  simp only [Instant.secondOfDay] at hminute hsecond
  simp only [Instant.Misplaced] at ht hu
  exact Instant.eq_of_fields (by omega) (by omega)

theorem write_eq_iff : write .letter t = write .letter u ↔ t.shown = u.shown := by
  rw [← write_shown, ← write_shown .letter u]
  exact ⟨eq_of_write t.not_misplaced_shown u.not_misplaced_shown, congrArg _⟩

end Rfc3339

end StoreQuery
