import Mathlib.Data.Nat.Digits.Defs
import StoreQuery.Number.Decimal
/-!
Decimal digits. What is written of a number reads back as that number, also behind zeros and in front of
what is no digit.
-/
namespace StoreQuery.Decimal

variable {width m n : Nat} {rest other : List Char}

theorem isDigit_of_mem_digits {n : Nat} {c : Char} (h : c ∈ digits n) : c.isDigit = true :=
  Nat.isDigit_of_mem_toDigits (by omega) (by omega) h

theorem digits_ne_nil (n : Nat) : digits n ≠ [] := Nat.toDigits_ne_nil

theorem value_digits (n : Nat) : value (digits n) = n :=
  Nat.ofDigitChars_toDigits (b := 10) (by omega) (by omega)

theorem nat?_digits (n : Nat) : nat? (digits n) = some n := by
  have hall : (digits n).all Char.isDigit = true :=
    List.all_eq_true.mpr fun _ hc => isDigit_of_mem_digits hc
  rw [nat?, if_pos ⟨digits_ne_nil n, hall⟩, value_digits]

/-- The number of digits bounds the number. -/
theorem length_digits_bounds (n : Nat) :
    n < 10 ^ (digits n).length ∧ (0 < n → 10 ^ (digits n).length ≤ 10 * n) := by
  have hpos : 0 < (digits n).length := List.length_pos_iff.mpr (digits_ne_nil n)
  have hbound : ∀ k, 0 < k → ((digits n).length ≤ k ↔ n < 10 ^ k) := fun k hk =>
    Nat.length_toDigits_le_iff (by decide) hk
  refine ⟨(hbound _ hpos).mp (Nat.le_refl _), fun hn => ?_⟩
  obtain ⟨k, hk⟩ := Nat.exists_eq_add_one.mpr hpos
  rw [hk, Nat.pow_succ, Nat.mul_comm]
  apply Nat.mul_le_mul_left
  rcases Nat.eq_zero_or_pos k with rfl | hk'
  · exact hn
  · exact Nat.not_lt.mp fun hlt => absurd ((hbound k hk').mpr hlt) (by omega)

theorem digits_injective {m n : Nat} (h : digits m = digits n) : m = n := by
  rw [← value_digits m, h, value_digits]

theorem value_append_zeros (cs : List Char) (k : Nat) :
    value (cs ++ List.replicate k '0') = value cs * 10 ^ k := by
  have happend : value (cs ++ List.replicate k '0') =
      Nat.ofDigitChars 10 (List.replicate k '0') (value cs) := Nat.ofDigitChars_append 0
  rw [happend, Nat.ofDigitChars_replicate_zero, Nat.mul_comm]

theorem value_zeros_append (k : Nat) (cs : List Char) :
    value (List.replicate k '0' ++ cs) = value cs := by
  have happend : value (List.replicate k '0' ++ cs) =
      Nat.ofDigitChars 10 cs (Nat.ofDigitChars 10 (List.replicate k '0') 0) :=
    Nat.ofDigitChars_append 0
  rw [happend, Nat.ofDigitChars_replicate_zero]
  rfl

/-- A power of ten adds zeros behind. -/
theorem digits_mul_pow {n : Nat} (h : 0 < n) (k : Nat) :
    digits (n * 10 ^ k) = digits n ++ List.replicate k '0' := by
  induction k with
  | zero => simp
  | succ k ih =>
    have hstep := Nat.toDigits_append_toDigits (b := 10) (n := n * 10 ^ k) (d := 0) (by omega)
      (Nat.mul_pos h (Nat.pow_pos (by omega))) (by omega)
    have hpower : 10 * (n * 10 ^ k) + 0 = n * 10 ^ (k + 1) := by
      rw [Nat.pow_succ, Nat.add_zero, Nat.mul_comm, Nat.mul_assoc]
    rw [hpower] at hstep
    rw [List.replicate_succ', ← List.append_assoc, ← ih]
    exact hstep.symm

def Stops (cs : List Char) : Prop := ∀ c ∈ cs.head?, c.isDigit = false

theorem stops_cons {c : Char} (h : c.isDigit = false) (cs : List Char) : Stops (c :: cs) := by
  rintro _ ⟨rfl⟩
  exact h

theorem takeWhile_digits {ds : List Char} (hds : ∀ c ∈ ds, c.isDigit = true) (hrest : Stops rest) :
    (ds ++ rest).takeWhile Char.isDigit = ds := by
  rw [List.takeWhile_append_of_pos hds]
  cases rest with
  | nil => rw [List.takeWhile_nil, List.append_nil]
  | cons c cs =>
    rw [List.takeWhile_cons_of_neg (by rw [hrest c rfl]; exact Bool.false_ne_true), List.append_nil]

/-- What is behind the digits begins where they end. -/
theorem dropWhile_digits {ds : List Char} (hds : ∀ c ∈ ds, c.isDigit = true) (hrest : Stops rest) :
    (ds ++ rest).dropWhile Char.isDigit = rest := by
  have hsplit := List.takeWhile_append_dropWhile (p := Char.isDigit) (l := ds ++ rest)
  rw [takeWhile_digits hds hrest] at hsplit
  exact List.append_cancel_left hsplit

theorem padded_toList (width n : Nat) :
    (padded width n).toList = List.replicate (width - (digits n).length) '0' ++ digits n :=
  String.toList_ofList

theorem isDigit_of_mem_padded {c : Char} (h : c ∈ (padded width n).toList) : c.isDigit = true := by
  rw [padded_toList] at h
  rcases List.mem_append.mp h with hzero | hdigit
  · rw [List.eq_of_mem_replicate hzero]
    rfl
  · exact isDigit_of_mem_digits hdigit

theorem value_padded (width n : Nat) : value (padded width n).toList = n := by
  rw [padded_toList, value_zeros_append, value_digits]

theorem length_padded_eq_max (width n : Nat) :
    (padded width n).toList.length = max width (digits n).length := by
  rw [padded_toList, List.length_append, List.length_replicate]
  omega

theorem length_padded (hwidth : 0 < width) (h : n < 10 ^ width) :
    (padded width n).toList.length = width := by
  have hle : (digits n).length ≤ width := Nat.toDigits_length 10 n width hwidth h
  rw [length_padded_eq_max, Nat.max_eq_left hle]

theorem padded_append_injective (hrest : Stops rest) (hother : Stops other)
    (h : (padded width m).toList ++ rest = (padded width n).toList ++ other) : m = n ∧ rest = other := by
  have hruns := congrArg (List.takeWhile Char.isDigit) h
  rw [takeWhile_digits (fun _ hc => isDigit_of_mem_padded hc) hrest,
    takeWhile_digits (fun _ hc => isDigit_of_mem_padded hc) hother] at hruns
  refine ⟨?_, ?_⟩
  · rw [← value_padded width m, hruns, value_padded]
  · rw [hruns] at h
    exact List.append_cancel_left h

/-- What is in front of the digits ends where they begin. -/
theorem takeWhile_sign {sign : List Char} (hsign : ∀ c ∈ sign, c.isDigit = false) :
    (sign ++ ((padded width n).toList ++ rest)).takeWhile (fun c => !c.isDigit) = sign := by
  have hne : (padded width n).toList ≠ [] := by
    rw [padded_toList]
    exact List.append_ne_nil_of_right_ne_nil _ (digits_ne_nil n)
  obtain ⟨d, ds, hds⟩ := List.exists_cons_of_ne_nil hne
  have hdigit : d.isDigit = true := isDigit_of_mem_padded (by rw [hds]; exact List.mem_cons_self)
  rw [List.takeWhile_append_of_pos fun c hc => by rw [hsign c hc]; rfl, hds, List.cons_append,
    List.takeWhile_cons_of_neg (by rw [hdigit]; exact Bool.false_ne_true), List.append_nil]

end StoreQuery.Decimal
