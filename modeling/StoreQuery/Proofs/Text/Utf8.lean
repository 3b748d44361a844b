import Mathlib.Tactic.SplitIfs
import StoreQuery.Number.Power
/-!
The order of texts is that of their UTF-8 bytes. The first character in which two texts differ decides
both orders: a longer encoding begins with a greater byte, and encodings of one length spell their
characters digit by digit.
-/
namespace StoreQuery.Utf8

def bytes (s : String) : List UInt8 := s.toByteArray.data.toList

def trailers (n : Nat) : Nat :=
  if n ≤ 0x7f then 0 else if n ≤ 0x7ff then 1 else if n ≤ 0xffff then 2 else 3

/-- What the first byte holds apart from digits tells how many bytes follow. -/
def marker : Nat → Nat
  | 0 => 0
  | 1 => 0xc0
  | 2 => 0xe0
  | _ => 0xf0

def leading (n : Nat) : Nat := marker (trailers n) + n / 64 ^ trailers n

/-- The bytes behind the first, each with a digit to the base 64. -/
def trailing (n : Nat) : Nat → List UInt8
  | 0 => []
  | k + 1 => UInt8.ofNat (0x80 + n / 64 ^ k % 64) :: trailing n k

variable {m n : Nat} {l r : List UInt8}

theorem bytes_eq (s : String) : bytes s = s.toList.flatMap String.utf8EncodeChar := by
  rw [bytes, ← String.utf8Encode_toList, List.utf8Encode, List.toList_data_toByteArray]

theorem toNat_lt (c : Char) : c.toNat < 0x110000 := by
  have hvalid := c.valid
  simp only [UInt32.isValidChar, Nat.isValidChar] at hvalid
  rw [Char.toNat]
  omega

theorem utf8EncodeChar_eq (c : Char) :
    String.utf8EncodeChar c = UInt8.ofNat (leading c.toNat) :: trailing c.toNat (trailers c.toNat) := by
  have hlast := toNat_lt c
  have hval : c.val.toNat = c.toNat := rfl
  simp only [String.utf8EncodeChar, hval]
  generalize c.toNat = n at hlast
  unfold leading trailers
  split_ifs with hone htwo hthree
  · simp [trailing, marker]
  · have hmod : n / 64 % 32 = n / 64 := by omega
    simp [trailing, marker, hmod, UInt8.add_comm]
  · have hmod : n / 4096 % 16 = n / 4096 := by omega
    simp [trailing, marker, hmod, UInt8.add_comm]
  · have hmod : n / 262144 % 8 = n / 262144 := by omega
    simp [trailing, marker, hmod, UInt8.add_comm]

theorem leading_lt (h : n < 0x110000) : leading n < 256 := by
  unfold leading trailers
  split_ifs <;> simp only [marker] <;> omega

/-- The characters with a longer encoding are the greater ones, and begin with a greater byte. -/
theorem leading_lt_leading (h : m < n) (htrailers : trailers m ≠ trailers n) :
    leading m < leading n := by
  unfold leading trailers at *
  split_ifs at htrailers ⊢ <;> simp only [marker] <;> omega

/-- The first byte that differs decides. -/
theorem cons_lt_cons (hn : n < 256) (h : m < n ∨ m = n ∧ l < r) :
    UInt8.ofNat m :: l < UInt8.ofNat n :: r := by
  rw [List.cons_lt_cons_iff]
  rcases h with hlt | ⟨rfl, hrest⟩
  · left
    rw [UInt8.lt_iff_toNat_lt, UInt8.toNat_ofNat_of_lt' hn,
      UInt8.toNat_ofNat_of_lt' (Nat.lt_trans hlt hn)]
    exact hlt
  · exact .inr ⟨rfl, hrest⟩

/-- Of two numbers either the higher digits decide, or they are the same and the lower ones do. -/
theorem div_lt_or_mod_lt (h : m < n) (p : Nat) : m / p < n / p ∨ m / p = n / p ∧ m % p < n % p := by
  rcases Nat.lt_or_eq_of_le (Nat.div_le_div_right (c := p) (Nat.le_of_lt h)) with hlt | heq
  · exact .inl hlt
  · have hm := Nat.div_add_mod m p
    have hn := Nat.div_add_mod n p
    rw [heq] at hm
    exact .inr ⟨heq, by omega⟩

theorem trailing_lt {k : Nat} (h : m % 64 ^ k < n % 64 ^ k) : trailing m k ++ l < trailing n k ++ r := by
  induction k with
  | zero => omega
  | succ k ih =>
    have hdigit := div_lt_or_mod_lt h (64 ^ k)
    rw [Nat.pow_succ, Nat.mod_mul_right_div_self, Nat.mod_mul_right_div_self, Nat.mod_mul_right_mod,
      Nat.mod_mul_right_mod] at hdigit
    apply cons_lt_cons (by omega)
    rcases hdigit with hlt | ⟨heq, hrest⟩
    · exact .inl (by omega)
    · exact .inr ⟨by rw [heq], ih hrest⟩

theorem utf8EncodeChar_append_lt {c d : Char} (h : c < d) (l r : List UInt8) :
    String.utf8EncodeChar c ++ l < String.utf8EncodeChar d ++ r := by
  have hlt : c.toNat < d.toNat := UInt32.lt_iff_toNat_lt.mp h
  rw [utf8EncodeChar_eq, utf8EncodeChar_eq]
  apply cons_lt_cons (leading_lt (toNat_lt d))
  by_cases htrailers : trailers c.toNat = trailers d.toNat
  · rw [leading, leading, htrailers]
    rcases div_lt_or_mod_lt hlt (64 ^ trailers d.toNat) with hfirst | ⟨heq, hrest⟩
    · exact .inl (by omega)
    · exact .inr ⟨by rw [heq], trailing_lt hrest⟩
  · exact .inl (leading_lt_leading hlt htrailers)

theorem bytes_lt {s t : String} (h : s < t) : bytes s < bytes t := by
  rw [bytes_eq, bytes_eq]
  have hchars : s.toList < t.toList := h
  generalize s.toList = cs at hchars
  generalize t.toList = ds at hchars
  induction hchars with
  | @nil d ds =>
    rw [List.flatMap_nil, List.flatMap_cons, utf8EncodeChar_eq]
    exact List.nil_lt_cons _ _
  | rel hcd => exact utf8EncodeChar_append_lt hcd _ _
  | cons _ ih => exact List.append_left_lt ih

end StoreQuery.Utf8
