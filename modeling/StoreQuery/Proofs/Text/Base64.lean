import Mathlib.Data.List.Basic
import StoreQuery.Text.Base64
/-!
A decoder for base64 text in the standard alphabet: every group is full, padding stands at the end only,
and what it leaves of the last symbol is zero. It accepts exactly the text that is written of some bytes,
and gives these bytes.
-/
namespace StoreQuery.Text.Base64

def alphabet : List Char :=
  "ABCDEFGHIJKLMNOPQRSTUVWXYZabcdefghijklmnopqrstuvwxyz0123456789+/".toList

def sextet? (c : Char) : Option Nat := alphabet.idxOf? c

def decode? : List Char → Option (List UInt8)
  | [] => some []
  | a :: b :: c :: d :: rest => do
    let first ← sextet? a
    let second ← sextet? b
    if c = '=' ∧ d = '=' ∧ rest = [] then
      if second % 16 = 0 then some [.ofNat (first * 4 + second / 16)] else none
    else
      let third ← sextet? c
      if d = '=' ∧ rest = [] then
        if third % 4 = 0 then
          some [.ofNat (first * 4 + second / 16), .ofNat (second % 16 * 16 + third / 4)]
        else none
      else
        let fourth ← sextet? d
        let bytes ← decode? rest
        return .ofNat (first * 4 + second / 16) :: .ofNat (second % 16 * 16 + third / 4) ::
          .ofNat (third % 4 * 64 + fourth) :: bytes
  | _ => none

variable {c : Char} {n : Nat} {cs : List Char} {bs : List UInt8}

theorem alphabet_getElem? : ∀ n < 64, alphabet[n]? = some (symbol n) := by decide +kernel

theorem nodup_alphabet : alphabet.Nodup := by decide +kernel

theorem sextet?_eq_some_iff : sextet? c = some n ↔ n < 64 ∧ symbol n = c := by
  have hlength : alphabet.length = 64 := by decide +kernel
  have hget : alphabet[n]? = some c ↔ n < 64 ∧ symbol n = c := by
    by_cases hn : n < 64
    · rw [alphabet_getElem? n hn, Option.some_inj, and_iff_right hn]
    · rw [List.getElem?_eq_none (by omega)]
      simp [hn]
  rw [← hget, sextet?, List.idxOf?_eq_some_iff, List.getElem?_eq_some_iff]
  refine exists_congr fun hn => and_iff_left_of_imp ?_
  rintro rfl k hk heq
  have hsame : alphabet[k]? = alphabet[n]? := by
    rw [List.getElem?_eq_getElem hn, List.getElem?_eq_getElem (Nat.lt_trans hk hn), heq]
  exact absurd ((List.getElem?_inj (Nat.lt_trans hk hn) nodup_alphabet).mp hsame) (by omega)

theorem sextet?_symbol (h : n < 64) : sextet? (symbol n) = some n :=
  sextet?_eq_some_iff.mpr ⟨h, rfl⟩

theorem symbol_ne_padding : ∀ n < 64, symbol n ≠ '=' := by decide +kernel

theorem ofNat_eq {a : UInt8} (h : n = a.toNat) : UInt8.ofNat n = a := by
  rw [h, UInt8.ofNat_toNat]

theorem decode?_encode (bs : List UInt8) : decode? (encode bs) = some bs := by
  induction bs using encode.induct with
  | case1 => rfl
  | case2 a =>
    have ha := a.toNat_lt
    simp only [encode, decode?]
    rw [sextet?_symbol (by omega), sextet?_symbol (by omega)]
    simp only [Option.bind_eq_bind, Option.bind_some, and_self, if_true]
    rw [if_pos (by omega), ofNat_eq (a := a) (by omega)]
  | case3 a b =>
    have ha := a.toNat_lt
    have hb := b.toNat_lt
    simp only [encode, decode?]
    rw [sextet?_symbol (by omega), sextet?_symbol (by omega), sextet?_symbol (by omega)]
    simp only [Option.bind_eq_bind, Option.bind_some, and_self, if_true]
    rw [if_neg fun h => symbol_ne_padding _ (by omega) h.1, if_pos (by omega),
      ofNat_eq (a := a) (by omega), ofNat_eq (a := b) (by omega)]
  | case4 a b c rest ih =>
    have ha := a.toNat_lt
    have hb := b.toNat_lt
    have hc := c.toNat_lt
    simp only [encode, decode?]
    rw [sextet?_symbol (by omega), sextet?_symbol (by omega), sextet?_symbol (by omega),
      sextet?_symbol (by omega), ih]
    simp only [Option.bind_eq_bind, Option.bind_some]
    rw [if_neg fun h => symbol_ne_padding _ (by omega) h.1,
      if_neg fun h => symbol_ne_padding _ (by omega) h.1, ofNat_eq (a := a) (by omega),
      ofNat_eq (a := b) (by omega), ofNat_eq (a := c) (by omega)]
    rfl

theorem toNat_ofNat (h : n < 256) : (UInt8.ofNat n).toNat = n := UInt8.toNat_ofNat_of_lt' h

section

variable {x y z w : Nat}

theorem encode_one (hx : x < 64) (hy : y < 64) (hzero : y % 16 = 0) :
    encode [.ofNat (x * 4 + y / 16)] = [symbol x, symbol y, '=', '='] := by
  have hhigh : (x * 4 + y / 16) * 16 / 64 = x := by omega
  have hlow : (x * 4 + y / 16) * 16 % 64 = y := by omega
  rw [encode, toNat_ofNat (by omega), hhigh, hlow]

theorem encode_two (hx : x < 64) (hy : y < 64) (hz : z < 64) (hzero : z % 4 = 0) :
    encode [.ofNat (x * 4 + y / 16), .ofNat (y % 16 * 16 + z / 4)] =
      [symbol x, symbol y, symbol z, '='] := by
  have hbits : ((x * 4 + y / 16) * 256 + (y % 16 * 16 + z / 4)) * 4 = x * 4096 + y * 64 + z := by omega
  have hhigh : (x * 4096 + y * 64 + z) / 4096 = x := by omega
  have hmiddle : (x * 4096 + y * 64 + z) / 64 % 64 = y := by omega
  have hlow : (x * 4096 + y * 64 + z) % 64 = z := by omega
  rw [encode, toNat_ofNat (by omega), toNat_ofNat (by omega), hbits, hhigh, hmiddle, hlow]

theorem encode_three (hx : x < 64) (hy : y < 64) (hz : z < 64) (hw : w < 64) (bs : List UInt8) :
    encode (.ofNat (x * 4 + y / 16) :: .ofNat (y % 16 * 16 + z / 4) :: .ofNat (z % 4 * 64 + w) :: bs) =
      symbol x :: symbol y :: symbol z :: symbol w :: encode bs := by
  have hbits : ((x * 4 + y / 16) * 256 + (y % 16 * 16 + z / 4)) * 256 + (z % 4 * 64 + w) =
      x * 262144 + y * 4096 + z * 64 + w := by omega
  have hfirst : (x * 262144 + y * 4096 + z * 64 + w) / 262144 = x := by omega
  have hsecond : (x * 262144 + y * 4096 + z * 64 + w) / 4096 % 64 = y := by omega
  have hthird : (x * 262144 + y * 4096 + z * 64 + w) / 64 % 64 = z := by omega
  have hfourth : (x * 262144 + y * 4096 + z * 64 + w) % 64 = w := by omega
  rw [encode, toNat_ofNat (by omega), toNat_ofNat (by omega), toNat_ofNat (by omega), hbits, hfirst,
    hsecond, hthird, hfourth]

end

/-- The bits that padding leaves over are zero, so nothing is lost of the text. -/
theorem encode_of_decode? (h : decode? cs = some bs) : encode bs = cs := by
  induction cs using decode?.induct generalizing bs with
  | case1 =>
    cases h
    rfl
  | case2 a b c d rest ih =>
    simp only [decode?, Option.bind_eq_bind, Option.bind_eq_some_iff] at h
    obtain ⟨x, hfirst, y, hsecond, h⟩ := h
    obtain ⟨hx, rfl⟩ := sextet?_eq_some_iff.mp hfirst
    obtain ⟨hy, rfl⟩ := sextet?_eq_some_iff.mp hsecond
    split at h
    · rename_i hpadding
      obtain ⟨rfl, rfl, rfl⟩ := hpadding
      split at h
      · rename_i hzero
        cases h
        exact encode_one hx hy hzero
      · cases h
    · simp only [Option.bind_eq_some_iff] at h
      obtain ⟨z, hthird, h⟩ := h
      obtain ⟨hz, rfl⟩ := sextet?_eq_some_iff.mp hthird
      split at h
      · rename_i hpadding
        obtain ⟨rfl, rfl⟩ := hpadding
        split at h
        · rename_i hzero
          cases h
          exact encode_two hx hy hz hzero
        · cases h
      · simp only [Option.bind_eq_some_iff] at h
        obtain ⟨w, hfourth, more, hmore, h⟩ := h
        obtain ⟨hw, rfl⟩ := sextet?_eq_some_iff.mp hfourth
        cases h
        rw [encode_three hx hy hz hw, ih hmore]
  | case3 cs hempty hgroup =>
    rw [decode?] at h
    · cases h
    · exact hempty
    · exact hgroup

/-- The text of some bytes is the one that they are decoded of. -/
theorem decode?_eq_some_iff : decode? cs = some bs ↔ encode bs = cs := by
  constructor
  · exact encode_of_decode?
  · rintro rfl
    exact decode?_encode bs

end StoreQuery.Text.Base64
