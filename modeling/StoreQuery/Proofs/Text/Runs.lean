import Mathlib.Data.List.Chain
import StoreQuery.Text.Cased
import StoreQuery.Text.Unprinted
/-!
Characters in runs. Where the bounds increase, a character is in a set exactly when it lies in one of the
runs that they begin and end.
-/
namespace StoreQuery.Text

/-- In a run between two bounds, or behind a last bound that ends no run. -/
def InSomeRun (n : Nat) : List Nat → Prop
  | first :: last :: bounds => first ≤ n ∧ n < last ∨ InSomeRun n bounds
  | [first] => first ≤ n
  | [] => False

variable {bounds : List Nat} {c : Char}

/-- A character between two bounds is in a run or in a gap, by the number of bounds before it. -/
theorem inRuns_append {before after : List Nat} (hbefore : ∀ b ∈ before, b ≤ c.toNat)
    (hafter : ∀ b ∈ after, c.toNat < b) : inRuns (before ++ after) c = (before.length % 2 == 1) := by
  have hall : before.countP (· ≤ c.toNat) = before.length :=
    List.countP_eq_length.mpr fun b hb => decide_eq_true (hbefore b hb)
  have hnone : after.countP (· ≤ c.toNat) = 0 :=
    List.countP_eq_zero.mpr fun b hb => by simpa using hafter b hb
  rw [inRuns, List.countP_append, hall, hnone, Nat.add_zero]

theorem inRuns_of_lt (h : ∀ b ∈ bounds, c.toNat < b) : inRuns bounds c = false :=
  inRuns_append (List.forall_mem_nil _) h

theorem inRuns_cons (first : Nat) (bounds : List Nat) (c : Char) :
    inRuns (first :: bounds) c = if first ≤ c.toNat then !inRuns bounds c else inRuns bounds c := by
  rw [inRuns, inRuns, List.countP_cons]
  by_cases h : first ≤ c.toNat
  · simp only [h, decide_true, if_true]
    rcases Nat.mod_two_eq_zero_or_one (bounds.countP (· ≤ c.toNat)) with hm | hm
    · rw [Nat.add_mod, hm]
      rfl
    · rw [Nat.add_mod, hm]
      rfl
  · simp [h]

theorem inRuns_iff (h : bounds.Pairwise (· < ·)) :
    inRuns bounds c = true ↔ InSomeRun c.toNat bounds := by
  induction bounds using InSomeRun.induct with
  | case1 first last bounds ih =>
    obtain ⟨hfirst, hrest⟩ := List.pairwise_cons.mp h
    obtain ⟨hlast, hbounds⟩ := List.pairwise_cons.mp hrest
    have hle := hfirst last List.mem_cons_self
    have hlater (hlt : c.toNat < last) : inRuns bounds c = false :=
      inRuns_of_lt fun b hb => hlt.trans (hlast b hb)
    rw [InSomeRun, ← ih hbounds, inRuns_cons, inRuns_cons]
    rcases Nat.lt_or_ge c.toNat last with hlt | hge
    · rw [hlater hlt, if_neg (show ¬ last ≤ c.toNat by omega)]
      by_cases hbegun : first ≤ c.toNat <;> simp [hbegun, hlt]
    · rw [if_pos (show first ≤ c.toNat by omega), if_pos hge, Bool.not_not]
      simp [show ¬ c.toNat < last by omega]
  | case2 first =>
    have hnone : inRuns [] c = false := rfl
    rw [inRuns_cons, hnone, InSomeRun]
    by_cases hbegun : first ≤ c.toNat <;> simp [hbegun]
  | case3 => exact iff_of_false Bool.false_ne_true id

theorem increasing_unprintedBounds : unprintedBounds.IsChain (· < ·) := by decide +kernel

theorem increasing_casedBounds : casedBounds.IsChain (· < ·) := by decide +kernel

theorem increasing_caseIgnorableBounds : caseIgnorableBounds.IsChain (· < ·) := by decide +kernel

end StoreQuery.Text
