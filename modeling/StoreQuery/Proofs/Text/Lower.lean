import StoreQuery.Settings.Layers
/-!
Lower case. No small letter stands in a run of capitals, so what is in lower case stays as it is, and the
names of variables are read alike in whatever case they are written.
-/
namespace StoreQuery.Text

/-- First and last code point of a run of capitals, the step between them, and the way to the small ones. -/
abbrev Run := Nat × Nat × Nat × Int

/-- The capitals with the two kinds that have rules of their own: those of ASCII, and the I with a dot. -/
def allCapitals : List Run := (65, 90, 1, 32) :: (304, 304, 1, 0) :: capitalRuns

def Run.Holds (r : Run) (n : Nat) : Prop := r.1 ≤ n ∧ n ≤ r.2.1 ∧ (n - r.1) % r.2.2.1 = 0

structure Small (c : Char) : Prop where
  undotted : c ≠ '\u0130'
  no_sigma : c ≠ '\u03a3'
  kept : lowerChar c = c

variable {c : Char} {n : Nat} {r : Run} {before after cs : List Char}

section Capitals

/-- Small letters from `low` to `high` stand clear of a run: before it, behind it, or between its letters. -/
def avoids (low high : Nat) (sparse : Bool) (r : Run) : Bool :=
  Nat.blt high r.1 || Nat.blt r.2.1 low || (sparse && r.2.2.1 == 2 && (low - r.1) % 2 == 1)

def Run.avoidsAll (r : Run) : Bool :=
  allCapitals.all (avoids (r.1 + r.2.2.2).toNat (r.2.1 + r.2.2.2).toNat (r.2.2.1 == 2 || r.1 == r.2.1))

theorem avoidsAll_capitalRuns : capitalRuns.all Run.avoidsAll = true := by decide +kernel

theorem forward_capitalRuns : capitalRuns.all (fun r => decide (0 ≤ r.1 + r.2.2.2)) = true := by
  decide +kernel

theorem not_holds_small {a : Run} (ha : a ∈ capitalRuns) (hn : a.Holds n) (hr : r ∈ allCapitals) :
    ¬ r.Holds (n + a.2.2.2).toNat := by
  have hclear := List.all_eq_true.mp (List.all_eq_true.mp avoidsAll_capitalRuns a ha) r hr
  have hforward := of_decide_eq_true (List.all_eq_true.mp forward_capitalRuns a ha)
  obtain ⟨hfirst, hlast, hstep⟩ := hn
  obtain ⟨first, final, step, offset⟩ := a
  rintro ⟨hrfirst, hrlast, hrstep⟩
  simp only [avoids, Bool.or_eq_true, Bool.and_eq_true, Nat.blt_eq, beq_iff_eq] at *
  rcases hclear with (hbefore | hbehind) | ⟨⟨hsparse, htwo⟩, hodd⟩
  · omega
  · omega
  · -- the letters of the run are an even way apart, and its first is an odd way off
    have heven : (n - first) % 2 = 0 := by
      rcases hsparse with rfl | rfl
      · exact hstep
      · omega
    rw [htwo] at hrstep
    omega

end Capitals

section Characters

theorem toLower_of_not_holds (hascii : c.toNat < 128) (h : ¬ Run.Holds (65, 90, 1, 32) c.toNat) :
    c.toLower = c := by
  have hall : ∀ n < 128, ¬ (65 ≤ n ∧ n ≤ 90) → (Char.ofNat n).toLower = Char.ofNat n := by decide
  have hc := hall c.toNat hascii fun hrange => h ⟨hrange.1, hrange.2, Nat.mod_one _⟩
  rwa [Char.ofNat_toNat] at hc

theorem lowerChar_of_not_holds (h : ∀ r ∈ allCapitals, ¬ r.Holds c.toNat) : lowerChar c = c := by
  rw [lowerChar]
  split
  · exact toLower_of_not_holds ‹_› (h _ List.mem_cons_self)
  · dsimp only
    split
    · rename_i first final step offset hfound
      have hmem := List.mem_of_find?_eq_some hfound
      have hholds := List.find?_some hfound
      simp only [Bool.and_eq_true, decide_eq_true_eq, beq_iff_eq] at hholds
      have hcapital : (first, final, step, offset) ∈ allCapitals :=
        List.mem_cons_of_mem _ (List.mem_cons_of_mem _ hmem)
      exact absurd ⟨hholds.1.1, hholds.1.2, hholds.2⟩ (h _ hcapital)
    · rfl

theorem small_of_not_holds (h : ∀ r ∈ allCapitals, ¬ r.Holds c.toNat) : Small c := by
  have hsigma : ((931, 939, 1, 32) : Run) ∈ allCapitals := by decide +kernel
  constructor
  · rintro rfl
    exact h (304, 304, 1, 0) (List.mem_cons_of_mem _ List.mem_cons_self) ⟨by decide, by decide, rfl⟩
  · rintro rfl
    exact h _ hsigma ⟨by decide, by decide, rfl⟩
  · exact lowerChar_of_not_holds h

theorem foreign_capitals : ∀ r ∈ allCapitals.tail, 128 ≤ r.1 := by decide +kernel

theorem small_of_ascii (hascii : c.toNat < 128) (h : ¬ (65 ≤ c.toNat ∧ c.toNat ≤ 90)) : Small c := by
  apply small_of_not_holds
  intro r hr hholds
  rcases List.mem_cons.mp hr with rfl | hr
  · exact h ⟨hholds.1, hholds.2.1⟩
  · exact absurd (Nat.le_trans (foreign_capitals r hr) hholds.1) (Nat.not_le_of_lt hascii)

/-- A number that is no code point stands for the character zero. -/
theorem toNat_ofNat (n : Nat) : (Char.ofNat n).toNat = n ∨ Char.ofNat n = '\x00' := by
  by_cases h : n.isValidChar
  · left
    rw [Char.ofNat, dif_pos h]
    rfl
  · right
    rw [Char.ofNat, dif_neg h]
    rfl

theorem small_ofNat (h : ∀ r ∈ allCapitals, ¬ r.Holds n) : Small (Char.ofNat n) := by
  rcases toNat_ofNat n with hn | hzero
  · exact small_of_not_holds (by rwa [hn])
  · rw [hzero]
    exact small_of_ascii (by decide) (by decide)

theorem small_toLower (h : c.toNat < 128) : Small c.toLower := by
  have hall : ∀ n < 128, (Char.ofNat n).toLower.toNat < 128 ∧
      ¬ (65 ≤ (Char.ofNat n).toLower.toNat ∧ (Char.ofNat n).toLower.toNat ≤ 90) := by
    decide
  have hc := hall c.toNat h
  rw [Char.ofNat_toNat] at hc
  exact small_of_ascii hc.1 hc.2

theorem small_lowerChar (hdot : c ≠ '\u0130') : Small (lowerChar c) := by
  rw [lowerChar]
  split
  · exact small_toLower ‹_›
  · rename_i hforeign
    dsimp only
    split
    · rename_i first final step offset hfound
      have hmem := List.mem_of_find?_eq_some hfound
      have hholds := List.find?_some hfound
      simp only [Bool.and_eq_true, decide_eq_true_eq, beq_iff_eq] at hholds
      exact small_ofNat fun r hr => not_holds_small hmem ⟨hholds.1.1, hholds.1.2, hholds.2⟩ hr
    · rename_i hnone
      apply small_of_not_holds
      rintro r hr ⟨hfirst, hlast, hstep⟩
      rcases List.mem_cons.mp hr with rfl | hr
      · exact hforeign (Nat.lt_of_le_of_lt hlast (by decide))
      rcases List.mem_cons.mp hr with rfl | hr
      · exact hdot (Char.toNat_inj.mp (Nat.le_antisymm hlast hfirst))
      · have hnot := List.find?_eq_none.mp hnone r hr
        simp only [Bool.and_eq_true, decide_eq_true_eq, beq_iff_eq] at hnot
        exact hnot ⟨⟨hfirst, hlast⟩, hstep⟩

theorem small_lowered (before : List Char) (c : Char) (after : List Char) :
    ∀ d ∈ lowered before c after, Small d := by
  have hmark : Small '\u0307' := ⟨by decide, by decide, by decide +kernel⟩
  have hfinal : Small '\u03c2' := ⟨by decide, by decide, by decide +kernel⟩
  have hsigma : Small '\u03c3' := ⟨by decide, by decide, by decide +kernel⟩
  rw [lowered]
  split
  · exact List.forall_mem_cons.mpr
      ⟨small_of_ascii (by decide) (by decide), List.forall_mem_singleton.mpr hmark⟩
  · split
    · rw [List.forall_mem_singleton]
      split
      · exact hfinal
      · exact hsigma
    · exact List.forall_mem_singleton.mpr (small_lowerChar ‹_›)

end Characters

theorem lowerAfter_of_small (h : ∀ c ∈ cs, Small c) (before : List Char) : lowerAfter before cs = cs := by
  induction cs generalizing before with
  | nil => rfl
  | cons c cs ih =>
    obtain ⟨hc, hcs⟩ := List.forall_mem_cons.mp h
    rw [lowerAfter, ih hcs, lowered, if_neg hc.undotted, if_neg hc.no_sigma, hc.kept]
    rfl

theorem small_lowerAfter (before cs : List Char) : ∀ d ∈ lowerAfter before cs, Small d := by
  induction cs generalizing before with
  | nil => exact List.forall_mem_nil _
  | cons c cs ih =>
    rw [lowerAfter, List.forall_mem_append]
    exact ⟨small_lowered before c cs, ih (c :: before)⟩

theorem lower_lower (cs : List Char) : lower (lower cs) = lower cs :=
  lowerAfter_of_small (small_lowerAfter [] cs) []

/-- A variable sets the same in whatever case its name is written. -/
theorem variableKey?_lower (lead name : String) :
    Settings.variableKey? lead (String.ofList (lower name.toList)) = Settings.variableKey? lead name := by
  rw [Settings.variableKey?, Settings.variableKey?, String.toList_ofList, lower_lower]

end StoreQuery.Text
