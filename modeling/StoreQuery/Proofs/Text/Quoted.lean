import StoreQuery.Proofs.Text.Runs
import StoreQuery.Text.Quoted
/-!
Text in quotes. It reads back as the text that was quoted, and nothing in it is unprinted.
-/
namespace StoreQuery.Text

variable {c : Char} {n : Nat} {cs : List Char}

section Hex

theorem hexValue?_digitChar (h : n < 16) : hexValue? n.digitChar = some n := by
  revert n
  decide

theorem ofHex?_hexText (n : Nat) : ofHex? (hexText n) = some n := by
  induction n using Nat.strongRecOn with
  | ind n ih =>
    rw [hexText, Nat.toDigits_eq_if (by decide)]
    split
    · rename_i hn
      rw [ofHex?, List.foldlM_cons, hexValue?_digitChar hn]
      simp
    · have hhigh : ofHex? (Nat.toDigits 16 (n / 16)) = some (n / 16) := ih (n / 16) (by omega)
      have hlow : hexValue? (n % 16).digitChar = some (n % 16) := hexValue?_digitChar (by omega)
      rw [ofHex?, List.foldlM_append]
      change (ofHex? _ >>= _) = _
      rw [hhigh]
      change (Option.map _ (hexValue? _)).bind _ = _
      rw [hlow]
      exact congrArg some (Nat.div_add_mod n 16)

theorem mem_hexText (h : c ∈ hexText n) : ∃ d < 16, c = d.digitChar := by
  induction n using Nat.strongRecOn with
  | ind n ih =>
    rw [hexText, Nat.toDigits_eq_if (by decide)] at h
    split at h
    · exact ⟨n, ‹_›, List.mem_singleton.mp h⟩
    · rcases List.mem_append.mp h with h | h
      · exact ih (n / 16) (by omega) h
      · exact ⟨n % 16, by omega, List.mem_singleton.mp h⟩

end Hex

/-- The character that quoted text begins with, and the rest of it. -/
def unquotedChar? : List Char → Option (Char × List Char)
  | '\\' :: '0' :: cs => some ('\x00', cs)
  | '\\' :: 't' :: cs => some ('\t', cs)
  | '\\' :: 'r' :: cs => some ('\r', cs)
  | '\\' :: 'n' :: cs => some ('\n', cs)
  | '\\' :: '"' :: cs => some ('"', cs)
  | '\\' :: '\\' :: cs => some ('\\', cs)
  | '\\' :: 'u' :: '\x7b' :: cs =>
    match cs.dropWhile (· ≠ '\x7d') with
    | '\x7d' :: rest => (ofHex? (cs.takeWhile (· ≠ '\x7d'))).map fun n => (Char.ofNat n, rest)
    | _ => none
  | c :: cs => if c = '\\' ∨ c = '"' then none else some (c, cs)
  | [] => none

def unquotedRest? : Nat → List Char → Option (List Char)
  | _, ['"'] => some []
  | 0, _ => none
  | fuel + 1, cs => do
    let (c, rest) ← unquotedChar? cs
    return c :: (← unquotedRest? fuel rest)

def unquoted? (s : String) : Option String :=
  match s.toList with
  | '"' :: cs => (unquotedRest? cs.length cs).map String.ofList
  | _ => none

/-- A number in braces ends at the brace. -/
theorem unquotedChar?_hexText (n : Nat) (cs : List Char) :
    unquotedChar? ('\\' :: 'u' :: '\x7b' :: (hexText n ++ '\x7d' :: cs)) =
      some (Char.ofNat n, cs) := by
  have hdigits : ∀ c ∈ hexText n, decide (c ≠ '\x7d') = true := by
    intro c hc
    obtain ⟨d, hd, rfl⟩ := mem_hexText hc
    clear hc
    revert d
    decide
  have htake : (hexText n ++ '\x7d' :: cs).takeWhile (· ≠ '\x7d') = hexText n := by
    rw [List.takeWhile_append_of_pos hdigits, List.takeWhile_cons_of_neg (by decide), List.append_nil]
  have hdrop : (hexText n ++ '\x7d' :: cs).dropWhile (· ≠ '\x7d') = '\x7d' :: cs := by
    rw [List.dropWhile_append_of_pos hdigits, List.dropWhile_cons_of_neg (by decide)]
  simp only [unquotedChar?, htake, hdrop, ofHex?_hexText, Option.map_some]

theorem unquotedChar?_quotedChar (c : Char) (cs : List Char) :
    unquotedChar? (quotedChar c ++ cs) = some (c, cs) := by
  unfold quotedChar
  split_ifs with h₀ ht hr hn hquote hunprinted
  · subst h₀; rfl
  · subst ht; rfl
  · subst hr; rfl
  · subst hn; rfl
  · rcases hquote with rfl | rfl <;> rfl
  · have hread := unquotedChar?_hexText c.toNat cs
    rw [Char.ofNat_toNat] at hread
    simpa using hread
  · rw [not_or] at hquote
    have hplain : ¬ (c = '\\' ∨ c = '"') := fun h => h.elim hquote.2 hquote.1
    rw [List.singleton_append]
    unfold unquotedChar?
    simp_all

theorem quotedChar_ne_quote (c : Char) (cs : List Char) : quotedChar c ++ cs ≠ ['"'] := by
  intro h
  have hread := unquotedChar?_quotedChar c cs
  rw [h] at hread
  cases hread

theorem unquotedRest?_quoted (cs : List Char) (fuel : Nat) (h : cs.length ≤ fuel) :
    unquotedRest? fuel (cs.flatMap quotedChar ++ ['"']) = some cs := by
  induction cs generalizing fuel with
  | nil => cases fuel <;> rfl
  | cons c cs ih =>
    cases fuel with
    | zero => cases h
    | succ fuel =>
      rw [List.flatMap_cons, List.append_assoc, unquotedRest?, unquotedChar?_quotedChar]
      · change (unquotedRest? fuel _).bind _ = _
        rw [ih fuel (Nat.le_of_succ_le_succ h)]
        rfl
      · exact quotedChar_ne_quote c _

theorem length_le_quoted (cs : List Char) : cs.length ≤ (cs.flatMap quotedChar ++ ['"']).length := by
  induction cs with
  | nil => exact Nat.zero_le _
  | cons c cs ih =>
    have hpos : 0 < (quotedChar c).length := by
      unfold quotedChar
      split_ifs <;> simp
    rw [List.flatMap_cons, List.append_assoc, List.length_append, List.length_cons]
    omega

theorem unquoted?_quoted (s : String) : unquoted? (quoted s) = some s := by
  have hrest := unquotedRest?_quoted s.toList _ (length_le_quoted s.toList)
  simp only [unquoted?, quoted, String.toList_ofList, hrest, Option.map_some, String.ofList_toList]

/-- Quoted text tells what was quoted. -/
theorem quoted_injective : Function.Injective quoted := by
  intro s t h
  have hread := unquoted?_quoted s
  rw [h, unquoted?_quoted] at hread
  exact (Option.some.inj hread).symm

section Printed

theorem isUnprinted_ascii (hlow : 32 ≤ c.toNat) (hhigh : c.toNat < 127) : isUnprinted c = false := by
  have hsplit : unprintedBounds = [0, 32] ++ unprintedBounds.drop 2 := rfl
  have hbefore : ∀ b ∈ [0, 32], b ≤ c.toNat := by
    simpa using hlow
  have hafter : ∀ b ∈ unprintedBounds.drop 2, 127 ≤ b := by decide +kernel
  rw [isUnprinted, hsplit]
  exact inRuns_append hbefore fun b hb => hhigh.trans_le (hafter b hb)

theorem quotedChar_printed (c : Char) : ∀ d ∈ quotedChar c, isUnprinted d = false := by
  have hescape (e : Char) (he : 32 ≤ e.toNat ∧ e.toNat < 127) : ∀ d ∈ ['\\', e], isUnprinted d = false := by
    simp only [List.forall_mem_cons]
    exact ⟨isUnprinted_ascii (by decide) (by decide), isUnprinted_ascii he.1 he.2,
      List.forall_mem_nil _⟩
  unfold quotedChar
  split_ifs with h₀ ht hr hn hquote hunprinted
  · exact hescape '0' (by decide)
  · exact hescape 't' (by decide)
  · exact hescape 'r' (by decide)
  · exact hescape 'n' (by decide)
  · exact hescape c (by rcases hquote with rfl | rfl <;> decide)
  · intro d hd
    simp only [List.cons_append, List.nil_append, List.mem_cons, List.mem_append, List.not_mem_nil,
      or_false] at hd
    rcases hd with rfl | rfl | rfl | hd | rfl
    · exact isUnprinted_ascii (by decide) (by decide)
    · exact isUnprinted_ascii (by decide) (by decide)
    · exact isUnprinted_ascii (by decide) (by decide)
    · obtain ⟨n, hn, rfl⟩ := mem_hexText hd
      have hrange : ∀ n < 16, 32 ≤ n.digitChar.toNat ∧ n.digitChar.toNat < 127 := by decide
      exact isUnprinted_ascii (hrange n hn).1 (hrange n hn).2
    · exact isUnprinted_ascii (by decide) (by decide)
  · simpa using hunprinted

theorem quoted_printed (s : String) : ∀ c ∈ (quoted s).toList, isUnprinted c = false := by
  intro c hc
  rw [quoted, String.toList_ofList, List.mem_cons, List.mem_append, List.mem_flatMap,
    List.mem_singleton] at hc
  rcases hc with rfl | ⟨d, -, hd⟩ | rfl
  · exact isUnprinted_ascii (by decide) (by decide)
  · exact quotedChar_printed d c hd
  · exact isUnprinted_ascii (by decide) (by decide)

end Printed

end StoreQuery.Text
