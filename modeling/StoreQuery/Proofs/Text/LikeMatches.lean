import StoreQuery.Text.LikePattern
/-!
What the LIKE operator accepts: texts that can be split as the pattern says. The rows of answers that
decide it are right about every suffix of the text.
-/
namespace StoreQuery.LikePattern

/-- A percent sign takes any run of characters, an underscore one character, and every other character
itself; nothing is left over. -/
inductive Matches : List Char → List Char → Prop where
  | nil : Matches [] []
  | run {pattern rest : List Char} (taken : List Char) :
      Matches pattern rest → Matches ('%' :: pattern) (taken ++ rest)
  | single {pattern rest : List Char} (c : Char) :
      Matches pattern rest → Matches ('_' :: pattern) (c :: rest)
  | literal {pattern rest : List Char} {c : Char} : c ≠ '%' → c ≠ '_' →
      Matches pattern rest → Matches (c :: pattern) (c :: rest)

variable {pattern text : List Char} {c : Char}

theorem matches_nil : Matches [] text ↔ text = [] := by
  constructor
  · intro h
    cases h
    rfl
  · rintro rfl
    exact .nil

theorem matches_run :
    Matches ('%' :: pattern) text ↔ ∃ taken rest, text = taken ++ rest ∧ Matches pattern rest := by
  constructor
  · intro h
    cases h with
    | run taken h => exact ⟨taken, _, rfl, h⟩
    | literal hrun => exact (hrun rfl).elim
  · rintro ⟨taken, rest, rfl, h⟩
    exact .run taken h

theorem matches_single :
    Matches ('_' :: pattern) text ↔ ∃ c rest, text = c :: rest ∧ Matches pattern rest := by
  constructor
  · intro h
    cases h with
    | single c h => exact ⟨c, _, rfl, h⟩
    | literal _ hsingle => exact (hsingle rfl).elim
  · rintro ⟨c, rest, rfl, h⟩
    exact .single c h

theorem matches_literal (hrun : c ≠ '%') (hsingle : c ≠ '_') :
    Matches (c :: pattern) text ↔ ∃ rest, text = c :: rest ∧ Matches pattern rest := by
  constructor
  · intro h
    cases h with
    | run => exact (hrun rfl).elim
    | single => exact (hsingle rfl).elim
    | literal _ _ h => exact ⟨_, rfl, h⟩
  · rintro ⟨rest, rfl, h⟩
    exact .literal hrun hsingle h

/-- A row answers a question about each suffix of a text, from the text itself to the empty one. -/
inductive Answers (holds : List Char → Prop) : List Char → Row → Prop where
  | nil {b : Bool} : (b = true ↔ holds []) → Answers holds [] [b]
  | cons {c : Char} {cs : List Char} {b : Bool} {row : Row} : (b = true ↔ holds (c :: cs)) →
      Answers holds cs row → Answers holds (c :: cs) (b :: row)

variable {holds other : List Char → Prop} {answers : Row}

theorem Answers.head (h : Answers holds text answers) : answers.headD false = true ↔ holds text := by
  cases h with
  | nil h => exact h
  | cons h => exact h

theorem Answers.congr (h : Answers holds text answers) (hsame : ∀ t, holds t ↔ other t) :
    Answers other text answers := by
  induction h with
  | nil h => exact .nil (h.trans (hsame _))
  | cons h _ ih => exact .cons (h.trans (hsame _)) ih

theorem answers_emptyRow (text : List Char) : Answers (· = []) text (emptyRow text) := by
  induction text with
  | nil => exact .nil (by simp)
  | cons c cs ih => exact .cons (by simp) ih

theorem answers_stepRow (h : Answers holds text answers) (accepts : Char → Bool) :
    Answers (fun t => ∃ c rest, t = c :: rest ∧ accepts c = true ∧ holds rest) text
      (stepRow accepts text answers) := by
  induction h with
  | nil => exact .nil (by simp)
  | @cons d cs b row _ hrest ih =>
    refine .cons ?_ ih
    rw [Bool.and_eq_true, hrest.head]
    constructor
    · rintro ⟨haccepts, h⟩
      exact ⟨d, cs, rfl, haccepts, h⟩
    · rintro ⟨e, rest, heq, haccepts, h⟩
      cases heq
      exact ⟨haccepts, h⟩

/-- A run takes nothing, or the first character and what a run takes of the rest. -/
theorem answers_runRow (h : Answers holds text answers) :
    Answers (fun t => ∃ taken rest, t = taken ++ rest ∧ holds rest) text (runRow answers) := by
  induction h with
  | @nil b h =>
    refine .nil ?_
    have hlast : (b || (runRow []).headD false) = b := Bool.or_false b
    rw [hlast, h]
    constructor
    · exact fun h => ⟨[], [], rfl, h⟩
    · rintro ⟨taken, rest, heq, hrest⟩
      obtain ⟨-, rfl⟩ := List.append_eq_nil_iff.mp heq.symm
      exact hrest
  | @cons d cs b row h _ ih =>
    refine .cons ?_ ih
    rw [Bool.or_eq_true, h, ih.head]
    constructor
    · rintro (hall | ⟨taken, rest, rfl, hrest⟩)
      · exact ⟨[], d :: cs, rfl, hall⟩
      · exact ⟨d :: taken, rest, rfl, hrest⟩
    · rintro ⟨taken, rest, heq, hrest⟩
      cases taken with
      | nil =>
        rw [List.nil_append] at heq
        exact .inl (heq ▸ hrest)
      | cons e taken =>
        rw [List.cons_append, List.cons.injEq] at heq
        exact .inr ⟨taken, rest, heq.2, hrest⟩

theorem answers_row (pattern text : List Char) :
    Answers (Matches pattern) text (row text (ofText (String.ofList pattern))) := by
  simp only [ofText, String.toList_ofList]
  induction pattern with
  | nil => exact (answers_emptyRow text).congr fun t => matches_nil.symm
  | cons c pattern ih =>
    by_cases hrun : c = '%'
    · subst hrun
      exact (answers_runRow ih).congr fun t => matches_run.symm
    · by_cases hsingle : c = '_'
      · subst hsingle
        refine (answers_stepRow ih fun _ => true).congr fun t => ?_
        rw [matches_single]
        simp
      · simp only [List.map_cons, hrun, hsingle, if_false]
        refine (answers_stepRow ih fun d => d == c).congr fun t => ?_
        rw [matches_literal hrun hsingle]
        constructor
        · rintro ⟨d, rest, rfl, heq, h⟩
          exact ⟨rest, by rw [beq_iff_eq.mp heq], h⟩
        · rintro ⟨rest, rfl, h⟩
          exact ⟨c, rest, rfl, beq_self_eq_true c, h⟩

theorem accepts_ofText (pattern text : String) :
    (ofText pattern).accepts text = true ↔ Matches pattern.toList text.toList := by
  have hrow := answers_row pattern.toList text.toList
  rw [String.ofList_toList] at hrow
  exact hrow.head

end StoreQuery.LikePattern
