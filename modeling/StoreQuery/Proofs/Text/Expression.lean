import StoreQuery.Proofs.Text.LikeMatches
import StoreQuery.Text.Expression
/-!
How the regular expression of a pattern is read. It finds just the texts that the pattern matches.
-/
namespace StoreQuery.Expression

inductive Piece where
  | start
  | stop
  | any
  | anyRun
  | literal (c : Char)
  deriving DecidableEq

/-- The pieces that the characters are read as. Nothing else that an expression may hold is known. -/
def pieces? : List Char → Option (List Piece)
  | [] => some []
  | '\\' :: c :: rest => if isSpecial c then (pieces? rest).map (.literal c :: ·) else none
  | '.' :: '*' :: rest => (pieces? rest).map (.anyRun :: ·)
  | '.' :: rest => (pieces? rest).map (.any :: ·)
  | '^' :: rest => (pieces? rest).map (.start :: ·)
  | '$' :: rest => (pieces? rest).map (.stop :: ·)
  | c :: rest => if isSpecial c then none else (pieces? rest).map (.literal c :: ·)

structure Regex where
  /-- Whether a dot stands for a line feed too. -/
  dotAll : Bool
  pieces : List Piece
  deriving DecidableEq

def ofText? (text : String) : Option Regex :=
  match text.toList with
  | '(' :: '?' :: 's' :: ')' :: rest => (pieces? rest).map (⟨true, ·⟩)
  | cs => (pieces? cs).map (⟨false, ·⟩)

/-- A piece takes what comes next at a place of a text, between what is behind and what is ahead. -/
inductive Piece.Takes (dotAll : Bool) :
    Piece → List Char → List Char → List Char → List Char → Prop where
  | start {ahead : List Char} : Takes dotAll .start [] ahead [] ahead
  | stop {behind : List Char} : Takes dotAll .stop behind [] behind []
  | any {behind ahead : List Char} {c : Char} : (c = '\n' → dotAll = true) →
      Takes dotAll .any behind (c :: ahead) (behind ++ [c]) ahead
  | anyRun {behind taken ahead : List Char} : ('\n' ∈ taken → dotAll = true) →
      Takes dotAll .anyRun behind (taken ++ ahead) (behind ++ taken) ahead
  | literal {behind ahead : List Char} {c : Char} :
      Takes dotAll (.literal c) behind (c :: ahead) (behind ++ [c]) ahead

inductive Passes (dotAll : Bool) : List Piece → List Char → List Char → Prop where
  | done {behind ahead : List Char} : Passes dotAll [] behind ahead
  | step {piece : Piece} {pieces : List Piece} {behind ahead behind' ahead' : List Char} :
      piece.Takes dotAll behind ahead behind' ahead' → Passes dotAll pieces behind' ahead' →
      Passes dotAll (piece :: pieces) behind ahead

def Regex.Finds (r : Regex) (text : String) : Prop :=
  ∃ behind ahead, text.toList = behind ++ ahead ∧ Passes r.dotAll r.pieces behind ahead

def unit (c : Char) : List Char :=
  if c = '%' then ['.', '*'] else if c = '_' then ['.'] else escape [c]

def pieceOf (c : Char) : Piece :=
  if c = '%' then .anyRun else if c = '_' then .any else .literal c

section Writing

variable {c : Char} {rest : List Char}

theorem write_eq (written literal pattern : List Char) :
    write written literal pattern = written ++ escape literal ++ (pattern.flatMap unit ++ ['$']) := by
  induction pattern generalizing written literal with
  | nil => rfl
  | cons c pattern ih =>
    rw [write, List.flatMap_cons]
    by_cases hrun : c = '%'
    · subst hrun
      rw [if_pos (Or.inl rfl), ih]
      simp [unit, escape]
    · by_cases hsingle : c = '_'
      · subst hsingle
        rw [if_pos (Or.inr rfl), ih]
        simp [unit, escape]
      · rw [if_neg (by simp [hrun, hsingle]), ih]
        simp [unit, escape, hrun, hsingle]

/-- A dot is a piece of its own unless an asterisk follows. -/
theorem pieces?_dot (h : rest.head? ≠ some '*') :
    pieces? ('.' :: rest) = (pieces? rest).map (.any :: ·) := by
  cases rest with
  | nil => rfl
  | cons d rest =>
    have hd : d ≠ '*' := by
      rintro rfl
      exact h rfl
    simp [pieces?, hd]

theorem pieces?_escape (c : Char) (rest : List Char) :
    pieces? (escape [c] ++ rest) = (pieces? rest).map (.literal c :: ·) := by
  by_cases h : isSpecial c = true
  · have htext : escape [c] ++ rest = '\\' :: c :: rest := by simp [escape, h]
    rw [htext, pieces?, if_pos h]
  · have htext : escape [c] ++ rest = c :: rest := by simp [escape, h]
    have hplain : ∀ d, isSpecial d = true → c ≠ d := by
      rintro d hd rfl
      exact h hd
    rw [htext, pieces?, if_neg h]
    · exact fun _ _ hc _ => hplain '\\' (by decide) hc
    · exact fun _ hc _ => hplain '.' (by decide) hc
    · exact hplain '.' (by decide)
    · exact hplain '^' (by decide)
    · exact hplain '$' (by decide)

/-- An asterisk is escaped, so none comes right after what was written before. -/
theorem head?_unit (c : Char) (rest : List Char) : (unit c ++ rest).head? ≠ some '*' := by
  by_cases hrun : c = '%'
  · subst hrun
    simp [unit]
  · by_cases hsingle : c = '_'
    · subst hsingle
      simp [unit]
    · by_cases h : isSpecial c = true
      · simp [unit, escape, hrun, hsingle, h]
      · have hplain : c ≠ '*' := by
          rintro rfl
          exact h (by decide)
        simpa [unit, escape, hrun, hsingle, h] using hplain

theorem pieces?_units (pattern : List Char) :
    pieces? (pattern.flatMap unit ++ ['$']) = some (pattern.map pieceOf ++ [.stop]) := by
  induction pattern with
  | nil => rfl
  | cons c pattern ih =>
    rw [List.flatMap_cons, List.append_assoc, List.map_cons, List.cons_append]
    by_cases hrun : c = '%'
    · subst hrun
      have hpieces : pieces? (unit '%' ++ (pattern.flatMap unit ++ ['$'])) =
          (pieces? (pattern.flatMap unit ++ ['$'])).map (.anyRun :: ·) := rfl
      rw [hpieces, ih]
      rfl
    · by_cases hsingle : c = '_'
      · subst hsingle
        have hnext : (pattern.flatMap unit ++ ['$']).head? ≠ some '*' := by
          cases pattern with
          | nil => decide
          | cons d pattern =>
            rw [List.flatMap_cons, List.append_assoc]
            exact head?_unit d _
        have hpieces := pieces?_dot hnext
        rw [ih] at hpieces
        exact hpieces
      · simp only [unit, pieceOf, hrun, hsingle, if_false, pieces?_escape, ih, Option.map_some]

/-- The expression of a pattern can always be read. -/
theorem ofText?_ofPattern (pattern : String) :
    ofText? (ofPattern pattern) = some ⟨true, .start :: pattern.toList.map pieceOf ++ [.stop]⟩ := by
  have htext : write "(?s)^".toList [] pattern.toList =
      '(' :: '?' :: 's' :: ')' :: '^' :: (pattern.toList.flatMap unit ++ ['$']) := by
    rw [write_eq]
    rfl
  rw [ofText?, ofPattern, String.toList_ofList, htext]
  simp only [pieces?, pieces?_units, Option.map_some, List.cons_append]

example : ofPattern "50%*_" = "(?s)^50.*\\*.$" := by decide +kernel

end Writing

section Finding

variable {behind ahead behind' ahead' : List Char} {c : Char} {pieces : List Piece}

theorem passes_stop : Passes true [.stop] behind ahead ↔ ahead = [] := by
  constructor
  · rintro (_ | ⟨⟨⟩, _⟩)
    rfl
  · rintro rfl
    exact .step .stop .done

theorem passes_anyRun :
    Passes true (.anyRun :: pieces) behind ahead ↔
      ∃ taken rest, ahead = taken ++ rest ∧ Passes true pieces (behind ++ taken) rest := by
  constructor
  · rintro (_ | ⟨⟨⟩, h⟩)
    exact ⟨_, _, rfl, h⟩
  · rintro ⟨taken, rest, rfl, h⟩
    exact .step (.anyRun fun _ => rfl) h

theorem passes_any :
    Passes true (.any :: pieces) behind ahead ↔
      ∃ c rest, ahead = c :: rest ∧ Passes true pieces (behind ++ [c]) rest := by
  constructor
  · rintro (_ | ⟨⟨⟩, h⟩)
    exact ⟨_, _, rfl, h⟩
  · rintro ⟨c, rest, rfl, h⟩
    exact .step (.any fun _ => rfl) h

theorem passes_literal :
    Passes true (.literal c :: pieces) behind ahead ↔
      ∃ rest, ahead = c :: rest ∧ Passes true pieces (behind ++ [c]) rest := by
  constructor
  · rintro (_ | ⟨⟨⟩, h⟩)
    exact ⟨_, rfl, h⟩
  · rintro ⟨rest, rfl, h⟩
    exact .step .literal h

/-- What is behind does not count; what is ahead has to match the rest of the pattern. -/
theorem passes_pattern (pattern behind ahead : List Char) :
    Passes true (pattern.map pieceOf ++ [.stop]) behind ahead ↔
      LikePattern.Matches pattern ahead := by
  induction pattern generalizing behind ahead with
  | nil => exact passes_stop.trans LikePattern.matches_nil.symm
  | cons c pattern ih =>
    rw [List.map_cons, List.cons_append]
    by_cases hrun : c = '%'
    · subst hrun
      rw [LikePattern.matches_run, pieceOf, if_pos rfl, passes_anyRun]
      simp only [ih]
    · by_cases hsingle : c = '_'
      · subst hsingle
        rw [LikePattern.matches_single, pieceOf, if_neg hrun, if_pos rfl, passes_any]
        simp only [ih]
      · rw [LikePattern.matches_literal hrun hsingle, pieceOf, if_neg hrun, if_neg hsingle,
          passes_literal]
        simp only [ih]

/-- The expression of a pattern finds the texts that the pattern matches. -/
theorem exists_finds (pattern : String) :
    ∃ r, ofText? (ofPattern pattern) = some r ∧
      ∀ text, r.Finds text ↔ LikePattern.Matches pattern.toList text.toList := by
  refine ⟨_, ofText?_ofPattern pattern, ?_⟩
  intro text
  constructor
  · rintro ⟨behind, ahead, htext, ⟨⟩ | ⟨⟨⟩, h⟩⟩
    rw [htext, List.nil_append]
    exact (passes_pattern _ _ _).mp h
  · intro h
    exact ⟨[], text.toList, rfl, .step .start ((passes_pattern _ _ _).mpr h)⟩

end Finding

end StoreQuery.Expression
