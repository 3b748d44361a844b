import StoreQuery.Proofs.MapStore.Compilation
import StoreQuery.Proofs.Text.Expression
import StoreQuery.Search.Body
/-!
Wildcards of the search engine. A pattern that is rewritten to them matches what it matched before, so
the map store and the search engine accept the same texts.
-/
namespace StoreQuery.Search

/-- An asterisk takes any run of characters, a question mark one character, a backslash makes the next
character stand for itself, and every other character does so anyway; nothing is left over. -/
inductive WildcardMatches : List Char → List Char → Prop where
  | nil : WildcardMatches [] []
  | run {pattern rest : List Char} (taken : List Char) :
      WildcardMatches pattern rest → WildcardMatches ('*' :: pattern) (taken ++ rest)
  | single {pattern rest : List Char} (c : Char) :
      WildcardMatches pattern rest → WildcardMatches ('?' :: pattern) (c :: rest)
  | escaped {pattern rest : List Char} (c : Char) :
      WildcardMatches pattern rest → WildcardMatches ('\\' :: c :: pattern) (c :: rest)
  | literal {pattern rest : List Char} {c : Char} : c ∉ ['*', '?', '\\'] →
      WildcardMatches pattern rest → WildcardMatches (c :: pattern) (c :: rest)

def wildcardUnit (c : Char) : List Char :=
  if c = '%' then ['*']
  else if c = '_' then ['?']
  else if c = '*' ∨ c = '?' ∨ c = '\\' then ['\\', c]
  else [c]

theorem toList_wildcard (pattern : String) :
    (wildcard pattern).toList = pattern.toList.flatMap wildcardUnit :=
  String.toList_ofList

variable {pattern text : List Char} {c : Char}

theorem wildcardMatches_nil : WildcardMatches [] text ↔ text = [] := by
  constructor
  · rintro ⟨⟩
    rfl
  · rintro rfl
    exact .nil

theorem wildcardMatches_run :
    WildcardMatches ('*' :: pattern) text ↔
      ∃ taken rest, text = taken ++ rest ∧ WildcardMatches pattern rest := by
  constructor
  · rintro (_ | ⟨taken, h⟩ | _ | _ | ⟨hplain, _⟩)
    · exact ⟨taken, _, rfl, h⟩
    · exact (hplain (by decide)).elim
  · rintro ⟨taken, rest, rfl, h⟩
    exact .run taken h

theorem wildcardMatches_single :
    WildcardMatches ('?' :: pattern) text ↔
      ∃ c rest, text = c :: rest ∧ WildcardMatches pattern rest := by
  constructor
  · rintro (_ | _ | ⟨c, h⟩ | _ | ⟨hplain, _⟩)
    · exact ⟨c, _, rfl, h⟩
    · exact (hplain (by decide)).elim
  · rintro ⟨c, rest, rfl, h⟩
    exact .single c h

theorem wildcardMatches_escaped :
    WildcardMatches ('\\' :: c :: pattern) text ↔
      ∃ rest, text = c :: rest ∧ WildcardMatches pattern rest := by
  constructor
  · rintro (_ | _ | _ | ⟨_, h⟩ | ⟨hplain, _⟩)
    · exact ⟨_, rfl, h⟩
    · exact (hplain (by decide)).elim
  · rintro ⟨rest, rfl, h⟩
    exact .escaped c h

theorem wildcardMatches_literal (hplain : c ∉ ['*', '?', '\\']) :
    WildcardMatches (c :: pattern) text ↔
      ∃ rest, text = c :: rest ∧ WildcardMatches pattern rest := by
  constructor
  · rintro (_ | _ | _ | _ | ⟨_, h⟩)
    · exact (hplain (by decide)).elim
    · exact (hplain (by decide)).elim
    · exact (hplain (by decide)).elim
    · exact ⟨_, rfl, h⟩
  · rintro ⟨rest, rfl, h⟩
    exact .literal hplain h

/-- Each character of the pattern means what it is rewritten to. -/
theorem wildcardMatches_iff (pattern text : List Char) :
    WildcardMatches (pattern.flatMap wildcardUnit) text ↔ LikePattern.Matches pattern text := by
  induction pattern generalizing text with
  | nil => exact wildcardMatches_nil.trans LikePattern.matches_nil.symm
  | cons c pattern ih =>
    rw [List.flatMap_cons]
    by_cases hrun : c = '%'
    · subst hrun
      change WildcardMatches ('*' :: pattern.flatMap wildcardUnit) text ↔ _
      rw [wildcardMatches_run, LikePattern.matches_run]
      simp only [ih]
    · by_cases hsingle : c = '_'
      · subst hsingle
        change WildcardMatches ('?' :: pattern.flatMap wildcardUnit) text ↔ _
        rw [wildcardMatches_single, LikePattern.matches_single]
        simp only [ih]
      · rw [LikePattern.matches_literal hrun hsingle, wildcardUnit, if_neg hrun, if_neg hsingle]
        by_cases hspecial : c = '*' ∨ c = '?' ∨ c = '\\'
        · rw [if_pos hspecial, List.cons_append, List.singleton_append, wildcardMatches_escaped]
          simp only [ih]
        · have hplain : c ∉ ['*', '?', '\\'] := by simpa using hspecial
          rw [if_neg hspecial, List.singleton_append, wildcardMatches_literal hplain]
          simp only [ih]

theorem wildcard_matches (pattern text : String) :
    WildcardMatches (wildcard pattern).toList text.toList ↔
      LikePattern.Matches pattern.toList text.toList := by
  rw [toList_wildcard]
  exact wildcardMatches_iff pattern.toList text.toList

end StoreQuery.Search

namespace StoreQuery

/-- The texts of a field that LIKE accepts. -/
theorem MapStore.test_like_iff (subject pattern : String) (r : MapStore.Record) :
    (MapStore.Predicate.like subject (LikePattern.ofText pattern)).test r = true ↔
      ∃ text, r.get? subject = some (.text text) ∧
        LikePattern.Matches pattern.toList text.toList := by
  simp only [MapStore.Predicate.test]
  cases hfield : r.get? subject with
  | none => simp
  | some field =>
    cases field with
    | text s => simp [MapStore.textAccepted, LikePattern.accepts_ofText]
    | _ => simp [MapStore.textAccepted]

/-- A pattern always becomes a clause of a search, whichever characters it holds, and a predicate on
records unless the engine refuses its expression. The predicate accepts the records whose field is a text
that the pattern matches, and so does the expression that stands for it; the wildcards of the clause match
the same texts. -/
theorem like_agrees [RegexEngine] (subject pattern : String) :
    ∃ regex predicate,
      Expression.ofText? (Expression.ofPattern pattern) = some regex ∧
      MapStore.Predicate.ofComparison ⟨subject, .like, .text pattern⟩ =
        (match RegexEngine.refusal? (Expression.ofPattern pattern) with
          | none => .ok predicate
          | some reason => .error (MapStore.badPattern reason)) ∧
      Search.comparisonClause ⟨subject, .like, .text pattern⟩ = .ok (Search.single "wildcard"
        (Search.single subject (.string (Search.wildcard pattern)))) ∧
      (∀ text : String,
        (regex.Finds text ↔ LikePattern.Matches pattern.toList text.toList) ∧
        (Search.WildcardMatches (Search.wildcard pattern).toList text.toList ↔
          LikePattern.Matches pattern.toList text.toList)) ∧
      ∀ r : MapStore.Record,
        (predicate.test r = true ↔ ∃ text, r.get? subject = some (.text text) ∧
          LikePattern.Matches pattern.toList text.toList) ∧
        (predicate.test r = true ↔ ∃ text, r.get? subject = some (.text text) ∧
          regex.Finds text) ∧
        (predicate.test r = true ↔ ∃ text, r.get? subject = some (.text text) ∧
          Search.WildcardMatches (Search.wildcard pattern).toList text.toList) := by
  obtain ⟨regex, hregex, hfinds⟩ := Expression.exists_finds pattern
  have hpredicate : MapStore.Predicate.ofComparison ⟨subject, .like, .text pattern⟩ =
      (match RegexEngine.refusal? (Expression.ofPattern pattern) with
        | none => .ok (.like subject (LikePattern.ofText pattern))
        | some reason => .error (MapStore.badPattern reason)) := by
    simp only [MapStore.Predicate.ofComparison, Value.text?, MapStore.Predicate.ofPattern]
    split <;> simp only [*]
  refine ⟨regex, _, hregex, hpredicate, rfl, ?_, ?_⟩
  · intro text
    exact ⟨hfinds text, Search.wildcard_matches pattern text⟩
  · intro r
    have htest := MapStore.test_like_iff subject pattern r
    refine ⟨htest, ?_, ?_⟩
    · simp only [hfinds, htest]
    · simp only [Search.wildcard_matches, htest]

end StoreQuery
