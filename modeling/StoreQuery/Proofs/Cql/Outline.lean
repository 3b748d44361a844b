import Mathlib.Data.List.Basic
import StoreQuery.Proofs.Cql.Tokens
/-!
What a statement says apart from its operands, and the reading of it from the tokens of the statement:
clause after clause, each known by its first word.
-/
namespace StoreQuery.Cql

/-- All that a statement says apart from its operands. -/
inductive Outline where
  | select (keyspace : Option String) (table : String) (relations : List (String × RelationOp))
      (orderings : List SortKey) (limit : Option Nat) (allowFiltering : Bool)
  | insert (keyspace : Option String) (table : String) (columns : List String) (ttl : Option Nat)
  | update (keyspace : Option String) (table : String) (assignments : List String)
      (relations : List (String × RelationOp))
  | delete (keyspace : Option String) (table : String) (columns : List String)
      (relations : List (String × RelationOp))
  deriving DecidableEq

abbrev Reading (α : Type) : Type := List Token → Option (α × List Token)

def RelationOp.ofText? (w : String) : Option RelationOp := RelationOp.all.find? fun op => op.text = w

def direction? (w : String) : Option Direction :=
  [Direction.asc, .desc].find? fun d => directionText d = w

def readPlace : Reading (Option String × String)
  | .name keyspace :: .sign '.' :: .name table :: rest => some ((some keyspace, table), rest)
  | .name table :: rest => some ((none, table), rest)
  | _ => none

def readName : Reading String
  | .name column :: rest => some (column, rest)
  | _ => none

def readMarker : Reading Unit
  | .marker :: rest => some ((), rest)
  | _ => none

def readAssignment : Reading String
  | .name column :: .word "=" :: .marker :: rest => some (column, rest)
  | _ => none

def readRelation : Reading (String × RelationOp)
  | .name column :: .word w :: .marker :: rest =>
    (RelationOp.ofText? w).map fun op => ((column, op), rest)
  | _ => none

def readOrdering : Reading SortKey
  | .name subject :: .word w :: rest => (direction? w).map fun d => (⟨subject, d⟩, rest)
  | _ => none

def readList {α : Type} (item : Reading α) (separator : Token) (tokens : List Token) :
    List α × List Token :=
  match item tokens with
  | none => ([], tokens)
  | some (a, []) => ([a], [])
  | some (a, t :: more) =>
    if t = separator ∧ more.length < tokens.length then
      let (as, rest) := readList item separator more
      (a :: as, rest)
    else ([a], t :: more)
termination_by tokens.length

def readClause {α : Type} (keywords : List Token) (item : Reading α) (separator : Token)
    (tokens : List Token) : List α × List Token :=
  match keywords.isPrefixOf? tokens with
  | some rest => readList item separator rest
  | none => ([], tokens)

def readCount (keywords : List Token) (tokens : List Token) : Option Nat × List Token :=
  match keywords.isPrefixOf? tokens with
  | some (.word w :: rest) =>
    match Decimal.nat? w.toList with
    | some n => (some n, rest)
    | none => (none, tokens)
  | _ => (none, tokens)

def readWhere : List Token → List (String × RelationOp) × List Token :=
  readClause [.word "WHERE"] readRelation (.word "AND")

def readOrder : List Token → List SortKey × List Token :=
  readClause [.word "ORDER", .word "BY"] readOrdering (.sign ',')

namespace Outline

def ofSelect? (tokens : List Token) : Option Outline := do
  let rest ← [Token.word "SELECT", .word "*", .word "FROM"].isPrefixOf? tokens
  let ((keyspace, table), rest) ← readPlace rest
  let (relations, rest) := readWhere rest
  let (orderings, rest) := readOrder rest
  let (limit, rest) := readCount [.word "LIMIT"] rest
  if rest = [] then some (.select keyspace table relations orderings limit false)
  else if rest = [.word "ALLOW", .word "FILTERING"] then
    some (.select keyspace table relations orderings limit true)
  else none

def ofInsert? (tokens : List Token) : Option Outline := do
  let rest ← [Token.word "INSERT", .word "INTO"].isPrefixOf? tokens
  let ((keyspace, table), rest) ← readPlace rest
  let rest ← [Token.sign '('].isPrefixOf? rest
  let (columns, rest) := readList readName (.sign ',') rest
  let rest ← [Token.sign ')', .word "VALUES", .sign '('].isPrefixOf? rest
  let (markers, rest) := readList readMarker (.sign ',') rest
  let rest ← [Token.sign ')'].isPrefixOf? rest
  let (ttl, rest) := readCount [.word "USING", .word "TTL"] rest
  if rest = [] ∧ markers.length = columns.length then some (.insert keyspace table columns ttl)
  else none

def ofUpdate? (tokens : List Token) : Option Outline := do
  let rest ← [Token.word "UPDATE"].isPrefixOf? tokens
  let ((keyspace, table), rest) ← readPlace rest
  let rest ← [Token.word "SET"].isPrefixOf? rest
  let (assignments, rest) := readList readAssignment (.sign ',') rest
  let (relations, rest) := readWhere rest
  if rest = [] then some (.update keyspace table assignments relations) else none

def ofDelete? (tokens : List Token) : Option Outline := do
  let rest ← [Token.word "DELETE"].isPrefixOf? tokens
  let (columns, rest) := readList readName (.sign ',') rest
  let rest ← [Token.word "FROM"].isPrefixOf? rest
  let ((keyspace, table), rest) ← readPlace rest
  let (relations, rest) := readWhere rest
  if rest = [] then some (.delete keyspace table columns relations) else none

def ofTokens? (tokens : List Token) : Option Outline :=
  ofSelect? tokens <|> ofInsert? tokens <|> ofUpdate? tokens <|> ofDelete? tokens

def ofText? (text : String) : Option Outline := (tokens? text).bind ofTokens?

end Outline

section Spelling

def placeTokens : Option String → String → List Token
  | none, table => [.name table]
  | some keyspace, table => [.name keyspace, .sign '.', .name table]

def relationTokens (r : String × RelationOp) : List Token := [.name r.1, .word r.2.text, .marker]

def orderingTokens (k : SortKey) : List Token := [.name k.subject, .word (directionText k.direction)]

def assignmentTokens (column : String) : List Token := [.name column, .word "=", .marker]

def listTokens {α : Type} (separator : Token) (item : α → List Token) (as : List α) : List Token :=
  [separator].intercalate (as.map item)

def clauseTokens {α : Type} (keywords : List Token) (separator : Token) (item : α → List Token) :
    List α → List Token
  | [] => []
  | as => keywords ++ listTokens separator item as

def countTokens (keywords : List Token) : Option Nat → List Token
  | none => []
  | some n => keywords ++ [.word (Decimal.ofNat n)]

def whereTokens : List (String × RelationOp) → List Token :=
  clauseTokens [.word "WHERE"] (.word "AND") relationTokens

def orderTokens : List SortKey → List Token :=
  clauseTokens [.word "ORDER", .word "BY"] (.sign ',') orderingTokens

def filterTokens (allowFiltering : Bool) : List Token :=
  if allowFiltering then [.word "ALLOW", .word "FILTERING"] else []

namespace Outline

def tokens : Outline → List Token
  | .select keyspace table relations orderings limit allowFiltering =>
    [.word "SELECT", .word "*", .word "FROM"] ++ (placeTokens keyspace table ++
      (whereTokens relations ++ (orderTokens orderings ++ (countTokens [.word "LIMIT"] limit ++
        filterTokens allowFiltering))))
  | .insert keyspace table columns ttl =>
    [.word "INSERT", .word "INTO"] ++ (placeTokens keyspace table ++ ([.sign '('] ++
      (listTokens (.sign ',') (fun c => [.name c]) columns ++
        ([.sign ')', .word "VALUES", .sign '('] ++
          (listTokens (.sign ',') (fun _ => [.marker]) columns ++
            ([.sign ')'] ++ countTokens [.word "USING", .word "TTL"] ttl))))))
  | .update keyspace table assignments relations =>
    [.word "UPDATE"] ++ (placeTokens keyspace table ++ ([.word "SET"] ++
      (listTokens (.sign ',') assignmentTokens assignments ++ whereTokens relations)))
  | .delete keyspace table columns relations =>
    [.word "DELETE"] ++ (listTokens (.sign ',') (fun c => [.name c]) columns ++ ([.word "FROM"] ++
      (placeTokens keyspace table ++ whereTokens relations)))

end Outline

end Spelling

section Reading

variable {α : Type} {rest : List Token} {words : List String}

/-- Tokens that are none, or begin with one of the words. -/
def Opens (words : List String) (ts : List Token) : Prop := ∀ t ∈ ts.head?, ∃ w ∈ words, t = .word w

theorem Opens.append {ts us : List Token} (ht : Opens words ts) (hu : Opens words us) :
    Opens words (ts ++ us) := by
  cases ts with
  | nil => exact hu
  | cons t ts => exact ht

theorem Opens.mono {ts : List Token} {more : List String} (h : Opens words ts)
    (hsub : words ⊆ more) : Opens more ts := by
  intro t ht
  obtain ⟨w, hw, heq⟩ := h t ht
  exact ⟨w, hsub hw, heq⟩

theorem opens_clause (w : String) (keywords : List Token) (separator : Token)
    (item : α → List Token) (as : List α) :
    Opens [w] (clauseTokens (.word w :: keywords) separator item as) := by
  cases as with
  | nil =>
    intro t ht
    cases ht
  | cons a as =>
    rintro t ⟨⟩
    exact ⟨w, List.mem_singleton_self w, rfl⟩

theorem opens_where (relations : List (String × RelationOp)) :
    Opens ["WHERE"] (whereTokens relations) :=
  opens_clause "WHERE" _ _ _ relations

theorem opens_order (orderings : List SortKey) : Opens ["ORDER"] (orderTokens orderings) :=
  opens_clause "ORDER" _ _ _ orderings

theorem opens_count (w : String) (keywords : List Token) (n : Option Nat) :
    Opens [w] (countTokens (.word w :: keywords) n) := by
  cases n with
  | none =>
    intro t ht
    cases ht
  | some n =>
    rintro t ⟨⟩
    exact ⟨w, List.mem_singleton_self w, rfl⟩

theorem opens_filter (allowFiltering : Bool) : Opens ["ALLOW"] (filterTokens allowFiltering) := by
  cases allowFiltering with
  | false =>
    intro t ht
    cases ht
  | true =>
    rintro t ⟨⟩
    exact ⟨"ALLOW", List.mem_singleton_self _, rfl⟩

theorem Opens.head_ne_word {w : String} (h : Opens words rest) (hw : w ∉ words) :
    rest.head? ≠ some (.word w) := by
  intro hhead
  obtain ⟨v, hv, heq⟩ := h (.word w) hhead
  cases heq
  exact hw hv

theorem Opens.head_ne_sign (h : Opens words rest) (c : Char) : rest.head? ≠ some (.sign c) := by
  intro hhead
  obtain ⟨w, -, heq⟩ := h (.sign c) hhead
  cases heq

theorem isPrefixOf?_keywords (keywords rest : List Token) :
    keywords.isPrefixOf? (keywords ++ rest) = some rest :=
  List.isPrefixOf?_eq_some_iff_append_eq.mpr rfl

theorem isPrefixOf?_of_head_ne {t : Token} {keywords : List Token} (h : rest.head? ≠ some t) :
    (t :: keywords).isPrefixOf? rest = none := by
  cases rest with
  | nil => rfl
  | cons u rest =>
    have hne : t ≠ u := by
      rintro rfl
      exact h rfl
    simp [List.isPrefixOf?, hne]

theorem readPlace_tokens (keyspace : Option String) (table : String)
    (h : rest.head? ≠ some (.sign '.')) :
    readPlace (placeTokens keyspace table ++ rest) = some ((keyspace, table), rest) := by
  cases keyspace with
  | some keyspace => rfl
  | none =>
    cases rest with
    | nil => rfl
    | cons t rest =>
      simp only [placeTokens, List.singleton_append]
      unfold readPlace
      split
      · rename_i heq
        cases heq
        exact (h rfl).elim
      · rename_i heq
        cases heq
        rfl
      · rename_i hnone
        exact (hnone _ _ rfl).elim

/-- A list is read to its end. -/
theorem readList_tokens {item : Reading α} {spelled : α → List Token} {separator : Token}
    (hitem : ∀ a rest, item (spelled a ++ rest) = some (a, rest)) (hnone : item rest = none)
    (hstop : rest.head? ≠ some separator) (as : List α) :
    readList item separator (listTokens separator spelled as ++ rest) = (as, rest) := by
  induction as with
  | nil =>
    rw [readList]
    simp only [listTokens, List.map_nil, List.intercalate_nil, List.nil_append, hnone]
  | cons a as ih =>
    cases as with
    | nil =>
      rw [readList]
      simp only [listTokens, List.map_cons, List.map_nil, List.intercalate_singleton, hitem]
      cases rest with
      | nil => rfl
      | cons t more =>
        have hne : t ≠ separator := by
          rintro rfl
          exact hstop rfl
        simp only [hne, false_and, if_false]
    | cons b as =>
      have hspelled : listTokens separator spelled (a :: b :: as) ++ rest =
          spelled a ++ separator :: (listTokens separator spelled (b :: as) ++ rest) := by
        simp only [listTokens, List.map_cons, List.intercalate_cons_cons, List.append_assoc,
          List.cons_append, List.nil_append]
      have hshorter : (listTokens separator spelled (b :: as) ++ rest).length <
          (spelled a ++ separator :: (listTokens separator spelled (b :: as) ++ rest)).length := by
        rw [List.length_append, List.length_append, List.length_cons, List.length_append]
        omega
      rw [hspelled, readList, hitem]
      dsimp only
      rw [if_pos ⟨rfl, hshorter⟩, ih]

theorem readClause_tokens {item : Reading α} {spelled : α → List Token} {separator : Token}
    {w : String} {keywords : List Token}
    (hitem : ∀ a rest, item (spelled a ++ rest) = some (a, rest)) (hnone : item rest = none)
    (hstop : rest.head? ≠ some separator) (hnext : rest.head? ≠ some (.word w)) (as : List α) :
    readClause (.word w :: keywords) item separator
      (clauseTokens (.word w :: keywords) separator spelled as ++ rest) = (as, rest) := by
  cases as with
  | nil => rw [clauseTokens, List.nil_append, readClause, isPrefixOf?_of_head_ne hnext]
  | cons a as =>
    rw [clauseTokens, List.append_assoc, readClause, isPrefixOf?_keywords]
    · exact readList_tokens hitem hnone hstop (a :: as)
    · exact List.cons_ne_nil a as

theorem readCount_tokens (w : String) (keywords : List Token) (hnext : rest.head? ≠ some (.word w))
    (n : Option Nat) :
    readCount (.word w :: keywords) (countTokens (.word w :: keywords) n ++ rest) = (n, rest) := by
  cases n with
  | none => rw [countTokens, List.nil_append, readCount, isPrefixOf?_of_head_ne hnext]
  | some n =>
    rw [countTokens, List.append_assoc, readCount, isPrefixOf?_keywords]
    simp only [List.singleton_append, Decimal.ofNat, String.toList_ofList, Decimal.nat?_digits]

theorem readCount_last (w : String) (keywords : List Token) (n : Option Nat) :
    readCount (.word w :: keywords) (countTokens (.word w :: keywords) n) = (n, []) := by
  have hend : ([] : List Token).head? ≠ some (.word w) := by simp
  have hread := readCount_tokens w keywords hend n
  rwa [List.append_nil] at hread

/-- Where no name begins there is no item of a clause. -/
theorem Opens.not_item (h : Opens words rest) :
    readRelation rest = none ∧ readOrdering rest = none ∧ readAssignment rest = none := by
  cases rest with
  | nil => exact ⟨rfl, rfl, rfl⟩
  | cons t rest =>
    obtain ⟨w, -, rfl⟩ := h t rfl
    exact ⟨rfl, rfl, rfl⟩

theorem readRelation_tokens (r : String × RelationOp) (rest : List Token) :
    readRelation (relationTokens r ++ rest) = some (r, rest) := by
  obtain ⟨column, op⟩ := r
  cases op <;> rfl

theorem readOrdering_tokens (k : SortKey) (rest : List Token) :
    readOrdering (orderingTokens k ++ rest) = some (k, rest) := by
  obtain ⟨subject, direction⟩ := k
  cases direction <;> rfl

theorem readWhere_tokens (h : Opens words rest) (hand : "AND" ∉ words) (hwhere : "WHERE" ∉ words)
    (relations : List (String × RelationOp)) :
    readWhere (whereTokens relations ++ rest) = (relations, rest) :=
  readClause_tokens readRelation_tokens h.not_item.1 (h.head_ne_word hand) (h.head_ne_word hwhere)
    relations

theorem readWhere_last (relations : List (String × RelationOp)) :
    readWhere (whereTokens relations) = (relations, []) := by
  have hend : Opens [] [] := by
    intro t ht
    cases ht
  have hread := readWhere_tokens hend List.not_mem_nil List.not_mem_nil relations
  rwa [List.append_nil] at hread

theorem readOrder_tokens (h : Opens words rest) (horder : "ORDER" ∉ words)
    (orderings : List SortKey) : readOrder (orderTokens orderings ++ rest) = (orderings, rest) :=
  readClause_tokens readOrdering_tokens h.not_item.2.1 (h.head_ne_sign ',') (h.head_ne_word horder)
    orderings

theorem readNames_tokens (hnone : readName rest = none) (hstop : rest.head? ≠ some (.sign ','))
    (columns : List String) :
    readList readName (.sign ',') (listTokens (.sign ',') (fun c => [.name c]) columns ++ rest) =
      (columns, rest) :=
  readList_tokens (fun _ _ => rfl) hnone hstop columns

/-- One question mark for each column. -/
theorem readMarkers_tokens (hnone : readMarker rest = none) (hstop : rest.head? ≠ some (.sign ','))
    (columns : List String) :
    readList readMarker (.sign ',') (listTokens (.sign ',') (fun _ => [.marker]) columns ++ rest) =
      (columns.map fun _ => (), rest) := by
  have hmap : listTokens (.sign ',') (fun _ => [.marker]) columns =
      listTokens (.sign ',') (fun _ => [.marker]) (columns.map fun _ => ()) := by
    rw [listTokens, listTokens, List.map_map]
    rfl
  rw [hmap]
  exact readList_tokens (fun _ _ => rfl) hnone hstop _

end Reading

namespace Outline

variable {keyspace : Option String} {table : String} {relations : List (String × RelationOp)}

theorem ofSelect?_tokens (orderings : List SortKey) (limit : Option Nat) (allowFiltering : Bool) :
    ofSelect? (tokens (.select keyspace table relations orderings limit allowFiltering)) =
      some (.select keyspace table relations orderings limit allowFiltering) := by
  have hfilter := opens_filter allowFiltering
  have hlimit : Opens ["LIMIT", "ALLOW"] (countTokens [.word "LIMIT"] limit ++ _) :=
    ((opens_count "LIMIT" [] limit).mono (by simp)).append (hfilter.mono (by simp))
  have horder : Opens ["ORDER", "LIMIT", "ALLOW"] (orderTokens orderings ++ _) :=
    ((opens_order orderings).mono (by simp)).append (hlimit.mono (by simp))
  have hwhere : Opens ["WHERE", "ORDER", "LIMIT", "ALLOW"] (whereTokens relations ++ _) :=
    ((opens_where relations).mono (by simp)).append (horder.mono (by simp))
  have hread_place := readPlace_tokens keyspace table (hwhere.head_ne_sign '.')
  have hread_where := readWhere_tokens horder (by simp) (by simp) relations
  have hread_order := readOrder_tokens hlimit (by simp) orderings
  have hread_limit := readCount_tokens "LIMIT" [] (hfilter.head_ne_word (by simp)) limit
  rw [ofSelect?, tokens, isPrefixOf?_keywords]
  simp only [Option.bind_eq_bind, Option.bind_some, hread_place, hread_where, hread_order,
    hread_limit]
  cases allowFiltering <;> rfl

theorem ofInsert?_tokens (columns : List String) (ttl : Option Nat) :
    ofInsert? (tokens (.insert keyspace table columns ttl)) =
      some (.insert keyspace table columns ttl) := by
  rw [ofInsert?, tokens, isPrefixOf?_keywords]
  simp only [Option.bind_eq_bind, Option.bind_some]
  rw [readPlace_tokens keyspace table (by simp)]
  simp only [Option.bind_some, isPrefixOf?_keywords]
  rw [readNames_tokens rfl (by simp)]
  simp only [Option.bind_some, isPrefixOf?_keywords]
  rw [readMarkers_tokens rfl (by simp)]
  simp only [Option.bind_some, isPrefixOf?_keywords, readCount_last, List.length_map, and_self,
    if_true]

theorem ofUpdate?_tokens (assignments : List String) :
    ofUpdate? (tokens (.update keyspace table assignments relations)) =
      some (.update keyspace table assignments relations) := by
  have hwhere := opens_where relations
  rw [ofUpdate?, tokens, isPrefixOf?_keywords]
  simp only [Option.bind_eq_bind, Option.bind_some]
  rw [readPlace_tokens keyspace table (by simp)]
  simp only [Option.bind_some, isPrefixOf?_keywords]
  rw [readList_tokens (fun _ _ => rfl) hwhere.not_item.2.2 (hwhere.head_ne_sign ',')]
  simp only [readWhere_last, if_true]

theorem ofDelete?_tokens (columns : List String) :
    ofDelete? (tokens (.delete keyspace table columns relations)) =
      some (.delete keyspace table columns relations) := by
  rw [ofDelete?, tokens, isPrefixOf?_keywords]
  simp only [Option.bind_eq_bind, Option.bind_some]
  rw [readNames_tokens rfl (by simp)]
  simp only [Option.bind_some, isPrefixOf?_keywords]
  rw [readPlace_tokens keyspace table ((opens_where relations).head_ne_sign '.')]
  simp only [Option.bind_some, readWhere_last, if_true]

/-- The first word of a statement tells its kind. -/
theorem ofTokens?_tokens (o : Outline) : ofTokens? o.tokens = some o := by
  cases o with
  | select keyspace table relations orderings limit allowFiltering =>
    rw [ofTokens?, ofSelect?_tokens]
    rfl
  | insert keyspace table columns ttl =>
    rw [ofTokens?, ofInsert?_tokens]
    rfl
  | update keyspace table assignments relations =>
    rw [ofTokens?, ofUpdate?_tokens]
    rfl
  | delete keyspace table columns relations =>
    rw [ofTokens?, ofDelete?_tokens]
    rfl

end Outline

end StoreQuery.Cql
