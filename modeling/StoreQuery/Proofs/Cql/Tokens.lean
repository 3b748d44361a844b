import StoreQuery.Cql.Statement
import StoreQuery.Proofs.Number.Decimal
/-!
Scanning the text of a statement. From left to right a double-quoted span, with its doubled quotes read
once, is one name; question marks, signs and words stand between the names. What a name holds never
reaches the tokens around it.
-/
namespace StoreQuery.Cql

inductive Token where
  | name (identifier : String)
  /-- A question mark, in the place of an operand. -/
  | marker
  | sign (c : Char)
  | word (w : String)
  deriving DecidableEq

/-- The characters that end a word and need no blank around them. -/
def divides (c : Char) : Bool := c ∈ [' ', '?', '(', ')', ',', '.']

def isPlain (c : Char) : Bool := c ≠ '"' ∧ divides c = false

inductive Open where
  | nothing
  | word (w : List Char)
  | name (identifier : List Char)
  /-- A quote inside a name; the name is over unless another quote follows. -/
  | quote (identifier : List Char)

def divider (c : Char) : List Token :=
  if c = ' ' then [] else if c = '?' then [.marker] else [.sign c]

/-- The tokens that a character makes when nothing is open, and what it opens. -/
def begins (c : Char) : List Token × Open :=
  if c = '"' then ([], .name [])
  else if divides c then (divider c, .nothing)
  else ([], .word [c])

namespace Open

def read : Open → Char → List Token × Open
  | .nothing, c => begins c
  | .word w, c =>
    if isPlain c then ([], .word (w ++ [c]))
    else (.word (String.ofList w) :: (begins c).1, (begins c).2)
  | .name s, c => if c = '"' then ([], .quote s) else ([], .name (s ++ [c]))
  | .quote s, c =>
    if c = '"' then ([], .name (s ++ ['"']))
    else (.name (String.ofList s) :: (begins c).1, (begins c).2)

def readAll : Open → List Char → List Token × Open
  | o, [] => ([], o)
  | o, c :: cs => ((o.read c).1 ++ ((o.read c).2.readAll cs).1, ((o.read c).2.readAll cs).2)

/-- A name that is not closed is no name. -/
def finish : Open → Option (List Token)
  | .nothing => some []
  | .word w => some [.word (String.ofList w)]
  | .name _ => none
  | .quote s => some [.name (String.ofList s)]

end Open

def scan : Open → List Char → Option (List Token)
  | o, [] => o.finish
  | o, c :: cs => (scan (o.read c).2 cs).map ((o.read c).1 ++ ·)

def tokens? (text : String) : Option (List Token) := scan .nothing text.toList

/-- What may follow a name or a word. -/
def Apart (text : List Char) : Prop := ∀ c ∈ text.head?, divides c = true

def Spells (ts : List Token) (text : String) : Prop :=
  ∀ rest, Apart rest →
    scan .nothing (text.toList ++ rest) = (scan .nothing rest).map (ts ++ ·)

def Closes (ts : List Token) (text : String) : Prop :=
  ∀ rest, scan .nothing (text.toList ++ rest) = (scan .nothing rest).map (ts ++ ·)

/-- A text that reads as the tokens between any two others. -/
structure Parts (ts : List Token) (text : String) : Prop where
  starts : ∃ c cs, text.toList = c :: cs ∧ divides c = true
  closes : Closes ts text

structure Clause (ts : List Token) (text : String) : Prop where
  spells : Spells ts text
  apart : Apart text.toList

section

variable {ts us : List Token} {a b separator : String} {rest : List Char}

theorem map_append (x : Option (List Token)) (ts us : List Token) :
    (x.map (us ++ ·)).map (ts ++ ·) = x.map (ts ++ us ++ ·) := by
  rw [Option.map_map]
  congr 1
  funext t
  exact (List.append_assoc ts us t).symm

theorem begins_of_divides {c : Char} (h : divides c = true) : begins c = (divider c, .nothing) := by
  have hquote : c ≠ '"' := by
    rintro rfl
    exact Bool.noConfusion h
  rw [begins, if_neg hquote, if_pos h]

theorem scan_of_divides {c : Char} (h : divides c = true) (cs : List Char) :
    scan .nothing (c :: cs) = (scan .nothing cs).map (divider c ++ ·) := by
  rw [scan, Open.read, begins_of_divides h]

/-- A divider closes what is open. -/
theorem scan_word_apart (w : List Char) (h : Apart rest) :
    scan (.word w) rest = (scan .nothing rest).map ([.word (String.ofList w)] ++ ·) := by
  cases rest with
  | nil => rfl
  | cons c cs =>
    have hc : divides c = true := h c rfl
    have hplain : isPlain c = false := by simp [isPlain, hc]
    rw [scan_of_divides hc, map_append, scan, Open.read, hplain, begins_of_divides hc]
    rfl

theorem scan_quote_apart (s : List Char) (h : Apart rest) :
    scan (.quote s) rest = (scan .nothing rest).map ([.name (String.ofList s)] ++ ·) := by
  cases rest with
  | nil => rfl
  | cons c cs =>
    have hc : divides c = true := h c rfl
    have hquote : c ≠ '"' := by
      rintro rfl
      exact Bool.noConfusion hc
    rw [scan_of_divides hc, map_append, scan, Open.read, if_neg hquote, begins_of_divides hc]
    rfl

theorem scan_word (w read rest : List Char) (h : w.all isPlain = true) :
    scan (.word read) (w ++ rest) = scan (.word (read ++ w)) rest := by
  induction w generalizing read with
  | nil => rw [List.append_nil, List.nil_append]
  | cons c w ih =>
    rw [List.all_cons, Bool.and_eq_true] at h
    rw [List.cons_append, scan, Open.read, if_pos h.1]
    dsimp only
    rw [ih (read ++ [c]) h.2, List.append_assoc, List.singleton_append]
    exact Option.map_id'

/-- Whatever stands in a name, the scan stays in it. -/
theorem scan_name (s read rest : List Char) :
    scan (.name read) ((s.flatMap fun c => if c = '"' then ['"', '"'] else [c]) ++ rest) =
      scan (.name (read ++ s)) rest := by
  induction s generalizing read with
  | nil => rw [List.append_nil, List.flatMap_nil, List.nil_append]
  | cons c s ih =>
    have hread := ih (read ++ [c])
    rw [List.append_assoc, List.singleton_append] at hread
    rw [List.flatMap_cons, List.append_assoc, ← hread]
    by_cases hc : c = '"'
    · subst hc
      rw [if_pos rfl]
      exact Option.map_id'.trans Option.map_id'
    · rw [if_neg hc, List.singleton_append, scan, Open.read, if_neg hc]
      exact Option.map_id'

theorem spells_quote (identifier : String) : Spells [.name identifier] (quote identifier) := by
  intro rest h
  have hbody := scan_name identifier.toList [] (['"'] ++ rest)
  rw [quote, String.toList_ofList, List.cons_append, List.append_assoc, scan]
  simp only [Open.read, begins, if_true]
  rw [hbody, List.nil_append, List.singleton_append, scan, Open.read, if_pos rfl]
  simp only [List.nil_append, Option.map_id']
  rw [scan_quote_apart identifier.toList h, String.ofList_toList]

theorem spells_word {w : String} (hne : w.toList ≠ []) (h : w.toList.all isPlain = true) :
    Spells [.word w] w := by
  intro rest hrest
  obtain ⟨c, cs, hw⟩ := List.exists_cons_of_ne_nil hne
  rw [hw, List.all_cons, Bool.and_eq_true] at h
  have hc : c ≠ '"' ∧ divides c = false := by simpa [isPlain] using h.1
  have hword := scan_word cs [c] rest h.2
  rw [hw, List.cons_append, scan, Open.read, begins, if_neg hc.1, hc.2]
  simp only [Bool.false_eq_true, if_false, List.nil_append, Option.map_id']
  rw [hword, List.singleton_append, scan_word_apart _ hrest, ← hw, String.ofList_toList]

theorem spells_empty : Spells [] "" := by
  intro rest _
  exact Option.map_id'.symm

theorem scan_append (o : Open) (cs rest : List Char) :
    scan o (cs ++ rest) = (scan (o.readAll cs).2 rest).map ((o.readAll cs).1 ++ ·) := by
  induction cs generalizing o with
  | nil => exact Option.map_id'.symm
  | cons c cs ih => rw [List.cons_append, scan, ih, map_append, Open.readAll]

theorem closes_of_readAll (h : Open.nothing.readAll a.toList = (ts, .nothing)) : Closes ts a := by
  intro rest
  rw [scan_append, h]

theorem Closes.append (ha : Closes ts a) (hb : Spells us b) : Spells (ts ++ us) (a ++ b) := by
  intro rest h
  rw [String.toList_append, List.append_assoc, ha, hb rest h, map_append]

theorem Apart.append {text : List Char} (ha : Apart text) (hrest : Apart rest) :
    Apart (text ++ rest) := by
  cases text with
  | nil => exact hrest
  | cons c cs => exact ha

theorem Parts.apart (h : Parts ts a) (rest : List Char) : Apart (a.toList ++ rest) := by
  obtain ⟨c, cs, hstart, hc⟩ := h.starts
  rw [hstart]
  rintro d ⟨⟩
  exact hc

/-- What follows a divider is a clause with it. -/
theorem Parts.clause (ha : Parts ts a) (hb : Spells us b) : Clause (ts ++ us) (a ++ b) := by
  refine ⟨ha.closes.append hb, ?_⟩
  rw [String.toList_append]
  exact ha.apart b.toList

theorem Parts.alone (h : Parts ts a) : Clause ts a := by
  have hclause := h.clause spells_empty
  rwa [List.append_nil, String.append_empty] at hclause

theorem clause_empty : Clause [] "" := by
  refine ⟨spells_empty, ?_⟩
  rintro c ⟨⟩

theorem Spells.append (ha : Spells ts a) (hb : Clause us b) : Spells (ts ++ us) (a ++ b) := by
  intro rest h
  rw [String.toList_append, List.append_assoc, ha _ (hb.apart.append h), hb.spells rest h, map_append]

theorem Clause.append (ha : Clause ts a) (hb : Clause us b) : Clause (ts ++ us) (a ++ b) := by
  refine ⟨ha.spells.append hb, ?_⟩
  rw [String.toList_append]
  exact ha.apart.append hb.apart

theorem spells_separated {α : Type} {spelled : α → List Token} {text : α → String}
    (hs : Parts us separator) (h : ∀ a, Spells (spelled a) (text a)) (as : List α) :
    Spells (us.intercalate (as.map spelled)) (separated separator (as.map text)) := by
  induction as with
  | nil => exact spells_empty
  | cons a as ih =>
    cases as with
    | nil =>
      rw [List.map_singleton, List.map_singleton, List.intercalate_singleton]
      exact h a
    | cons b as =>
      have htext : separated separator ((a :: b :: as).map text) =
          text a ++ (separator ++ separated separator ((b :: as).map text)) := String.append_assoc
      rw [htext, List.map_cons, List.map_cons, List.intercalate_cons_cons, List.append_assoc]
      exact (h a).append (hs.clause ih)

theorem Spells.tokens (h : Spells ts a) : tokens? a = some ts := by
  have hend : Apart [] := by
    intro c hc
    cases hc
  have hscan := h [] hend
  rw [List.append_nil] at hscan
  rw [tokens?, hscan, scan, Open.finish, Option.map_some, List.append_nil]

theorem spells_number (n : Nat) : Spells [.word (Decimal.ofNat n)] (Decimal.ofNat n) := by
  apply spells_word
  · rw [Decimal.ofNat, String.toList_ofList]
    exact Decimal.digits_ne_nil n
  · rw [Decimal.ofNat, String.toList_ofList, List.all_eq_true]
    intro c hc
    have hdigit := Decimal.isDigit_of_mem_digits hc
    have hquote : c ≠ '"' := by
      rintro rfl
      exact Bool.noConfusion hdigit
    have hdivides : divides c = false := by
      rw [divides, decide_eq_false_iff_not]
      intro hmem
      simp only [List.mem_cons, List.not_mem_nil, or_false] at hmem
      rcases hmem with rfl | rfl | rfl | rfl | rfl | rfl <;> exact Bool.noConfusion hdigit
    simp [isPlain, hquote, hdivides]

end

end StoreQuery.Cql
