import StoreQuery.Cql.Statement
import StoreQuery.Proofs.Cql.Outline
/-!
The text of an outline. It is scanned into the tokens of the outline, whatever names stand in it, and
each question mark among them has its column.
-/
namespace StoreQuery.Cql

section Spelling

def placeText : Option String → String → String
  | none, table => quote table
  | some keyspace, table => quote keyspace ++ ("." ++ quote table)

def relationText (r : String × RelationOp) : String := quote r.1 ++ (" " ++ (r.2.text ++ " ?"))

def orderingText (k : SortKey) : String := quote k.subject ++ (" " ++ directionText k.direction)

def assignmentText (column : String) : String := quote column ++ " = ?"

def clauseText {α : Type} (opening separator : String) (text : α → String) : List α → String
  | [] => ""
  | as => opening ++ separated separator (as.map text)

def countText (opening : String) : Option Nat → String
  | none => ""
  | some n => opening ++ Decimal.ofNat n

def whereText : List (String × RelationOp) → String := clauseText " WHERE " " AND " relationText

def filterText (allowFiltering : Bool) : String :=
  if allowFiltering then " ALLOW FILTERING" else ""

def Outline.text : Outline → String
  | .select keyspace table relations orderings limit allowFiltering =>
    "SELECT * FROM " ++ (placeText keyspace table ++ (whereText relations ++
      (clauseText " ORDER BY " ", " orderingText orderings ++ (countText " LIMIT " limit ++
        filterText allowFiltering))))
  | .insert keyspace table columns ttl =>
    "INSERT INTO " ++ (placeText keyspace table ++ (" (" ++ (separated ", " (columns.map quote) ++
      (") VALUES (" ++ (separated ", " (columns.map fun _ => "?") ++
        (")" ++ countText " USING TTL " ttl))))))
  | .update keyspace table assignments relations =>
    "UPDATE " ++ (placeText keyspace table ++ (" SET " ++
      (separated ", " (assignments.map assignmentText) ++ whereText relations)))
  | .delete keyspace table columns relations =>
    "DELETE" ++ (clauseText " " ", " quote columns ++ (" FROM " ++ (placeText keyspace table ++
      whereText relations)))

theorem parts_blank : Parts [] " " := ⟨⟨_, _, rfl, rfl⟩, closes_of_readAll rfl⟩

theorem parts_comma : Parts [.sign ','] ", " := ⟨⟨_, _, rfl, rfl⟩, closes_of_readAll rfl⟩

theorem parts_marker : Parts [.marker] "?" := ⟨⟨_, _, rfl, rfl⟩, closes_of_readAll rfl⟩

theorem spells_place (keyspace : Option String) (table : String) :
    Spells (placeTokens keyspace table) (placeText keyspace table) := by
  cases keyspace with
  | none => exact spells_quote table
  | some keyspace =>
    have hdot : Parts [.sign '.'] "." := ⟨⟨_, _, rfl, rfl⟩, closes_of_readAll rfl⟩
    exact (spells_quote keyspace).append (hdot.clause (spells_quote table))

theorem spells_relation (r : String × RelationOp) : Spells (relationTokens r) (relationText r) := by
  have hmarker : Parts [.marker] " ?" := ⟨⟨_, _, rfl, rfl⟩, closes_of_readAll rfl⟩
  have hop : Spells [.word r.2.text] r.2.text := by
    apply spells_word
    · cases r.2 <;> decide
    · cases r.2 <;> decide
  exact (spells_quote r.1).append (parts_blank.clause (hop.append hmarker.alone))

theorem spells_ordering (k : SortKey) : Spells (orderingTokens k) (orderingText k) := by
  have hdirection : Spells [.word (directionText k.direction)] (directionText k.direction) := by
    apply spells_word
    · cases k.direction <;> decide
    · cases k.direction <;> decide
  exact (spells_quote k.subject).append (parts_blank.clause hdirection)

theorem spells_assignment (column : String) :
    Spells (assignmentTokens column) (assignmentText column) := by
  have hrest : Parts [.word "=", .marker] " = ?" := ⟨⟨_, _, rfl, rfl⟩, closes_of_readAll rfl⟩
  exact (spells_quote column).append hrest.alone

theorem clause_items {α : Type} {keywords : List Token} {separator : Token} {opening between : String}
    {item : α → List Token} {text : α → String} (hopening : Parts keywords opening)
    (hbetween : Parts [separator] between) (h : ∀ a, Spells (item a) (text a)) (as : List α) :
    Clause (clauseTokens keywords separator item as) (clauseText opening between text as) := by
  cases as with
  | nil => exact clause_empty
  | cons a as => exact hopening.clause (spells_separated hbetween h (a :: as))

theorem clause_where (relations : List (String × RelationOp)) :
    Clause (whereTokens relations) (whereText relations) := by
  have hwhere : Parts [.word "WHERE"] " WHERE " := ⟨⟨_, _, rfl, rfl⟩, closes_of_readAll rfl⟩
  have hand : Parts [.word "AND"] " AND " := ⟨⟨_, _, rfl, rfl⟩, closes_of_readAll rfl⟩
  exact clause_items hwhere hand spells_relation relations

theorem clause_order (orderings : List SortKey) :
    Clause (orderTokens orderings) (clauseText " ORDER BY " ", " orderingText orderings) := by
  have horder : Parts [.word "ORDER", .word "BY"] " ORDER BY " :=
    ⟨⟨_, _, rfl, rfl⟩, closes_of_readAll rfl⟩
  exact clause_items horder parts_comma spells_ordering orderings

theorem clause_columns (columns : List String) :
    Clause (listTokens (.sign ',') (fun c => [.name c]) columns)
      (clauseText " " ", " quote columns) := by
  have hcolumns := clause_items parts_blank parts_comma spells_quote columns
  cases columns with
  | nil => exact hcolumns
  | cons c columns => exact hcolumns

theorem clause_count {keywords : List Token} {opening : String} (h : Parts keywords opening)
    (n : Option Nat) : Clause (countTokens keywords n) (countText opening n) := by
  cases n with
  | none => exact clause_empty
  | some n => exact h.clause (spells_number n)

theorem clause_filter (allowFiltering : Bool) :
    Clause (filterTokens allowFiltering) (filterText allowFiltering) := by
  cases allowFiltering with
  | false => exact clause_empty
  | true =>
    have hallow : Parts [.word "ALLOW"] " ALLOW " := ⟨⟨_, _, rfl, rfl⟩, closes_of_readAll rfl⟩
    have hfiltering : Spells [.word "FILTERING"] "FILTERING" := spells_word (by decide) (by decide)
    exact hallow.clause hfiltering

/-- The text of an outline is scanned into its tokens. -/
theorem Outline.spells (o : Outline) : Spells o.tokens o.text := by
  cases o with
  | select keyspace table relations orderings limit allowFiltering =>
    have hselect : Closes [.word "SELECT", .word "*", .word "FROM"] "SELECT * FROM " :=
      closes_of_readAll rfl
    have hlimit : Parts [.word "LIMIT"] " LIMIT " := ⟨⟨_, _, rfl, rfl⟩, closes_of_readAll rfl⟩
    have hend := (clause_count hlimit limit).append (clause_filter allowFiltering)
    have hclauses := (clause_where relations).append ((clause_order orderings).append hend)
    exact hselect.append ((spells_place keyspace table).append hclauses)
  | insert keyspace table columns ttl =>
    have hinsert : Closes [.word "INSERT", .word "INTO"] "INSERT INTO " := closes_of_readAll rfl
    have hopen : Parts [.sign '('] " (" := ⟨⟨_, _, rfl, rfl⟩, closes_of_readAll rfl⟩
    have hvalues : Parts [.sign ')', .word "VALUES", .sign '('] ") VALUES (" :=
      ⟨⟨_, _, rfl, rfl⟩, closes_of_readAll rfl⟩
    have hclose : Parts [.sign ')'] ")" := ⟨⟨_, _, rfl, rfl⟩, closes_of_readAll rfl⟩
    have husing : Parts [.word "USING", .word "TTL"] " USING TTL " :=
      ⟨⟨_, _, rfl, rfl⟩, closes_of_readAll rfl⟩
    have hnames := spells_separated parts_comma spells_quote columns
    have hmarkers := spells_separated parts_comma (fun _ => parts_marker.alone.spells) columns
    have hend := hclose.clause (clause_count husing ttl).spells
    have hlists := hopen.clause (hnames.append (hvalues.clause (hmarkers.append hend)))
    exact hinsert.append ((spells_place keyspace table).append hlists)
  | update keyspace table assignments relations =>
    have hupdate : Closes [.word "UPDATE"] "UPDATE " := closes_of_readAll rfl
    have hset : Parts [.word "SET"] " SET " := ⟨⟨_, _, rfl, rfl⟩, closes_of_readAll rfl⟩
    have hassignments := spells_separated parts_comma spells_assignment assignments
    have hclauses := hset.clause (hassignments.append (clause_where relations))
    exact hupdate.append ((spells_place keyspace table).append hclauses)
  | delete keyspace table columns relations =>
    have hdelete : Spells [.word "DELETE"] "DELETE" := spells_word (by decide) (by decide)
    have hfrom : Parts [.word "FROM"] " FROM " := ⟨⟨_, _, rfl, rfl⟩, closes_of_readAll rfl⟩
    have hplace := (spells_place keyspace table).append (clause_where relations)
    exact hdelete.append ((clause_columns columns).append (hfrom.clause hplace))

end Spelling

section Markers

/-- The names that stand last before the question marks; the first is the last one before the tokens. -/
def owners : Option String → List Token → List (Option String)
  | _, [] => []
  | _, .name column :: ts => owners (some column) ts
  | last, .marker :: ts => last :: owners last ts
  | last, .sign _ :: ts => owners last ts
  | last, .word _ :: ts => owners last ts

def Outline.marked : Outline → List (Option String)
  | .insert _ _ columns _ => columns.map some
  | o => owners none o.tokens

/-- Tokens whose question marks have the columns, whatever stands around them. -/
def Owns (ts : List Token) (columns : List String) : Prop :=
  ∀ last rest, ∃ next, owners last (ts ++ rest) = columns.map some ++ owners next rest

variable {α : Type} {ts us : List Token} {columns more : List String}

theorem length_owners (last : Option String) (ts : List Token) :
    (owners last ts).length = ts.count .marker := by
  induction ts generalizing last with
  | nil => rfl
  | cons t ts ih =>
    cases t with
    | marker => rw [owners, List.length_cons, ih, List.count_cons_self]
    | name column => rw [owners, ih, List.count_cons_of_ne Token.noConfusion]
    | sign c => rw [owners, ih, List.count_cons_of_ne Token.noConfusion]
    | word w => rw [owners, ih, List.count_cons_of_ne Token.noConfusion]

theorem Owns.append (ht : Owns ts columns) (hu : Owns us more) : Owns (ts ++ us) (columns ++ more) := by
  intro last rest
  obtain ⟨next, hts⟩ := ht last (us ++ rest)
  obtain ⟨after, hus⟩ := hu next rest
  exact ⟨after, by rw [List.append_assoc, hts, hus, List.map_append, List.append_assoc]⟩

theorem Owns.count (h : Owns ts columns) : ts.count .marker = columns.length := by
  obtain ⟨next, hts⟩ := h none []
  rw [List.append_nil, owners, List.append_nil] at hts
  rw [← length_owners none ts, hts, List.length_map]

theorem Owns.owners_eq (h : Owns ts columns) : owners none ts = columns.map some := by
  obtain ⟨next, hts⟩ := h none []
  rwa [List.append_nil, owners, List.append_nil] at hts

theorem owns_list {separator : Token} {item : α → List Token} {columnsOf : α → List String}
    (hseparator : Owns [separator] []) (h : ∀ a, Owns (item a) (columnsOf a)) (as : List α) :
    Owns (listTokens separator item as) (as.flatMap columnsOf) := by
  induction as with
  | nil => exact fun last _ => ⟨last, rfl⟩
  | cons a as ih =>
    cases as with
    | nil =>
      rw [listTokens, List.map_singleton, List.intercalate_singleton, List.flatMap_singleton]
      exact h a
    | cons b as =>
      rw [listTokens, List.map_cons, List.map_cons, List.intercalate_cons_cons, List.flatMap_cons,
        List.append_assoc]
      exact (h a).append (hseparator.append ih)

theorem owns_clause {keywords : List Token} {separator : Token} {item : α → List Token}
    {columnsOf : α → List String} (hkeywords : Owns keywords []) (hseparator : Owns [separator] [])
    (h : ∀ a, Owns (item a) (columnsOf a)) (as : List α) :
    Owns (clauseTokens keywords separator item as) (as.flatMap columnsOf) := by
  cases as with
  | nil => exact fun last _ => ⟨last, rfl⟩
  | cons a as => exact hkeywords.append (owns_list hseparator h (a :: as))

theorem owns_place (keyspace : Option String) (table : String) :
    Owns (placeTokens keyspace table) [] := by
  cases keyspace <;> exact fun _ _ => ⟨some table, rfl⟩

theorem owns_where (relations : List (String × RelationOp)) :
    Owns (whereTokens relations) (relations.map Prod.fst) := by
  have hword (w : String) : Owns [.word w] [] := fun last _ => ⟨last, rfl⟩
  have hitem (r : String × RelationOp) : Owns (relationTokens r) [r.1] :=
    fun _ _ => ⟨some r.1, rfl⟩
  rw [List.map_eq_flatMap]
  exact owns_clause (hword "WHERE") (hword "AND") hitem relations

theorem owns_unmarked {separator : Token} {item : α → List Token} (hseparator : Owns [separator] [])
    (h : ∀ a, Owns (item a) []) (as : List α) : Owns (listTokens separator item as) [] := by
  have hlist := owns_list hseparator h as
  rwa [List.flatMap_eq_nil_iff.mpr fun _ _ => rfl] at hlist

theorem owns_order (orderings : List SortKey) : Owns (orderTokens orderings) [] := by
  cases orderings with
  | nil => exact fun last _ => ⟨last, rfl⟩
  | cons k orderings =>
    have hkeywords : Owns [.word "ORDER", .word "BY"] [] := fun last _ => ⟨last, rfl⟩
    have hitem (k : SortKey) : Owns (orderingTokens k) [] := fun _ _ => ⟨some k.subject, rfl⟩
    exact hkeywords.append (owns_unmarked (fun last _ => ⟨last, rfl⟩) hitem (k :: orderings))

theorem owns_count (w : String) (n : Option Nat) : Owns (countTokens [.word w] n) [] := by
  cases n <;> exact fun last _ => ⟨last, rfl⟩

theorem owns_filter (allowFiltering : Bool) : Owns (filterTokens allowFiltering) [] := by
  cases allowFiltering <;> exact fun last _ => ⟨last, rfl⟩

theorem owns_select (keyspace : Option String) (table : String)
    (relations : List (String × RelationOp)) (orderings : List SortKey) (limit : Option Nat)
    (allowFiltering : Bool) :
    Owns (Outline.select keyspace table relations orderings limit allowFiltering).tokens
      (relations.map Prod.fst) := by
  have hselect : Owns [.word "SELECT", .word "*", .word "FROM"] [] := fun last _ => ⟨last, rfl⟩
  have hend := (owns_count "LIMIT" limit).append (owns_filter allowFiltering)
  have hclauses := (owns_where relations).append ((owns_order orderings).append hend)
  have htokens := hselect.append ((owns_place keyspace table).append hclauses)
  simp only [List.nil_append, List.append_nil] at htokens
  exact htokens

theorem owns_update (keyspace : Option String) (table : String) (assignments : List String)
    (relations : List (String × RelationOp)) :
    Owns (Outline.update keyspace table assignments relations).tokens
      (assignments ++ relations.map Prod.fst) := by
  have hupdate : Owns [.word "UPDATE"] [] := fun last _ => ⟨last, rfl⟩
  have hset : Owns [.word "SET"] [] := fun last _ => ⟨last, rfl⟩
  have hcomma : Owns [.sign ','] [] := fun last _ => ⟨last, rfl⟩
  have hitem (c : String) : Owns (assignmentTokens c) [c] := fun _ _ => ⟨some c, rfl⟩
  have hassignments := owns_list hcomma hitem assignments
  rw [List.flatMap_singleton'] at hassignments
  exact hupdate.append ((owns_place keyspace table).append
    (hset.append (hassignments.append (owns_where relations))))

theorem owns_delete (keyspace : Option String) (table : String) (columns : List String)
    (relations : List (String × RelationOp)) :
    Owns (Outline.delete keyspace table columns relations).tokens (relations.map Prod.fst) := by
  have hdelete : Owns [.word "DELETE"] [] := fun last _ => ⟨last, rfl⟩
  have hfrom : Owns [.word "FROM"] [] := fun last _ => ⟨last, rfl⟩
  have hcolumns : Owns (listTokens (.sign ',') (fun c => [.name c]) columns) [] :=
    owns_unmarked (fun last _ => ⟨last, rfl⟩) (fun c _ _ => ⟨some c, rfl⟩) columns
  exact hdelete.append (hcolumns.append (hfrom.append
    ((owns_place keyspace table).append (owns_where relations))))

theorem count_marker_list (columns : List String) :
    (listTokens (.sign ',') (fun _ => [.marker]) columns).count .marker = columns.length := by
  induction columns with
  | nil => rfl
  | cons c columns ih =>
    cases columns with
    | nil => rfl
    | cons d columns =>
      rw [listTokens, List.map_cons, List.map_cons, List.intercalate_cons_cons, List.count_append,
        List.length_cons, ← ih, Nat.add_comm]
      rfl

/-- The columns of an INSERT have no question marks, and as many question marks follow them. -/
theorem count_insert (keyspace : Option String) (table : String) (columns : List String)
    (ttl : Option Nat) :
    (Outline.insert keyspace table columns ttl).tokens.count .marker = columns.length := by
  have hnames : Owns (listTokens (.sign ',') (fun c => [.name c]) columns) [] :=
    owns_unmarked (fun last _ => ⟨last, rfl⟩) (fun c _ _ => ⟨some c, rfl⟩) columns
  have httl : Owns (countTokens [.word "USING", .word "TTL"] ttl) [] := by
    cases ttl <;> exact fun last _ => ⟨last, rfl⟩
  simp only [Outline.tokens, List.count_append, (owns_place keyspace table).count, hnames.count,
    count_marker_list, httl.count, List.length_nil]
  change 0 + (0 + (0 + (0 + (0 + (columns.length + (0 + 0)))))) = columns.length
  omega

end Markers

end StoreQuery.Cql
