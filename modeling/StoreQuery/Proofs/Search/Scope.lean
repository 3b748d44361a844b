import StoreQuery.Proofs.Search.Truth
import StoreQuery.Proofs.Step
import StoreQuery.Proofs.Verdict
/-!
Queries stay in their collection. What a search or a removal asks for is the name of the collection and
the condition, read comparison by comparison, so that no condition reaches the documents of another
collection.
-/
namespace StoreQuery.Search

def boundName? : Operator → Option String
  | .greater => some "gt"
  | .greaterEqual => some "gte"
  | .lesser => some "lt"
  | .lesserEqual => some "lte"
  | _ => none

inductive ClauseOf : Comparison → Json → Prop where
  | equal {subject : String} {operand : Value} {j : Json} :
      jsonOf operand = .ok j →
      ClauseOf ⟨subject, .equal, operand⟩ (single "term" (single subject j))
  | bound {subject : String} {operator : Operator} {operand : Value} {name : String} {j : Json} :
      boundName? operator = some name → jsonOf operand = .ok j →
      ClauseOf ⟨subject, operator, operand⟩ (single "range" (single subject (single name j)))
  | between {subject : String} {lower upper : Value} {low high : Json} :
      jsonOf lower = .ok low → jsonOf upper = .ok high →
      ClauseOf ⟨subject, .between, .sequence [lower, upper]⟩
        (single "range" (single subject (.object [("gte", low), ("lte", high)])))
  | oneOf {subject : String} {operand : Value} {j : Json} :
      jsonOf operand = .ok j →
      ClauseOf ⟨subject, .oneOf, operand⟩ (single "terms" (single subject j))
  | like {subject pattern : String} :
      ClauseOf ⟨subject, .like, .text pattern⟩
        (single "wildcard" (single subject (.string (wildcard pattern))))

def Answered (oracle : Json → Bool) (c : Comparison) : Prop :=
  ∃ clause, ClauseOf c clause ∧ oracle clause = true

def scopeClause (collection : String) : Json :=
  single "term" (single entityField (.string collection))

section Leaf

variable {c : Comparison} {clause : Json} {oracle : Json → Bool}

theorem map_within_eq_ok {name : String} {r : Except QueryError Json} {f : Json → Json} :
    (QueryError.within name r).map f = .ok clause ↔ ∃ j, r = .ok j ∧ f j = clause := by
  cases r <;> simp [QueryError.within, Except.mapError, Except.map]

theorem ofFields_bounds (low high : Json) :
    Json.ofFields [("gte", low), ("lte", high)] = .object [("gte", low), ("lte", high)] := by
  have h : compare "lte" "gte" = .gt := by decide
  simp only [Json.ofFields, Json.Fields.ofList, List.foldl_cons, List.foldl_nil, Json.Fields.put, h]

theorem comparisonClause_of_clauseOf (h : ClauseOf c clause) : comparisonClause c = .ok clause := by
  cases h with
  | equal h => exact map_within_eq_ok.mpr ⟨_, h, rfl⟩
  | @bound _ operator _ _ _ hname h =>
    cases operator <;> cases hname <;> exact map_within_eq_ok.mpr ⟨_, h, rfl⟩
  | between hlow hhigh =>
    simp only [comparisonClause, Comparison.bounds?, QueryError.within_eq_ok.mpr hlow,
      QueryError.within_eq_ok.mpr hhigh, ← ofFields_bounds]
    rfl
  | oneOf h => exact map_within_eq_ok.mpr ⟨_, h, rfl⟩
  | like => rfl

theorem operand_of_bounds {subject : String} {operand lower upper : Value}
    (h : Comparison.bounds? ⟨subject, .between, operand⟩ = some (lower, upper)) :
    operand = .sequence [lower, upper] := by
  simp only [Comparison.bounds?] at h
  split at h
  · cases h
    rfl
  · cases h

theorem clauseOf_between {subject : String} {operand : Value}
    (h : comparisonClause ⟨subject, .between, operand⟩ = .ok clause) :
    ClauseOf ⟨subject, .between, operand⟩ clause := by
  simp only [comparisonClause] at h
  split at h
  · cases h
  · rename_i lower upper hbounds
    obtain ⟨low, hlow, h⟩ := exists_of_bind_ok h
    obtain ⟨high, hhigh, h⟩ := exists_of_bind_ok h
    cases h
    obtain rfl := operand_of_bounds hbounds
    rw [ofFields_bounds]
    exact .between (QueryError.within_eq_ok.mp hlow) (QueryError.within_eq_ok.mp hhigh)

theorem clauseOf_like {subject : String} {operand : Value}
    (h : comparisonClause ⟨subject, .like, operand⟩ = .ok clause) :
    ClauseOf ⟨subject, .like, operand⟩ clause := by
  cases operand with
  | text pattern =>
    cases h
    exact .like
  | _ => cases h

theorem clauseOf_of_comparisonClause (h : comparisonClause c = .ok clause) : ClauseOf c clause := by
  obtain ⟨subject, operator, operand⟩ := c
  cases operator with
  | equal =>
    obtain ⟨j, hj, rfl⟩ := map_within_eq_ok.mp h
    exact .equal hj
  | between => exact clauseOf_between h
  | oneOf =>
    obtain ⟨j, hj, rfl⟩ := map_within_eq_ok.mp h
    exact .oneOf hj
  | like => exact clauseOf_like h
  | _ =>
    obtain ⟨j, hj, rfl⟩ := map_within_eq_ok.mp h
    exact .bound rfl hj

theorem clauseOf_iff : ClauseOf c clause ↔ comparisonClause c = .ok clause :=
  ⟨comparisonClause_of_clauseOf, clauseOf_of_comparisonClause⟩

/-- No comparison asks with a bool clause, so that the oracle answers it. -/
theorem clauseTruth_comparison (h : ClauseOf c clause) :
    clauseTruth oracle clause = oracle clause := by
  cases h <;> exact clauseTruth_other (by decide) _

theorem answered_iff (h : ClauseOf c clause) : Answered oracle c ↔ oracle clause = true := by
  constructor
  · -- A comparison has one clause only.
    rintro ⟨other, hother, htrue⟩
    rw [clauseOf_iff] at h hother
    cases h.symm.trans hother
    exact htrue
  · intro htrue
    exact ⟨clause, h, htrue⟩

end Leaf

section Tree

variable {c : Condition} {cs : List Condition} {clauses : List Json}

def Says (c : Condition) (clause : Json) : Prop :=
  ∀ oracle, clauseTruth oracle clause = true ↔ c.Holds (Answered oracle)

def firstFault? (c : Condition) : Option QueryError :=
  c.leaves.findSome? fun leaf => faultIn (comparisonClause leaf)

theorem conditionClauses_eq (cs : List Condition) :
    conditionClauses cs = cs.mapM conditionClause := by
  induction cs with
  | nil => rfl
  | cons c cs ih =>
    rw [List.mapM_cons, ← ih]
    rfl

theorem all_says (h : List.Forall₂ Says cs clauses) (oracle : Json → Bool) :
    (∀ j ∈ clauses, clauseTruth oracle j = true) ↔ ∀ c ∈ cs, c.Holds (Answered oracle) := by
  induction h with
  | nil => simp
  | cons hj _ ih => simp [hj oracle, ih]

theorem any_says (h : List.Forall₂ Says cs clauses) (oracle : Json → Bool) :
    (∃ j ∈ clauses, clauseTruth oracle j = true) ↔ ∃ c ∈ cs, c.Holds (Answered oracle) := by
  induction h with
  | nil => simp
  | cons hj _ ih => simp [hj oracle, ih]

theorem verdict_clauses (connective : Connective)
    (h : ∀ c ∈ cs, Verdict (firstFault? c) (conditionClause c) (Says c)) :
    Verdict (firstFault? (.composite connective cs)) (conditionClauses cs)
      (List.Forall₂ Says cs) := by
  rw [firstFault?, Condition.findSome?_leaves_composite, conditionClauses_eq]
  exact Verdict.mapM h

/-- A condition that was built becomes a clause that says the same, unless one of its comparisons has no
clause. -/
theorem verdict_clause (h : c.Built) : Verdict (firstFault? c) (conditionClause c) (Says c) := by
  induction c, h using Condition.Built.byShape with
  | leaf c _ _ =>
    rw [firstFault?, Condition.leaves_leaf, List.findSome?_singleton]
    apply Verdict.of_ok
    intro clause hclause oracle
    have hof := clauseOf_of_comparisonClause hclause
    rw [clauseTruth_comparison hof, Condition.holds_leaf, answered_iff hof]
  | and cs _ _ ih =>
    apply (verdict_clauses .and fun d hd => (ih d hd).2).map
    intro clauses hclauses oracle
    rw [clauseTruth_and, Condition.holds_and]
    exact all_says hclauses oracle
  | or cs _ _ ih =>
    apply (verdict_clauses .or fun d hd => (ih d hd).2).map
    intro clauses hclauses oracle
    rw [clauseTruth_or, Condition.holds_or]
    exact any_says hclauses oracle
  | not c hc _ ih =>
    apply (verdict_clauses .not (List.forall_mem_singleton.mpr ih)).map
    intro clauses hclauses oracle
    cases hclauses with
    | cons hclause hnil =>
      cases hnil
      rw [clauseTruth_not, Condition.holds_not, List.forall_mem_singleton, hclause oracle]

end Tree

section Query

variable {collection : String} {condition : Option Condition}

def Scopes (collection : String) (condition : Option Condition) (query : Json) : Prop :=
  ∀ oracle, clauseTruth oracle query = true ↔
    oracle (scopeClause collection) = true ∧ ∀ c ∈ condition, c.Holds (Answered oracle)

theorem clauseTruth_scope (oracle : Json → Bool) (collection : String) :
    clauseTruth oracle (single "term" (single entityField (.string collection))) =
      oracle (scopeClause collection) :=
  clauseTruth_other (by decide) _

theorem verdict_scopedQuery (hbuilt : ∀ c ∈ condition, c.Built) :
    Verdict (condition.bind firstFault?) (scopedQuery collection condition)
      (Scopes collection condition) := by
  cases condition with
  | none =>
    apply Verdict.accept
    intro oracle
    rw [Json.ofFields, clauseTruth_bool]
    simp [sectionClauses, minimumShouldMatch, Json.Fields.ofList, Json.Fields.get?_put,
      clauseTruth_scope]
  | some c =>
    apply (verdict_clause (hbuilt c rfl)).map
    intro clause hclause oracle
    rw [Json.ofFields, clauseTruth_bool]
    simp [sectionClauses, minimumShouldMatch, Json.Fields.ofList, Json.Fields.get?_put,
      clauseTruth_scope, hclause oracle]

structure Scoped (collection : String) (condition : Option Condition)
    (result : Except QueryError Request) : Prop where
  compiles : (∃ request, result = .ok request) ↔
    ∀ c ∈ condition, ∀ leaf ∈ c.leaves, ∃ clause, ClauseOf leaf clause
  asks : ∀ request, result = .ok request →
    ∃ query, request.body.field? "query" = some query ∧ Scopes collection condition query
  /-- To an oracle that knows the name in a document, no document of another collection is asked for. -/
  stays : ∀ request query, result = .ok request → request.body.field? "query" = some query →
    ∀ e hit, Hit.ofEntity e = .ok hit → ∀ oracle,
      (∀ name, oracle (scopeClause name) = true →
        hit.source.get? entityField = some (.string name)) →
      clauseTruth oracle query = true → e.name = collection

theorem entityField_ofEntity {e : Entity} {hit : Hit} (h : Hit.ofEntity e = .ok hit) :
    hit.source.get? entityField = some (.string e.name) := by
  obtain ⟨id, _, h⟩ := exists_of_bind_ok h
  obtain ⟨fields, _, h⟩ := exists_of_bind_ok h
  cases h
  exact Json.Fields.get?_put_self ..

theorem firstFault?_eq_none_iff {c : Condition} :
    firstFault? c = none ↔ ∀ leaf ∈ c.leaves, ∃ clause, ClauseOf leaf clause := by
  rw [firstFault?, List.findSome?_eq_none_iff]
  apply forall₂_congr
  intro leaf _
  simp only [clauseOf_iff]
  cases comparisonClause leaf <;> simp [faultIn]

theorem scoped_of_verdict {result : Except QueryError Request}
    (h : Verdict (condition.bind firstFault?) result fun request =>
      ∃ query, request.body.field? "query" = some query ∧ Scopes collection condition query) :
    Scoped collection condition result where
  compiles := by
    rw [h.ok_iff, Option.bind_eq_none_iff]
    apply forall₂_congr
    intro c _
    exact firstFault?_eq_none_iff
  asks _ hrequest := h.good_of_ok hrequest
  stays request query hrequest hquery e hit hhit oracle hname htrue := by
    obtain ⟨other, hother, hscopes⟩ := h.good_of_ok hrequest
    cases hquery.symm.trans hother
    have hscope := hname collection ((hscopes oracle).mp htrue).1
    rw [entityField_ofEntity hhit] at hscope
    cases hscope
    rfl

theorem query_of_body {query size : Json} {sort start : Json.Fields}
    (hsort : ∀ f ∈ sort, f.1 ≠ "query") (hstart : ∀ f ∈ start, f.1 ≠ "query") :
    (Json.ofFields ([("query", query)] ++ sort ++ start ++ [("size", size)])).field? "query" =
      some query := by
  rw [List.append_assoc, List.append_assoc, List.singleton_append]
  apply Json.Fields.get?_ofList_cons
  intro f hf
  rcases List.mem_append.mp hf with hf | hf
  · exact hsort f hf
  rcases List.mem_append.mp hf with hf | hf
  · exact hstart f hf
  · obtain rfl := List.mem_singleton.mp hf
    simp

theorem verdict_search (i : Index) (hbuilt : ∀ c ∈ condition, c.Built) (sorts : List SortKey)
    (skip limit : Nat) (cursor : Cursor) (w : Window) :
    Verdict (condition.bind firstFault?)
      (i.search ⟨collection, condition, sorts, skip, limit⟩ cursor w) fun request =>
      ∃ query, request.body.field? "query" = some query ∧ Scopes collection condition query := by
  apply (verdict_scopedQuery hbuilt).map
  intro query hquery
  refine ⟨query, query_of_body ?_ ?_, hquery⟩
  · split <;> simp
  · split <;> simp

theorem verdict_deletion (i : Index) (hbuilt : ∀ c ∈ condition, c.Built) :
    Verdict (condition.bind firstFault?) (i.deletion ⟨collection, condition, []⟩) fun request =>
      ∃ query, request.body.field? "query" = some query ∧ Scopes collection condition query := by
  apply (verdict_scopedQuery hbuilt).map
  intro query hquery
  refine ⟨query, ?_, hquery⟩
  rw [single, Json.field?, Json.Fields.get?_cons, if_pos rfl]

/-- Searches and removals ask for the documents of their collection on which the condition holds, and
whatever the condition says, for none of another collection. -/
theorem requests_stay_in_collection (i : Index) (collection : String)
    (hbuilt : ∀ c ∈ condition, c.Built) :
    (∀ sorts skip limit cursor w, Scoped collection condition
      (i.search ⟨collection, condition, sorts, skip, limit⟩ cursor w)) ∧
    Scoped collection condition (i.deletion ⟨collection, condition, []⟩) := by
  refine ⟨?_, ?_⟩
  · intro sorts skip limit cursor w
    exact scoped_of_verdict (verdict_search i hbuilt sorts skip limit cursor w)
  · exact scoped_of_verdict (verdict_deletion i hbuilt)

/-- A condition that is met by everything but the books with another name. -/
theorem negated_choice_stays_in_collection :
    let condition := some (Condition.negate (.composite .or
      [.leaf ⟨"kind", .equal, .text "book"⟩, .leaf ⟨entityField, .equal, .text "authors"⟩]))
    (∀ c ∈ condition, c.Built) ∧
      (∀ sorts skip limit cursor w, Scoped "books" condition
        (Index.search ⟨"library"⟩ ⟨"books", condition, sorts, skip, limit⟩ cursor w)) ∧
      Scoped "books" condition (Index.deletion ⟨"library"⟩ ⟨"books", condition, []⟩) := by
  intro condition
  have hbuilt : ∀ c ∈ condition, c.Built := by
    intro c hc
    obtain rfl := Option.some.inj hc
    apply Condition.Built.negate
    apply Condition.built_or (List.cons_ne_nil _ _)
    rw [List.forall_mem_cons, List.forall_mem_singleton]
    exact ⟨Condition.built_leaf (by decide), Condition.built_leaf (by decide)⟩
  exact ⟨hbuilt, requests_stay_in_collection ⟨"library"⟩ "books" hbuilt⟩

end Query

end StoreQuery.Search
