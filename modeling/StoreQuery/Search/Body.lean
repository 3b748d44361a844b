import StoreQuery.Paging.Page
import StoreQuery.Paging.Profile
import StoreQuery.Query.Basic
import StoreQuery.Search.Hit
/-!
Queries as search bodies. Each body is scoped to its collection by a filter on the entity name, so that
several collections can share an index.
-/
namespace StoreQuery.Search

/-- The size of a request for everything; without a size the server would send its own few. -/
def maxResultWindow : Nat := 10000

structure Request where
  index : String
  body : Json

/-- An object with a single field. -/
def single (name : String) (j : Json) : Json := .object [(name, j)]

/-- The pattern with the wildcards of the search engine; characters that it would read as wildcards are
escaped. -/
def wildcard (pattern : String) : String :=
  String.ofList (pattern.toList.flatMap fun c =>
    if c = '%' then ['*']
    else if c = '_' then ['?']
    else if c = '*' ∨ c = '?' ∨ c = '\\' then ['\\', c]
    else [c])

def lacksBounds (subject : String) : QueryError :=
  .invalidArgument ("BETWEEN on " ++ subject ++ " needs two bounds")

def lacksPattern (subject : String) : QueryError :=
  .invalidArgument ("LIKE on " ++ subject ++ " needs a string pattern")

def comparisonClause (c : Comparison) : Except QueryError Json :=
  let operand (v : Value) : Except QueryError Json := QueryError.within c.subject (jsonOf v)
  let clause (name : String) (j : Json) : Json := single name (single c.subject j)
  let bound (name : String) : Except QueryError Json :=
    (operand c.operand).map fun j => clause "range" (single name j)
  match c.operator with
  | .equal => (operand c.operand).map (clause "term")
  | .greater => bound "gt"
  | .greaterEqual => bound "gte"
  | .lesser => bound "lt"
  | .lesserEqual => bound "lte"
  | .between =>
    match c.bounds? with
    | none => .error (lacksBounds c.subject)
    | some (lower, upper) => do
      let low ← operand lower
      let high ← operand upper
      return clause "range" (Json.ofFields [("gte", low), ("lte", high)])
  | .oneOf => (operand c.operand).map (clause "terms")
  | .like =>
    match c.operand.text? with
    | none => .error (lacksPattern c.subject)
    | some pattern => .ok (clause "wildcard" (.string (wildcard pattern)))

def boolClause : Connective → List Json → Json
  | .and, clauses => single "bool" (single "must" (.array clauses))
  | .or, clauses => single "bool"
      (Json.ofFields [("should", .array clauses), ("minimum_should_match", .integer 1)])
  | .not, clauses => single "bool" (single "must_not" (.array clauses))

mutual

def conditionClause : Condition → Except QueryError Json
  | .leaf c => comparisonClause c
  | .composite connective children => (conditionClauses children).map (boolClause connective)

def conditionClauses : List Condition → Except QueryError (List Json)
  | [] => .ok []
  | c :: cs => do
    let j ← conditionClause c
    let js ← conditionClauses cs
    return j :: js

end

/-- Holds for the documents of the collection that satisfy the condition. -/
def scopedQuery (collection : String) (condition : Option Condition) : Except QueryError Json := do
  let scope : String × Json :=
    ("filter", .array [single "term" (single entityField (.string collection))])
  match condition with
  | none => return single "bool" (Json.ofFields [scope])
  | some c => do
    let clause ← conditionClause c
    return single "bool" (Json.ofFields [scope, ("must", .array [clause])])

def sortClause (key : SortKey) : Json :=
  single key.subject (single "order" (.string key.direction.name))

def fieldRemoval : QueryError :=
  .unsupportedQuery backend "removing individual fields is not supported"

/-- The index that the collections live in. -/
structure Index where
  name : String

namespace Index

def profile (_ : Index) : Profile := ⟨backend, .stateless, .native, .multiKey⟩

def search (i : Index) (q : Query) (_ : Cursor) (w : Window) : Except QueryError Request := do
  let query ← scopedQuery q.collection q.condition
  let sort := if q.sorts.isEmpty then [] else [("sort", Json.array (q.sorts.map sortClause))]
  let start := if 0 < w.offset then [("from", Json.integer w.offset)] else []
  let size := if w.pageSize = 0 then maxResultWindow else w.pageSize
  return ⟨i.name, Json.ofFields ([("query", query)] ++ sort ++ start ++ [("size", .integer size)])⟩

def deletion (i : Index) (d : Deletion) : Except QueryError Request :=
  if d.removesEntries then
    (scopedQuery d.collection d.condition).map fun query => ⟨i.name, single "query" query⟩
  else .error fieldRemoval

end Index

end StoreQuery.Search
