import StoreQuery.Cql.Statement
import StoreQuery.Paging.Profile
import StoreQuery.Time.TimeToLive
/-!
Queries and writes as CQL statements of one keyspace. The relations of a WHERE clause all hold at once,
so only conjunctions compile; a range becomes a pair of relations.
-/
namespace StoreQuery.Cql

def backend : String := "wide_column"

def defaultKeyColumn : String := "id"

structure Keyspace where
  name : String
  /-- Adds ALLOW FILTERING to every selection. -/
  allowFiltering : Bool := false
  /-- The primary key column of updates. -/
  keyColumn : String := defaultKeyColumn
  strategy : Strategy := .statefulCursor
  consistency : Option Consistency := none

def noConnective (c : Connective) : QueryError :=
  .unsupportedQuery backend ("CQL has no " ++ c.name ++ " operator")

def lacksBounds (subject : String) : QueryError :=
  .invalidArgument ("BETWEEN on " ++ subject ++ " needs two bounds")

def comparisonRelations (c : Comparison) : Except QueryError (List Relation) :=
  let single (op : RelationOp) : Except QueryError (List Relation) :=
    .ok [⟨c.subject, op, Datum.ofValue c.operand⟩]
  match c.operator with
  | .equal => single .eq
  | .greater => single .gt
  | .greaterEqual => single .gte
  | .lesser => single .lt
  | .lesserEqual => single .lte
  | .oneOf => single .oneOf
  | .like => single .like
  | .between =>
    match c.bounds? with
    | some (lower, upper) =>
      .ok [⟨c.subject, .gte, Datum.ofValue lower⟩, ⟨c.subject, .lte, Datum.ofValue upper⟩]
    | none => .error (lacksBounds c.subject)

mutual

def relations : Condition → Except QueryError (List Relation)
  | .leaf c => comparisonRelations c
  | .composite .and children => relationsOfAll children
  | .composite connective _ => .error (noConnective connective)

def relationsOfAll : List Condition → Except QueryError (List Relation)
  | [] => .ok []
  | c :: cs => do
    let first ← relations c
    let rest ← relationsOfAll cs
    return first ++ rest

end

def relationsOf? : Option Condition → Except QueryError (List Relation)
  | none => .ok []
  | some c => relations c

namespace Keyspace

def profile (k : Keyspace) : Profile := ⟨backend, k.strategy, .nativeLimitOnly, .multiKey⟩

/-- A positive count; zero stands for none. -/
def positive? (n : Nat) : Option Nat := if 0 < n then some n else none

def select (k : Keyspace) (q : Query) (c : Cursor) (w : Window) : Except QueryError Select := do
  let rs ← relationsOf? q.condition
  let (pageSize, pagingState) := match k.strategy with
    | .statefulCursor => (positive? w.pageSize, c.token)
    | .stateless => (none, none)
  return { keyspace := k.name, table := q.collection, relations := rs, orderings := q.sorts,
           limit := positive? w.limit, pageSize := pageSize, pagingState := pagingState,
           allowFiltering := k.allowFiltering, consistency := k.consistency }

def nothingToInsert (collection : String) : QueryError :=
  .invalidArgument ("cannot insert entity " ++ collection ++ " without attributes")

def missingKey (collection column : String) : QueryError :=
  .invalidArgument ("update of " ++ collection ++ " needs key column " ++ column)

def nothingToSet (collection : String) : QueryError :=
  .invalidArgument ("update of " ++ collection ++ " has nothing to set")

def unconditionalDelete : QueryError := .unsupportedQuery backend "DELETE needs a condition"

def insert (k : Keyspace) (e : Entity) (ttl : Option TimeToLive) : Except QueryError Insert :=
  if e.isEmpty then .error (nothingToInsert e.name)
  else .ok ⟨k.name, e.name, Datum.ofAttributes e.attributes, ttl.map TimeToLive.wholeSeconds⟩

def update (k : Keyspace) (e : Entity) : Except QueryError Update :=
  match e.get? k.keyColumn with
  | none => .error (missingKey e.name k.keyColumn)
  | some key =>
    match Datum.ofAttributes (e.attributes.filter fun a => a.name ≠ k.keyColumn) with
    | [] => .error (nothingToSet e.name)
    | assignments =>
      .ok ⟨k.name, e.name, assignments, ⟨k.keyColumn, .eq, Datum.ofValue key⟩⟩

def delete (k : Keyspace) (d : Deletion) : Except QueryError Delete :=
  match d.condition with
  | none => .error unconditionalDelete
  | some c => (relations c).map fun rs => ⟨k.name, d.collection, d.attributes, rs⟩

end Keyspace

end StoreQuery.Cql
