import StoreQuery.Condition
/-!
Queries and deletions over one collection.
-/
namespace StoreQuery

inductive Direction where
  | asc
  | desc
  deriving DecidableEq, Repr

def Direction.name : Direction → String
  | .asc => "asc"
  | .desc => "desc"

structure SortKey where
  subject : String
  direction : Direction
  deriving DecidableEq, Repr

/-- Without a condition every entity is selected; a limit of zero stands for none. -/
structure Query where
  collection : String
  condition : Option Condition
  sorts : List SortKey
  skip : Nat
  limit : Nat

def Query.isBounded (q : Query) : Bool := 0 < q.limit

/-- Removes the matching entries, or only the listed attributes of them. -/
structure Deletion where
  collection : String
  condition : Option Condition
  attributes : List String

namespace Deletion

def of (collection : String) (condition : Option Condition) (attributes : List String) :
    Except QueryError Deletion :=
  if collection = "" then .error (.invalidArgument "delete collection name must not be empty")
  else if "" ∈ attributes then
    .error (.invalidArgument "delete attribute names must not be empty")
  else .ok ⟨collection, condition, attributes⟩

def removesEntries (d : Deletion) : Bool := d.attributes.isEmpty

end Deletion

end StoreQuery
