import StoreQuery.Query.Basic
/-!
Queries and deletions under construction. A draft collects clauses one by one; the first clause that is
malformed is remembered, nothing is added after it, and building the draft reports it.
-/
namespace StoreQuery

/-- A comparison on its way into a draft, with the connective that joins it to what is there. -/
structure Clause where
  connective : Connective
  subject : String
  negated : Bool
  operator : Operator
  operand : Value

namespace Clause

def not (c : Clause) : Clause := { c with negated := !c.negated }

def condition (c : Clause) : Except QueryError Condition :=
  (Condition.compare c.subject c.operator c.operand).map fun leaf =>
    if c.negated then leaf.negate else leaf

end Clause

/-- How a clause is opened. At the start of a draft all three mean the same. -/
inductive Opening where
  | filter
  | and
  | or
  deriving DecidableEq, Repr

def Opening.connective : Opening → Connective
  | .filter => .and
  | .and => .and
  | .or => .or

/-- What a clause asks of its attribute. -/
inductive Test where
  | equal (operand : Value)
  | greater (operand : Value)
  | greaterEqual (operand : Value)
  | lesser (operand : Value)
  | lesserEqual (operand : Value)
  | between (lower upper : Value)
  | oneOf (items : List Value)
  | like (pattern : String)

namespace Test

def operator : Test → Operator
  | .equal _ => .equal
  | .greater _ => .greater
  | .greaterEqual _ => .greaterEqual
  | .lesser _ => .lesser
  | .lesserEqual _ => .lesserEqual
  | .between _ _ => .between
  | .oneOf _ => .oneOf
  | .like _ => .like

def operand : Test → Value
  | .equal v => v
  | .greater v => v
  | .greaterEqual v => v
  | .lesser v => v
  | .lesserEqual v => v
  | .between lower upper => .sequence [lower, upper]
  | .oneOf items => .sequence items
  | .like pattern => .text pattern

end Test

/-- A clause as it is written, negated any number of times. -/
structure Phrase where
  opening : Opening
  subject : String
  nots : Nat
  test : Test

def Phrase.clause (p : Phrase) : Clause :=
  Nat.repeat Clause.not p.nots
    ⟨p.opening.connective, p.subject, false, p.test.operator, p.test.operand⟩

/-- The condition so far, and the first error met. -/
structure Filter where
  condition : Option Condition := none
  error : Option QueryError := none

namespace Filter

def push (f : Filter) (connective : Connective) (next : Except QueryError Condition) : Filter :=
  match f.error, next with
  | some _, _ => f
  | none, .error e => { f with error := some e }
  | none, .ok c => { f with condition := some (match f.condition with
      | some current => current.combine connective c
      | none => c) }

def add (f : Filter) (c : Clause) : Filter := f.push c.connective c.condition

/-- Puts a whole condition in place of what was collected; an error stays remembered. -/
def replace (f : Filter) (c : Condition) : Filter := { f with condition := some c }

end Filter

structure QueryDraft where
  collection : String
  filter : Filter := {}
  sorts : List SortKey := []
  skip : Nat := 0
  limit : Nat := 0

namespace QueryDraft

def add (d : QueryDraft) (c : Clause) : QueryDraft := { d with filter := d.filter.add c }

def matching (d : QueryDraft) (c : Condition) : QueryDraft :=
  { d with filter := d.filter.replace c }

def sort (d : QueryDraft) (key : SortKey) : QueryDraft := { d with sorts := d.sorts ++ [key] }

def skipping (d : QueryDraft) (n : Nat) : QueryDraft := { d with skip := n }

def limiting (d : QueryDraft) (n : Nat) : QueryDraft := { d with limit := n }

def unnamedSort (direction : Direction) : QueryError :=
  .invalidArgument ("sort attribute must not be empty (" ++ direction.name ++ ")")

def build (d : QueryDraft) : Except QueryError Query :=
  match d.filter.error with
  | some e => .error e
  | none =>
    if d.collection = "" then .error (.invalidArgument "query collection name must not be empty")
    else match d.sorts.find? fun key => key.subject = "" with
      | some key => .error (unnamedSort key.direction)
      | none => .ok ⟨d.collection, d.filter.condition, d.sorts, d.skip, d.limit⟩

end QueryDraft

structure DeletionDraft where
  collection : String
  attributes : List String := []
  filter : Filter := {}

namespace DeletionDraft

def add (d : DeletionDraft) (c : Clause) : DeletionDraft := { d with filter := d.filter.add c }

def matching (d : DeletionDraft) (c : Condition) : DeletionDraft :=
  { d with filter := d.filter.replace c }

def build (d : DeletionDraft) : Except QueryError Deletion :=
  match d.filter.error with
  | some e => .error e
  | none => Deletion.of d.collection d.filter.condition d.attributes

end DeletionDraft

end StoreQuery
