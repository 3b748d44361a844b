import StoreQuery.Error
import StoreQuery.Value.Basic
/-!
Conditions on the attributes of an entity: comparisons joined by AND, OR and NOT.
-/
namespace StoreQuery

inductive Operator where
  | equal
  | greater
  | greaterEqual
  | lesser
  | lesserEqual
  | between
  | oneOf
  | like
  deriving DecidableEq, Repr

def Operator.name : Operator → String
  | .equal => "EQUAL"
  | .greater => "GREATER"
  | .greaterEqual => "GREATER_EQUAL"
  | .lesser => "LESSER"
  | .lesserEqual => "LESSER_EQUAL"
  | .between => "BETWEEN"
  | .oneOf => "IN"
  | .like => "LIKE"

inductive Connective where
  | and
  | or
  | not
  deriving DecidableEq, Repr

def Connective.name : Connective → String
  | .and => "AND"
  | .or => "OR"
  | .not => "NOT"

/-- One attribute compared with an operand. A range has the sequence of its two bounds as operand, a
membership test the sequence of the accepted values. -/
structure Comparison where
  subject : String
  operator : Operator
  operand : Value

namespace Comparison

def bounds? (c : Comparison) : Option (Value × Value) :=
  match c.operator, c.operand with
  | .between, .sequence [lower, upper] => some (lower, upper)
  | _, _ => none

def items? (c : Comparison) : Option (List Value) :=
  match c.operator with
  | .oneOf => c.operand.items?
  | _ => none

end Comparison

inductive Condition where
  | leaf (c : Comparison)
  | composite (connective : Connective) (children : List Condition)

namespace Condition

def missingSubject : QueryError :=
  .invalidArgument "condition attribute name must not be empty"

def badBounds (subject : String) : QueryError :=
  .invalidArgument ("BETWEEN on '" ++ subject ++ "' needs a sequence of exactly two bounds")

def noItems (subject : String) : QueryError :=
  .invalidArgument ("IN on '" ++ subject ++ "' needs a non-empty sequence")

def noChildren (connective : Connective) : QueryError :=
  .invalidArgument (connective.name ++ " needs at least one condition")

/-- What keeps a comparison from being built, the subject before the operand. -/
def defect? (subject : String) (operator : Operator) (operand : Value) : Option QueryError :=
  if subject = "" then some missingSubject
  else match operator, operand.items? with
    | .between, some [_, _] => none
    | .between, _ => some (badBounds subject)
    | .oneOf, some (_ :: _) => none
    | .oneOf, _ => some (noItems subject)
    | _, _ => none

def compare (subject : String) (operator : Operator) (operand : Value) :
    Except QueryError Condition :=
  match defect? subject operator operand with
  | some e => .error e
  | none => .ok (.leaf ⟨subject, operator, operand⟩)

def range (subject : String) (lower upper : Value) : Except QueryError Condition :=
  compare subject .between (.sequence [lower, upper])

def join (connective : Connective) : List Condition → Except QueryError Condition
  | [] => .error (noChildren connective)
  | children => .ok (.composite connective children)

def all (children : List Condition) : Except QueryError Condition := join .and children

def any (children : List Condition) : Except QueryError Condition := join .or children

def negate (child : Condition) : Condition := .composite .not [child]

/-- Adds a condition under a connective; a composite of that connective takes it in as a further child
instead of being nested. -/
def combine (current : Condition) (connective : Connective) (other : Condition) : Condition :=
  match current with
  | .composite c children =>
    if c = connective then .composite c (children ++ [other])
    else .composite connective [current, other]
  | .leaf _ => .composite connective [current, other]

def comparison? : Condition → Option Comparison
  | .leaf c => some c
  | .composite _ _ => none

end Condition

mutual

def Condition.leafCount : Condition → Nat
  | .leaf _ => 1
  | .composite _ children => Condition.leafCountAll children

def Condition.leafCountAll : List Condition → Nat
  | [] => 0
  | c :: cs => c.leafCount + Condition.leafCountAll cs

end

end StoreQuery
