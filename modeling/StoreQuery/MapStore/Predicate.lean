import StoreQuery.Condition
import StoreQuery.MapStore.Record
import StoreQuery.Text.Expression
import StoreQuery.Text.LikePattern
import StoreQuery.Value.Order
/-!
Predicates on records, and the conditions that compile to them. Values that do not compare match
nothing, and neither does a missing field.
-/
namespace StoreQuery.MapStore

inductive CompareOp where
  | equal
  | greater
  | greaterEqual
  | lesser
  | lesserEqual
  deriving DecidableEq, Repr

def CompareOp.name : CompareOp → String
  | .equal => "eq"
  | .greater => "gt"
  | .greaterEqual => "gte"
  | .lesser => "lt"
  | .lesserEqual => "lte"

def CompareOp.accepts : CompareOp → Ordering → Bool
  | .equal, o => o == .eq
  | .greater, o => o == .gt
  | .greaterEqual, o => o != .lt
  | .lesser, o => o == .lt
  | .lesserEqual, o => o != .gt

inductive Predicate where
  | true
  | compare (field : String) (op : CompareOp) (value : FieldValue)
  | between (field : String) (low high : FieldValue)
  | oneOf (field : String) (values : List FieldValue)
  | like (field : String) (pattern : LikePattern)
  | and (children : List Predicate)
  | or (children : List Predicate)
  | not (child : Predicate)

/-- Whether the order of a field and an operand is one that the operator accepts. -/
def FieldValue.holds (op : CompareOp) (a b : FieldValue) : Bool :=
  match a.toValue.compare? b.toValue with
  | some o => op.accepts o
  | none => false

def textAccepted (p : LikePattern) : FieldValue → Bool
  | .text s => p.accepts s
  | _ => false

mutual

def Predicate.test (r : Record) : Predicate → Bool
  | .true => Bool.true
  | .compare field op value => (r.get? field).any fun a => a.holds op value
  | .between field low high =>
    (r.get? field).any fun a => a.holds .greaterEqual low && a.holds .lesserEqual high
  | .oneOf field values => (r.get? field).any fun a => values.any fun v => a.holds .equal v
  | .like field pattern => (r.get? field).any (textAccepted pattern)
  | .and children => Predicate.testAll r children
  | .or children => Predicate.testAny r children
  | .not child => !Predicate.test r child

def Predicate.testAll (r : Record) : List Predicate → Bool
  | [] => Bool.true
  | p :: ps => Predicate.test r p && Predicate.testAll r ps

def Predicate.testAny (r : Record) : List Predicate → Bool
  | [] => Bool.false
  | p :: ps => Predicate.test r p || Predicate.testAny r ps

end

def lacksBounds (subject : String) : QueryError :=
  .invalidArgument ("BETWEEN on " ++ subject ++ " needs two bounds")

def lacksItems (subject : String) : QueryError :=
  .invalidArgument ("IN on " ++ subject ++ " needs a list")

def lacksPattern (subject : String) : QueryError :=
  .invalidArgument ("LIKE on " ++ subject ++ " needs a string pattern")

def badPattern (reason : String) : QueryError := .invalidArgument ("bad LIKE pattern: " ++ reason)

section Compiling

variable [RegexEngine]

namespace Predicate

/-- Stands for a pattern whose expression compiles. -/
def ofPattern (field pattern : String) : Except QueryError Predicate :=
  match RegexEngine.refusal? (Expression.ofPattern pattern) with
  | some reason => .error (badPattern reason)
  | none => .ok (.like field (LikePattern.ofText pattern))

def ofComparison (c : Comparison) : Except QueryError Predicate :=
  let compared (op : CompareOp) : Except QueryError Predicate :=
    (FieldValue.ofValue c.subject c.operand).map (.compare c.subject op)
  match c.operator with
  | .equal => compared .equal
  | .greater => compared .greater
  | .greaterEqual => compared .greaterEqual
  | .lesser => compared .lesser
  | .lesserEqual => compared .lesserEqual
  | .between =>
    match c.bounds? with
    | none => .error (lacksBounds c.subject)
    | some (lower, upper) => do
      let low ← FieldValue.ofValue c.subject lower
      let high ← FieldValue.ofValue c.subject upper
      return .between c.subject low high
  | .oneOf =>
    match c.items? with
    | none => .error (lacksItems c.subject)
    | some items => (FieldValue.ofItems c.subject items).map (.oneOf c.subject)
  | .like =>
    match c.operand.text? with
    | none => .error (lacksPattern c.subject)
    | some pattern => ofPattern c.subject pattern

/-- A negation of several children denies that all of them hold. -/
def ofChildren : Connective → List Predicate → Predicate
  | .and, ps => .and ps
  | .or, ps => .or ps
  | .not, [p] => .not p
  | .not, ps => .not (.and ps)

end Predicate

mutual

def Predicate.ofCondition : Condition → Except QueryError Predicate
  | .leaf c => Predicate.ofComparison c
  | .composite connective children =>
    (Predicate.ofConditions children).map (Predicate.ofChildren connective)

def Predicate.ofConditions : List Condition → Except QueryError (List Predicate)
  | [] => .ok []
  | c :: cs => do
    let p ← Predicate.ofCondition c
    let ps ← Predicate.ofConditions cs
    return p :: ps

end

/-- Without a condition every record matches. -/
def Predicate.of : Option Condition → Except QueryError Predicate
  | none => .ok .true
  | some c => Predicate.ofCondition c

end Compiling

end StoreQuery.MapStore
