import StoreQuery.Error
import StoreQuery.Number.DoubleText
import StoreQuery.Text.Blank
import StoreQuery.Time.Rfc3339
import StoreQuery.Value.Basic
/-!
Reading a value as a type. A coercion keeps the exact value or fails, except that a text is rounded to a
float.
-/
namespace StoreQuery.Value

def mismatch (v : Value) (target : String) : QueryError :=
  .conversion none ("cannot convert " ++ v.kind.name ++ " to " ++ target)

def asText : Value → Except QueryError String
  | .text s => .ok s
  | .integer n => .ok (Decimal.ofInt n.toInt)
  | .float x => .ok x.text
  | .boolean b => .ok (if b then "true" else "false")
  | .temporal t => .ok (Rfc3339.write .zero t)
  | v => .error (v.mismatch "string")

def lossyFloat (x : Double) : QueryError :=
  .conversion none ("float " ++ x.text ++ " does not fit an integer without loss")

def asInteger : Value → Except QueryError Int64
  | .integer n => .ok n
  | .float x =>
    match x.toInt? with
    | some n => if -2 ^ 63 ≤ n ∧ n < 2 ^ 63 then .ok (Int64.ofInt n) else .error (lossyFloat x)
    | none => .error (lossyFloat x)
  | .text s =>
    match Decimal.int64? (Text.trim s.toList) with
    | some n => .ok n
    | none => .error (.conversion none ("'" ++ s ++ "' is not an integer"))
  | v => .error (v.mismatch "integer")

def asInteger32 (v : Value) : Except QueryError Int32 := do
  let n ← v.asInteger
  if -2 ^ 31 ≤ n.toInt ∧ n.toInt < 2 ^ 31 then .ok (Int32.ofInt n.toInt)
  else .error (.conversion none (Decimal.ofInt n.toInt ++ " is out of range for i32"))

/-- Integers up to this magnitude are floats exactly. -/
def maxExactInteger : Nat := 2 ^ 53

def asFloat : Value → Except QueryError Double
  | .float x => .ok x
  | .integer n =>
    if n.toInt.natAbs ≤ maxExactInteger then .ok (Double.ofInt n.toInt)
    else .error (.conversion none
      ("integer " ++ Decimal.ofInt n.toInt ++ " is not exactly representable as a float"))
  | .text s =>
    match Double.ofText? (Text.trim s.toList) with
    | some x => .ok x
    | none => .error (.conversion none ("'" ++ s ++ "' is not a number"))
  | v => .error (v.mismatch "float")

def asBoolean : Value → Except QueryError Bool
  | .boolean b => .ok b
  | v => match v.text? with
    | some "true" => .ok true
    | some "false" => .ok false
    | _ => .error (v.mismatch "boolean")

def asInstant : Value → Except QueryError Instant
  | .temporal t => .ok t
  | .text s => (Rfc3339.read s).mapError fun e =>
    .conversion none ("'" ++ s ++ "' is not RFC 3339: " ++ e.message)
  | .integer n =>
    match Instant.ofMillis? n.toInt with
    | some t => .ok t
    | none => .error (.conversion none (Decimal.ofInt n.toInt ++ " ms is out of range"))
  | v => .error (v.mismatch "temporal")

def asBytes : Value → Except QueryError (List UInt8)
  | .bytes bs => .ok bs
  | .text s => .ok s.toUTF8.toList
  | v => .error (v.mismatch "bytes")

def asSequence : Value → Except QueryError (List Value)
  | .sequence items => .ok items
  | v => .error (v.mismatch "sequence")

def asEntity : Value → Except QueryError Entity
  | .entity e => .ok e
  | v => .error (v.mismatch "entity")

end StoreQuery.Value
