import StoreQuery.Json.Basic
import StoreQuery.Number.DoubleText
/-!
Trees of settings, and reading a setting as a type. Scalars convert into each other where it makes
sense; tables and arrays convert only as a whole.
-/
namespace StoreQuery

inductive Setting where
  | null
  | boolean (b : Bool)
  | integer (n : Int64)
  | float (x : Double)
  | text (s : String)
  | array (items : List Setting)
  | table (fields : List (String × Setting))

namespace Setting

def field? : Setting → String → Option Setting
  | .table fields, name => fields.lookup name
  | _, _ => none

def fields : Setting → List (String × Setting)
  | .table fields => fields
  | _ => []

def items : Setting → List Setting
  | .array items => items
  | _ => []

/-- Changes the entry of a name, or adds one at the end. -/
def alter (name : String) (f : Option Setting → Setting) :
    List (String × Setting) → List (String × Setting)
  | [] => [(name, f none)]
  | (n, s) :: rest => if n = name then (n, f (some s)) :: rest else (n, s) :: alter name f rest

end Setting

mutual

/-- What stands in a place after a setting was laid over it: a table goes into the table that is there
field by field, anything else takes the place. A table without fields leaves a scalar as it is. -/
def Setting.laidOver : Setting → Option Setting → Setting
  | .table [], below => below.getD (.table [])
  | .table (f :: fs), below => .table (Setting.laidOverFields (f :: fs) (below.getD (.table [])).fields)
  | s, _ => s

def Setting.laidOverFields :
    List (String × Setting) → List (String × Setting) → List (String × Setting)
  | [], below => below
  | (name, s) :: rest, below =>
    Setting.laidOverFields rest (Setting.alter name (Setting.laidOver s) below)

end

mutual

/-- Integers that do not fit into 64 bits with a sign become floats. -/
def Setting.ofJson : Json → Setting
  | .null => .null
  | .boolean b => .boolean b
  | .integer n =>
    if -2 ^ 63 ≤ n ∧ n < 2 ^ 63 then .integer (Int64.ofInt n) else .float (Double.ofInt n)
  | .float x => .float x
  | .string s => .text s
  | .array items => .array (Setting.ofItems items)
  | .object fields => .table (Setting.ofFields fields)

def Setting.ofItems : List Json → List Setting
  | [] => []
  | j :: js => Setting.ofJson j :: Setting.ofItems js

def Setting.ofFields : List (String × Json) → List (String × Setting)
  | [] => []
  | (name, j) :: fields => (name, Setting.ofJson j) :: Setting.ofFields fields

end

namespace Setting

def isYes (s : String) : Bool := ["true", "on", "yes"].contains s.toLower

def isNo (s : String) : Bool := ["false", "off", "no"].contains s.toLower

def asText? : Setting → Option String
  | .text s => some s
  | .boolean b => some (if b then "true" else "false")
  | .integer n => some (Decimal.ofInt n.toInt)
  | .float x => some x.text
  | _ => none

def asBoolean? : Setting → Option Bool
  | .boolean b => some b
  | .integer n => some (n != 0)
  | .float x => some (!x.equal (.ofWord false 0))
  | .text s =>
    if isYes s || s == "1" then some true else if isNo s || s == "0" then some false else none
  | _ => none

/-- The nearest number in a range. -/
def clamp (low high n : Int) : Int := max low (min high n)

def asInteger? : Setting → Option Int64
  | .integer n => some n
  | .boolean b => some (if b then 1 else 0)
  | .float x => some (Int64.ofInt (clamp (-2 ^ 63) (2 ^ 63 - 1) x.roundHalfAway))
  | .text s =>
    if isYes s then some 1 else if isNo s then some 0 else Decimal.int64? s.toList
  | _ => none

def asNatural? : Setting → Option UInt64
  | .integer n => if 0 ≤ n.toInt then some (UInt64.ofNat n.toInt.toNat) else none
  | .boolean b => some (if b then 1 else 0)
  | .float x => some (UInt64.ofNat (clamp 0 (2 ^ 64 - 1) x.roundHalfAway).toNat)
  | .text s =>
    if isYes s then some 1 else if isNo s then some 0 else Decimal.uint64? s.toList
  | _ => none

/-- The low 16 bits of a natural number. -/
def asPort? (s : Setting) : Option UInt16 := s.asNatural?.map UInt64.toUInt16

def asFloat? : Setting → Option Double
  | .float x => some x
  | .integer n => some (Double.ofInt n.toInt)
  | .boolean b => some (Double.ofInt (if b then 1 else 0))
  | .text s =>
    if isYes s then some (Double.ofInt 1)
    else if isNo s then some (Double.ofInt 0)
    else Double.ofText? s.toList
  | _ => none

def asTexts? : Setting → Option (List String)
  | .array items => items.mapM asText?
  | _ => none

def asTextMap? : Setting → Option (List (String × String))
  | .table fields => fields.mapM fun f => f.2.asText?.map fun s => (f.1, s)
  | _ => none

end Setting

end StoreQuery
