import StoreQuery.Number.Power
/-!
Whole numbers in decimal: writing, zero padding, and reading with an optional sign.
Reading accepts ASCII digits only.
-/
namespace StoreQuery.Decimal

def digits (n : Nat) : List Char := Nat.toDigits 10 n

def ofNat (n : Nat) : String := String.ofList (digits n)

def ofInt (n : Int) : String := if n < 0 then "-" ++ ofNat n.natAbs else ofNat n.natAbs

/-- At least `width` digits, with zeros in front. -/
def padded (width n : Nat) : String :=
  let ds := digits n
  String.ofList (List.replicate (width - ds.length) '0' ++ ds)

def digitValue (c : Char) : Nat := c.toNat - '0'.toNat

/-- The number that a run of digits spells, most significant digit first. -/
def value (cs : List Char) : Nat := cs.foldl (fun n c => 10 * n + digitValue c) 0

def nat? (cs : List Char) : Option Nat :=
  if cs ≠ [] ∧ cs.all Char.isDigit then some (value cs) else none

/-- A plus sign may stand in front. -/
def unsigned? : List Char → Option Nat
  | '+' :: cs => nat? cs
  | cs => nat? cs

/-- A plus or a minus sign may stand in front. -/
def signed? : List Char → Option Int
  | '-' :: cs => (nat? cs).map fun n => -(n : Int)
  | cs => (unsigned? cs).map Int.ofNat

/-- A signed number of 64 bits. -/
def int64? (cs : List Char) : Option Int64 :=
  (signed? cs).bind fun n =>
    if Int64.minValue.toInt ≤ n ∧ n ≤ Int64.maxValue.toInt then some (Int64.ofInt n) else none

/-- An unsigned number of 64 bits. -/
def uint64? (cs : List Char) : Option UInt64 :=
  (unsigned? cs).bind fun n => if n < 2 ^ 64 then some (UInt64.ofNat n) else none

end StoreQuery.Decimal
