import StoreQuery.Number.Decimal
import StoreQuery.Number.Double
/-!
Decimal text of floats. Writing gives the shortest digits that read back, always positional: no
exponent, and no point on a whole number. Reading rounds the written number to the nearest float.
-/
namespace StoreQuery.Double

/-- The numbers that round to `x` lie between `low` and `high`, in quarters of a unit; the ends
belong to them when `closed`. -/
structure RoundingInterval where
  low : Nat
  value : Nat
  high : Nat
  closed : Bool

/-- Below a power of two the floats lie twice as close. -/
def roundingInterval (x : Double) : RoundingInterval :=
  let ulp := 2 ^ x.shift
  let v := 4 * x.magnitude
  { low := if x.fraction = 0 ∧ 1 < x.exponentField then v - ulp else v - 2 * ulp
    value := v
    high := v + 2 * ulp
    closed := x.significand % 2 = 0 }

/-- The multiple of `10 ^ p` that is written for the interval, if one lies inside: of the two around
the value the nearer, and the upper one when both are as near. What the interval counts is one part in
`scale`. -/
def gridPoint? (i : RoundingInterval) (scale : Nat) (p : Int) : Option Nat :=
  let up := 10 ^ (-p).toNat
  let grid := 10 ^ p.toNat * scale
  let inside (d : Nat) : Bool :=
    if i.closed then i.low * up ≤ d * grid ∧ d * grid ≤ i.high * up
    else i.low * up < d * grid ∧ d * grid < i.high * up
  let below := i.value * up / grid
  let rest := i.value * up % grid
  match decide (0 < below) && inside below, inside (below + 1) with
  | true, true => some (if 2 * rest < grid then below else below + 1)
  | true, false => some below
  | false, true => some (below + 1)
  | false, false => none

/-- Digits and decimal exponent of the coarsest decimal grid that meets the rounding interval. -/
def shortest (x : Double) : Nat × Int :=
  let i := x.roundingInterval
  let exponents : List Int := (List.range 650).map fun (k : Nat) => 310 - (k : Int)
  (exponents.findSome? fun p => (gridPoint? i (4 * unit) p).map fun d => (d, p)).getD (0, 0)

/-- `d * 10 ^ p` without an exponent. -/
def positional (d : Nat) (p : Int) : List Char :=
  let ds := Decimal.digits d
  if 0 ≤ p then ds ++ List.replicate p.toNat '0'
  else
    let places := (-p).toNat
    if places < ds.length then
      ds.take (ds.length - places) ++ '.' :: ds.drop (ds.length - places)
    else '0' :: '.' :: (List.replicate (places - ds.length) '0' ++ ds)

def magnitudeText (x : Double) : List Char :=
  if x.magnitude = 0 then ['0']
  else
    let (d, p) := x.shortest
    positional d p

def text (x : Double) : String :=
  if x.isNaN then "NaN"
  else
    let body := if x.isFinite then x.magnitudeText else "inf".toList
    String.ofList (if x.isNegative then '-' :: body else body)

/-- The float nearest to `m * 10 ^ e`. Exponents that leave the range whatever the rounding are
settled by the number of digits alone. -/
def ofScientific (negative : Bool) (m : Nat) (e : Int) : Double :=
  let size : Int := (Decimal.digits m).length + e
  if m = 0 ∨ size < -400 then ofWord negative 0
  else if 400 < size then infinity negative
  else nearest negative (m * 10 ^ e.toNat) (10 ^ (-e).toNat)

def exponent? : List Char → Option Int
  | [] => some 0
  | c :: cs => if c = 'e' ∨ c = 'E' then Decimal.signed? cs else none

/-- Digits with an optional point, at least one digit in all, then an optional exponent. -/
def unsignedOfText? (negative : Bool) (cs : List Char) : Option Double :=
  let whole := cs.takeWhile Char.isDigit
  let rest := cs.dropWhile Char.isDigit
  let places := match rest with
    | '.' :: r => r.takeWhile Char.isDigit
    | _ => []
  let tail := match rest with
    | '.' :: r => r.dropWhile Char.isDigit
    | r => r
  let ds := whole ++ places
  if ds = [] then none
  else (exponent? tail).map fun e =>
    ofScientific negative (Decimal.value ds) (e - places.length)

def magnitudeOfText? (negative : Bool) (cs : List Char) : Option Double :=
  let name := String.ofList (cs.map Char.toLower)
  if name = "inf" ∨ name = "infinity" then some (infinity negative)
  else if name = "nan" then some nan
  else unsignedOfText? negative cs

def ofText? : List Char → Option Double
  | '+' :: cs => magnitudeOfText? false cs
  | '-' :: cs => magnitudeOfText? true cs
  | cs => magnitudeOfText? false cs

end StoreQuery.Double
