import StoreQuery.Number.Power
/-!
Binary64 numbers, held as their 64 bits. The value of a number that is not NaN is `scaled / unit`, with
`unit = 2 ^ 1074`: every finite binary64 is a multiple of `1 / unit`, and the infinities take the
place of `± 2 ^ 1024`, beyond all finite values. Comparison and rounding work on these integers.
-/
namespace StoreQuery

structure Double where
  bits : UInt64
  deriving DecidableEq, Repr

namespace Double

def word (x : Double) : Nat := x.bits.toNat

def isNegative (x : Double) : Bool := decide (2 ^ 63 ≤ x.word)

/-- The bits without the sign; they grow with the magnitude. -/
def magnitudeBits (x : Double) : Nat := x.word % 2 ^ 63

def exponentField (x : Double) : Nat := x.word / 2 ^ 52 % 2 ^ 11

def fraction (x : Double) : Nat := x.word % 2 ^ 52

def isNaN (x : Double) : Bool := decide (x.exponentField = 2047 ∧ x.fraction ≠ 0)

def isFinite (x : Double) : Bool := decide (x.exponentField ≠ 2047)

def significand (x : Double) : Nat :=
  if x.exponentField = 0 then x.fraction else 2 ^ 52 + x.fraction

/-- The last place of the significand counts `2 ^ shift` units; subnormals share the shift of the
least normal numbers. -/
def shift (x : Double) : Nat := x.exponentField - 1

def magnitude (x : Double) : Nat := x.significand * 2 ^ x.shift

def unit : Nat := 2 ^ 1074

theorem unit_pos : 0 < unit := by decide +kernel

def scaled (x : Double) : Int := if x.isNegative then -(x.magnitude : Int) else x.magnitude

/-- Numeric order; a NaN is comparable with nothing. -/
def compare? (x y : Double) : Option Ordering :=
  if x.isNaN || y.isNaN then none else some (compare x.scaled y.scaled)

/-- What stands before the point, a number being cut toward zero. -/
def whole (x : Double) : Int := x.scaled.tdiv unit

/-- Order of an integer and a float, with neither side rounded. A float beyond all integers of 64 bits
is settled first; then its whole part decides, and for the integer itself what stands behind the point. -/
def compareInt? (n : Int64) (x : Double) : Option Ordering :=
  if x.isNaN then none
  else if 2 ^ 63 * unit ≤ x.scaled then some .lt
  else if x.scaled < -2 ^ 63 * unit then some .gt
  else
    match compare n.toInt (Int64.ofInt x.whole).toInt with
    | .eq => some (compare 0 (x.scaled - x.whole * unit))
    | o => some o

/-- Numeric equality: both zeros are equal and a NaN equals nothing. -/
def equal (x y : Double) : Bool := x.compare? y == some .eq

def ofWord (negative : Bool) (magnitudeBits : Nat) : Double :=
  ⟨UInt64.ofNat ((if negative then 2 ^ 63 else 0) + magnitudeBits)⟩

def infinity (negative : Bool) : Double := ofWord negative (2047 * 2 ^ 52)

def nan : Double := ofWord false (2047 * 2 ^ 52 + 2 ^ 51)

/-- Nearest integer to a quotient, a half going to the even neighbour. -/
def roundHalfEven (num den : Nat) : Nat :=
  let q := num / den
  let r := num % den
  if den < 2 * r ∨ (den = 2 * r ∧ q % 2 = 1) then q + 1 else q

/-- The float nearest to `num / den`, a half going to the even significand. The significand is added
to the exponent field, so a carry out of it moves to the next binade, and all that is too large is
infinite. -/
def nearest (negative : Bool) (num den : Nat) : Double :=
  let n := num * unit
  let shift := (n / den).log2 - 52
  let m := roundHalfEven n (den * 2 ^ shift)
  ofWord negative (min (shift * 2 ^ 52 + m) (2047 * 2 ^ 52))

def ofInt (n : Int) : Double := nearest (decide (n < 0)) n.natAbs 1

/-- The integer that a float denotes, if it denotes one. -/
def toInt? (x : Double) : Option Int :=
  if x.isFinite ∧ x.magnitude % unit = 0 then
    let n : Int := (x.magnitude / unit : Nat)
    some (if x.isNegative then -n else n)
  else none

/-- Nearest integer, a half going away from zero; a NaN gives zero. -/
def roundHalfAway (x : Double) : Int :=
  if x.isNaN then 0
  else
    let n : Int := ((2 * x.magnitude + unit) / (2 * unit) : Nat)
    if x.isNegative then -n else n

end Double

end StoreQuery
