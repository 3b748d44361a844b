import StoreQuery.Json.Basic
import StoreQuery.Number.Decimal
import StoreQuery.Text.Hex
/-!
Reading JSON text. Whole numbers of 64 bits are kept as such; all other numbers become floats: the first
digits that fit into 64 bits are scaled by powers of ten, and each scaling rounds. A number too large
for a float is an error, and so is text nested deeper than `maxDepth`.
-/
namespace StoreQuery

namespace Double

/-- The product of two finite numbers without a sign. -/
def times (x y : Double) : Double := nearest false (x.magnitude * y.magnitude) (unit * unit)

/-- The quotient of two finite numbers without a sign, the second not zero. -/
def dividedBy (x y : Double) : Double := nearest false x.magnitude y.magnitude

def powerOfTen (n : Nat) : Double := nearest false (10 ^ n) 1

/-- `significand * 10 ^ exponent` with a rounding after each of its steps. One power of ten reaches
from `10 ^ -308` to `10 ^ 308`; below `10 ^ -616` nothing of a 64-bit significand is left. -/
def scaleByTen? (significand : Nat) (exponent : Int) : Option Double :=
  let x := nearest false significand 1
  let down := (-exponent).toNat
  if significand = 0 then some x
  else if 308 < exponent then none
  else if 0 ≤ exponent then
    let y := x.times (powerOfTen exponent.toNat)
    if y.isFinite then some y else none
  else if down ≤ 308 then some (x.dividedBy (powerOfTen down))
  else if down ≤ 616 then some ((x.dividedBy (powerOfTen 308)).dividedBy (powerOfTen (down - 308)))
  else some (ofWord false 0)

def withSign (negative : Bool) (x : Double) : Double := ofWord negative x.magnitudeBits

end Double

namespace Json.Reader

/-- What is read from the front of a text, and the rest of it. -/
abbrev Read (α : Type) := List Char → Option (α × List Char)

/-- Arrays and objects may stand inside each other to this depth. -/
def maxDepth : Nat := 127

def isSpace (c : Char) : Bool := c == ' ' || c == '\n' || c == '\t' || c == '\r'

def skipSpace (cs : List Char) : List Char := cs.dropWhile isSpace

def escape? (c : Char) : Option Char :=
  if c = '"' ∨ c = '\\' ∨ c = '/' then some c
  else if c = 'b' then some '\x08'
  else if c = 'f' then some '\x0c'
  else if c = 'n' then some '\n'
  else if c = 'r' then some '\r'
  else if c = 't' then some '\t'
  else none

def isHighSurrogate (n : Nat) : Bool := 0xD800 ≤ n && n < 0xDC00

def isLowSurrogate (n : Nat) : Bool := 0xDC00 ≤ n && n < 0xE000

/-- The rest of a string after its opening quote. A surrogate stands only in a pair. -/
def string? : Read (List Char)
  | [] => none
  | '"' :: cs => some ([], cs)
  | '\\' :: 'u' :: a :: b :: c :: d :: cs =>
    match Text.ofHex? [a, b, c, d] with
    | none => none
    | some n =>
      if isHighSurrogate n then
        match cs with
        | '\\' :: 'u' :: e :: f :: g :: h :: rest =>
          match Text.ofHex? [e, f, g, h] with
          | none => none
          | some m =>
            if isLowSurrogate m then
              let point := 0x10000 + (n - 0xD800) * 0x400 + (m - 0xDC00)
              (string? rest).map fun (s, cs) => (Char.ofNat point :: s, cs)
            else none
        | _ => none
      else if isLowSurrogate n then none
      else (string? cs).map fun (s, cs) => (Char.ofNat n :: s, cs)
  | '\\' :: c :: cs =>
    match escape? c with
    | none => none
    | some e => (string? cs).map fun (s, cs) => (e :: s, cs)
  | c :: cs =>
    if c = '\\' ∨ c.toNat < 32 then none
    else (string? cs).map fun (s, cs) => (c :: s, cs)

/-- Adds digits to a significand while it fits into 64 bits; gives the digits left over too. -/
def addDigits (significand : Nat) : List Char → Nat × List Char
  | [] => (significand, [])
  | c :: cs =>
    let next := 10 * significand + Decimal.digitValue c
    if next < 2 ^ 64 then addDigits next cs else (significand, c :: cs)

/-- Digits before the point: a zero stands alone. -/
def wholeDigits? : Read (List Char)
  | '0' :: cs =>
    match cs with
    | c :: _ => if c.isDigit then none else some (['0'], cs)
    | [] => some (['0'], cs)
  | cs =>
    let ds := cs.takeWhile Char.isDigit
    if ds = [] then none else some (ds, cs.dropWhile Char.isDigit)

/-- Digits after a point, if there is a point. -/
def placeDigits? : Read (Option (List Char))
  | '.' :: cs =>
    let ds := cs.takeWhile Char.isDigit
    if ds = [] then none else some (some ds, cs.dropWhile Char.isDigit)
  | cs => some (none, cs)

def signedDigits? (negative : Bool) (cs : List Char) : Option (Int × List Char) :=
  let ds := cs.takeWhile Char.isDigit
  let n : Int := Decimal.value ds
  if ds = [] then none else some (if negative then -n else n, cs.dropWhile Char.isDigit)

def exponent? : Read (Option Int)
  | [] => some (none, [])
  | c :: cs =>
    if c = 'e' ∨ c = 'E' then
      (match cs with
        | '+' :: rest => signedDigits? false rest
        | '-' :: rest => signedDigits? true rest
        | rest => signedDigits? false rest).map fun (n, cs) => (some n, cs)
    else some (none, c :: cs)

def numberOf? (negative : Bool) (whole : List Char) (places : Option (List Char))
    (exponent : Option Int) : Option Json :=
  let (w, excess) := addDigits 0 whole
  if places.isNone ∧ exponent.isNone ∧ excess = [] ∧ ¬(negative ∧ (w = 0 ∨ 2 ^ 63 < w)) then
    some (.integer (if negative then -(w : Int) else w))
  else
    let ds := places.getD []
    let (m, cut) := addDigits w ds
    let used : Nat := ds.length - cut.length
    let e : Int := exponent.getD 0 + excess.length - used
    (Double.scaleByTen? m e).map fun x => .float (x.withSign negative)

def unsigned? (negative : Bool) (cs : List Char) : Option (Json × List Char) := do
  let (whole, cs) ← wholeDigits? cs
  let (places, cs) ← placeDigits? cs
  let (exponent, cs) ← exponent? cs
  let n ← numberOf? negative whole places exponent
  return (n, cs)

def number? : Read Json
  | '-' :: cs => unsigned? true cs
  | cs => unsigned? false cs

/-- One or more items up to a closing bracket; there are fewer of them than `fuel`, the length of the
text. -/
def items? (item : Read Json) : Nat → Read (List Json)
  | 0, _ => none
  | fuel + 1, cs => do
    let (j, cs) ← item (skipSpace cs)
    match skipSpace cs with
    | ',' :: cs => do
      let (js, cs) ← items? item fuel cs
      return (j :: js, cs)
    | ']' :: cs => return ([j], cs)
    | _ => none

def field? (item : Read Json) : Read (String × Json)
  | '"' :: cs => do
    let (name, cs) ← string? cs
    match skipSpace cs with
    | ':' :: cs => do
      let (j, cs) ← item (skipSpace cs)
      return ((String.ofList name, j), cs)
    | _ => none
  | _ => none

/-- One or more fields up to a closing brace. -/
def fields? (item : Read Json) : Nat → Read (List (String × Json))
  | 0, _ => none
  | fuel + 1, cs => do
    let (f, cs) ← field? item (skipSpace cs)
    match skipSpace cs with
    | ',' :: cs => do
      let (fs, cs) ← fields? item fuel cs
      return (f :: fs, cs)
    | '\x7d' :: cs => return ([f], cs)
    | _ => none

/-- A value that starts at once and is nested no deeper than `depth`. -/
def value? : Nat → Read Json
  | depth, cs =>
    match cs with
    | 'n' :: 'u' :: 'l' :: 'l' :: cs => some (.null, cs)
    | 't' :: 'r' :: 'u' :: 'e' :: cs => some (.boolean true, cs)
    | 'f' :: 'a' :: 'l' :: 's' :: 'e' :: cs => some (.boolean false, cs)
    | '"' :: cs => (string? cs).map fun (s, cs) => (.string (String.ofList s), cs)
    | '[' :: cs =>
      match depth, skipSpace cs with
      | 0, _ => none
      | _ + 1, ']' :: cs => some (.array [], cs)
      | depth + 1, cs => (items? (value? depth) cs.length cs).map fun (js, cs) => (.array js, cs)
    | '\x7b' :: cs =>
      match depth, skipSpace cs with
      | 0, _ => none
      | _ + 1, '\x7d' :: cs => some (.object [], cs)
      | depth + 1, cs =>
        (fields? (value? depth) cs.length cs).map fun (fs, cs) => (Json.ofFields fs, cs)
    | cs => number? cs

end Json.Reader

/-- The value that a text spells, with nothing but white space around it. -/
def Json.ofText? (text : String) : Option Json := do
  let (j, rest) ← Json.Reader.value? Json.Reader.maxDepth (Json.Reader.skipSpace text.toList)
  if Json.Reader.skipSpace rest = [] then return j else none

end StoreQuery
