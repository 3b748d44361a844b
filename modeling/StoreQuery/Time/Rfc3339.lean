import StoreQuery.Number.Decimal
import StoreQuery.Time.Instant
/-!
Instants as RFC 3339 text. Writing shows as few of 0, 3, 6 or 9 fraction digits as are exact, a leap
second as second 60, and years outside 0 to 9999 with a sign. Reading takes four-digit years, a time
and an offset, and names what is wrong with the first part that fails.
-/
namespace StoreQuery.Rfc3339

/-- How the offset of UTC is written. -/
inductive UtcSuffix where
  | zero
  | letter
  deriving DecidableEq, Repr

def UtcSuffix.text : UtcSuffix → String
  | .zero => "+00:00"
  | .letter => "Z"

def yearText (y : Int) : String :=
  if 0 ≤ y ∧ y ≤ 9999 then Decimal.padded 4 y.toNat
  else (if y < 0 then "-" else "+") ++ Decimal.padded 4 y.natAbs

def fractionText (nanos : Nat) : String :=
  if nanos = 0 then ""
  else if nanos % 1000000 = 0 then "." ++ Decimal.padded 3 (nanos / 1000000)
  else if nanos % 1000 = 0 then "." ++ Decimal.padded 6 (nanos / 1000)
  else "." ++ Decimal.padded 9 nanos

def dateText (d : CivilDate) : String :=
  yearText d.year ++ "-" ++ Decimal.padded 2 d.month ++ "-" ++ Decimal.padded 2 d.day

def timeText (secondOfDay nanos : Nat) : String :=
  Decimal.padded 2 (secondOfDay / 3600) ++ ":" ++ Decimal.padded 2 (secondOfDay / 60 % 60) ++ ":" ++
    Decimal.padded 2 (secondOfDay % 60 + nanos / 1000000000) ++ fractionText (nanos % 1000000000)

def write (suffix : UtcSuffix) (t : Instant) : String :=
  dateText t.date ++ "T" ++ timeText t.secondOfDay t.nanos ++ suffix.text

inductive ReadError where
  | tooShort
  | invalid
  | outOfRange
  | tooLong
  deriving DecidableEq, Repr

def ReadError.message : ReadError → String
  | .tooShort => "premature end of input"
  | .invalid => "input contains invalid characters"
  | .outOfRange => "input is out of range"
  | .tooLong => "trailing input"

abbrev Reader (α : Type) := List Char → Except ReadError (α × List Char)

def char (c : Char) : List Char → Except ReadError (List Char)
  | [] => .error .tooShort
  | d :: cs => if d = c then .ok cs else .error .invalid

/-- Exactly `n` digits. -/
def digits : Nat → Nat → Reader Nat
  | 0, acc, cs => .ok (acc, cs)
  | _ + 1, _, [] => .error .tooShort
  | n + 1, acc, c :: cs =>
    if c.isDigit then digits n (10 * acc + Decimal.digitValue c) cs else .error .invalid

def date (cs : List Char) : Except ReadError (CivilDate × List Char) := do
  let (y, cs) ← digits 4 0 cs
  let cs ← char '-' cs
  let (m, cs) ← digits 2 0 cs
  let cs ← char '-' cs
  let (d, cs) ← digits 2 0 cs
  let date : CivilDate := ⟨y, m, d⟩
  if date.Valid then .ok (date, cs) else .error .outOfRange

def separator : List Char → Except ReadError (List Char)
  | [] => .error .tooShort
  | c :: cs => if c = 'T' ∨ c = 't' ∨ c = ' ' then .ok cs else .error .invalid

/-- Nine digits count, further ones are skipped. -/
def fraction : Reader Nat
  | '.' :: cs =>
    let ds := cs.takeWhile Char.isDigit
    if cs = [] then .error .tooShort
    else if ds = [] then .error .invalid
    else
      let kept := ds.take 9
      .ok (Decimal.value kept * 10 ^ (9 - kept.length), cs.dropWhile Char.isDigit)
  | cs => .ok (0, cs)

/-- Second of the day and nanoseconds; second 60 is told as second 59 and a billion nanoseconds. -/
def time (cs : List Char) : Except ReadError ((Nat × Nat) × List Char) := do
  let (h, cs) ← digits 2 0 cs
  let cs ← char ':' cs
  let (m, cs) ← digits 2 0 cs
  let cs ← char ':' cs
  let (s, cs) ← digits 2 0 cs
  let (f, cs) ← fraction cs
  if h < 24 ∧ m < 60 ∧ s ≤ 60 then
    if s = 60 then .ok ((h * 3600 + m * 60 + 59, f + 1000000000), cs)
    else .ok ((h * 3600 + m * 60 + s, f), cs)
  else .error .outOfRange

/-- Two digits, where fewer than two bytes of text count as an early end. -/
def twoDigits : Reader (Nat × Nat)
  | c :: d :: cs =>
    if c.isDigit ∧ d.isDigit then .ok ((Decimal.digitValue c, Decimal.digitValue d), cs)
    else .error .invalid
  | [c] => .error (if c.utf8Size < 2 then .tooShort else .invalid)
  | [] => .error .tooShort

/-- The hours and minutes of an offset, in seconds. -/
def offsetSize (cs : List Char) : Except ReadError (Nat × List Char) := do
  let ((h₁, h₂), cs) ← twoDigits cs
  let cs ← char ':' cs
  let ((m₁, m₂), cs) ← twoDigits cs
  if 6 ≤ m₁ then .error .outOfRange
  else .ok ((10 * h₁ + h₂) * 3600 + (10 * m₁ + m₂) * 60, cs)

/-- Seconds east of UTC. -/
def offset : Reader Int
  | [] => .error .tooShort
  | c :: cs =>
    if c = 'Z' ∨ c = 'z' then .ok (0, cs)
    else if c = '+' then (offsetSize cs).map fun (n, rest) => ((n : Int), rest)
    else if c = '-' ∨ c = '\u2212' then (offsetSize cs).map fun (n, rest) => (-(n : Int), rest)
    else .error .invalid

def read (s : String) : Except ReadError Instant := do
  if s.utf8ByteSize < 19 then throw .tooShort
  let (d, cs) ← date s.toList
  let cs ← separator cs
  let ((second, nanos), cs) ← time cs
  let (east, cs) ← offset cs
  if cs ≠ [] then throw .tooLong
  if 86400 ≤ east.natAbs then throw .outOfRange
  match Instant.of? (d.toDays * 86400 + second - east) nanos with
  | some t => .ok t
  | none => throw .outOfRange

end StoreQuery.Rfc3339
