import StoreQuery.Number.Power
/-!
Numbers and bytes in hexadecimal digits. Writing uses lower case, reading takes both cases.
-/
namespace StoreQuery.Text

def hexText (n : Nat) : List Char := Nat.toDigits 16 n

/-- The lowest `width` digits, with zeros in front. -/
def hexPadded (width n : Nat) : List Char :=
  let ds := hexText (n % 16 ^ width)
  List.replicate (width - ds.length) '0' ++ ds

def hexValue? (c : Char) : Option Nat :=
  if c.isDigit then some (c.toNat - 48)
  else if 'a' ≤ c ∧ c ≤ 'f' then some (c.toNat - 87)
  else if 'A' ≤ c ∧ c ≤ 'F' then some (c.toNat - 55)
  else none

/-- The number that hexadecimal digits spell, most significant digit first. -/
def ofHex? (cs : List Char) : Option Nat :=
  cs.foldlM (fun n c => (hexValue? c).map fun d => 16 * n + d) 0

/-- Two digits for each byte. -/
def hexOfBytes (bs : List UInt8) : String :=
  String.ofList (bs.flatMap fun b => hexPadded 2 b.toNat)

def bytesOfHex? : List Char → Option (List UInt8)
  | [] => some []
  | [_] => none
  | a :: b :: cs => do
    let n ← ofHex? [a, b]
    let bs ← bytesOfHex? cs
    return UInt8.ofNat n :: bs

end StoreQuery.Text
