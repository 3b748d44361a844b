import StoreQuery.Text.Hex
/-!
Identifiers of 128 bits in the form of random UUIDs: groups of hexadecimal digits, with the version and
the variant in their places.
-/
namespace StoreQuery.Text

/-- The identifier of two random words, six bits of which give way to version 4 and variant 1. -/
def identifier (high low : UInt64) : String :=
  let high := ((high &&& 0xffffffffffff0fff) ||| 0x4000).toNat
  let low := ((low &&& 0x3fffffffffffffff) ||| 0x8000000000000000).toNat
  String.ofList (hexPadded 8 (high / 2 ^ 32) ++ '-' :: hexPadded 4 (high / 2 ^ 16) ++
    '-' :: hexPadded 4 high ++ '-' :: hexPadded 4 (low / 2 ^ 48) ++ '-' :: hexPadded 12 low)

end StoreQuery.Text
