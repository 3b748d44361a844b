/-!
Sets of characters given by their runs: the code points at which a run begins or ends, in turn, in
increasing order.
-/
namespace StoreQuery.Text

/-- A character is in a run when an odd number of bounds lies at or below it. -/
def inRuns (bounds : List Nat) (c : Char) : Bool := bounds.countP (· ≤ c.toNat) % 2 == 1

end StoreQuery.Text
