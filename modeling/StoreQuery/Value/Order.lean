import StoreQuery.Value.Basic
/-!
The order of values. Values of one kind compare, integers and floats by their exact numbers, and
sequences item by item; entities and values of different kinds are incomparable.
-/
namespace StoreQuery

mutual

def Value.compare? : Value → Value → Option Ordering
  | .text a, .text b => some (compare a b)
  | .integer a, .integer b => some (compare a.toInt b.toInt)
  | .float a, .float b => a.compare? b
  | .integer a, .float b => Double.compareInt? a b
  | .float a, .integer b => (Double.compareInt? b a).map Ordering.swap
  | .boolean a, .boolean b => some (compare a b)
  | .temporal a, .temporal b => some (a.compare b)
  | .bytes a, .bytes b => some (compare (a.map UInt8.toNat) (b.map UInt8.toNat))
  | .sequence a, .sequence b => Value.compareItems? a b
  | _, _ => none

/-- The first pair that is not equal decides, also when it is incomparable; then the length does. -/
def Value.compareItems? : List Value → List Value → Option Ordering
  | [], [] => some .eq
  | [], _ :: _ => some .lt
  | _ :: _, [] => some .gt
  | a :: as, b :: bs =>
    match a.compare? b with
    | some .eq => Value.compareItems? as bs
    | r => r

end

end StoreQuery
