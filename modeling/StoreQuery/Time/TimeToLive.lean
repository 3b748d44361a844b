/-!
How long a stored entity lives.
-/
namespace StoreQuery

structure TimeToLive where
  seconds : UInt64
  nanos : Nat
  deriving DecidableEq, Repr

namespace TimeToLive

def toNanos (t : TimeToLive) : Nat := t.seconds.toNat * 1000000000 + t.nanos

/-- Whole seconds that are not below the duration, at least one, summed in 64 bits. -/
def wholeSeconds (t : TimeToLive) : UInt64 :=
  max (t.seconds + if 0 < t.nanos then 1 else 0) 1

end TimeToLive

end StoreQuery
