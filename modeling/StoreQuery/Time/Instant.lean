import StoreQuery.Time.Calendar
/-!
Instants in UTC to the nanosecond. A leap second is told as its predecessor, the last second of a
minute, with a billion nanoseconds or more. Nothing keeps another second from having as many.
-/
namespace StoreQuery

structure Instant where
  seconds : Int
  nanos : Nat
  in_range : -8334601228800 ≤ seconds ∧ seconds ≤ 8210266876799
  nanos_lt : nanos < 2000000000
  deriving DecidableEq, Repr

namespace Instant

/-- A leap second that is not the last second of a minute. -/
def Misplaced (t : Instant) : Prop := 1000000000 ≤ t.nanos ∧ t.seconds % 60 ≠ 59

instance (t : Instant) : Decidable t.Misplaced := inferInstanceAs (Decidable (_ ∧ _))

/-- Seconds since 1970 and nanoseconds, when they name an instant. A leap second has to be in its place. -/
def of? (seconds : Int) (nanos : Nat) : Option Instant :=
  if h : (-8334601228800 ≤ seconds ∧ seconds ≤ 8210266876799) ∧ nanos < 2000000000 ∧
      (1000000000 ≤ nanos → seconds % 60 = 59) then
    some ⟨seconds, nanos, h.1, h.2.1⟩
  else none

def ofMillis? (millis : Int) : Option Instant :=
  of? (millis / 1000) ((millis % 1000).toNat * 1000000)

/-- Milliseconds since 1970; what is finer is cut off, also before 1970. -/
def toMillis (t : Instant) : Int := t.seconds * 1000 + t.nanos / 1000000

protected def compare (a b : Instant) : Ordering :=
  (compare a.seconds b.seconds).then (compare a.nanos b.nanos)

def date (t : Instant) : CivilDate := CivilDate.ofDays (t.seconds / 86400)

def secondOfDay (t : Instant) : Nat := (t.seconds % 86400).toNat

end Instant

end StoreQuery
