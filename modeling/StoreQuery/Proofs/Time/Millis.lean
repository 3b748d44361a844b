import StoreQuery.Number.Power
import StoreQuery.Time.Instant
/-!
Instants to the millisecond. The milliseconds of an instant fit into 64 bits and tell it down to the
millisecond, unless it is in a leap second.
-/
namespace StoreQuery.Instant

def floorMillis (t : Instant) : Instant where
  seconds := t.seconds
  nanos := t.nanos / 1000000 * 1000000
  in_range := t.in_range
  nanos_lt := Nat.lt_of_le_of_lt (Nat.div_mul_le_self t.nanos 1000000) t.nanos_lt

theorem not_misplaced_of_lt {t : Instant} (h : t.nanos < 1000000000) : ¬ t.Misplaced :=
  fun hleap => Nat.not_lt.mpr hleap.1 h

theorem of?_eq_some {t : Instant} (h : ¬ t.Misplaced) : of? t.seconds t.nanos = some t := by
  have hleap : 1000000000 ≤ t.nanos → t.seconds % 60 = 59 := fun hnanos =>
    Decidable.not_not.mp fun hlast => h ⟨hnanos, hlast⟩
  exact dif_pos ⟨t.in_range, t.nanos_lt, hleap⟩

/-- Outside of a leap second the milliseconds tell the instant, also before 1970. -/
theorem ofMillis?_toMillis {t : Instant} (h : t.nanos < 1000000000) :
    ofMillis? t.toMillis = some t.floorMillis := by
  have hseconds : t.toMillis / 1000 = t.floorMillis.seconds := by
    simp only [toMillis, floorMillis]
    omega
  have hnanos : (t.toMillis % 1000).toNat * 1000000 = t.floorMillis.nanos := by
    simp only [toMillis, floorMillis]
    omega
  have hfloor : t.floorMillis.nanos < 1000000000 :=
    Nat.lt_of_le_of_lt (Nat.div_mul_le_self t.nanos 1000000) h
  rw [ofMillis?, hseconds, hnanos, of?_eq_some (not_misplaced_of_lt hfloor)]

def MillisInRange (millis : Int) : Prop := -8334601228800000 ≤ millis ∧ millis ≤ 8210266876799999

theorem exists_ofMillis? {millis : Int} (h : MillisInRange millis) :
    ∃ t, ofMillis? millis = some t ∧ t.toMillis = millis := by
  obtain ⟨hlow, hhigh⟩ := h
  have hrange : -8334601228800 ≤ millis / 1000 ∧ millis / 1000 ≤ 8210266876799 := by omega
  have hlt : (millis % 1000).toNat * 1000000 < 1000000000 := by omega
  let t : Instant :=
    ⟨millis / 1000, (millis % 1000).toNat * 1000000, hrange, Nat.lt_trans hlt (by decide)⟩
  have hof : of? t.seconds t.nanos = some t := of?_eq_some (not_misplaced_of_lt hlt)
  refine ⟨t, hof, ?_⟩
  simp only [t, toMillis]
  omega

theorem toMillis_inRange (t : Instant) : -2 ^ 63 ≤ t.toMillis ∧ t.toMillis < 2 ^ 63 := by
  have hrange := t.in_range
  have hnanos := t.nanos_lt
  simp only [toMillis]
  omega

end StoreQuery.Instant
