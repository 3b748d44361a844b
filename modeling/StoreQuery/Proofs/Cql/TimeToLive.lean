import Mathlib.Order.Bounds.Defs
import StoreQuery.Proofs.Cql.StatementText
/-!
The whole seconds that an insertion states for a time to live. They are the fewest that cover the
duration, so that no entity goes early, wherever 64 bits hold so many; past the last second that 64 bits
hold the sum starts again at zero, and the entity is left one second.
-/
namespace StoreQuery

namespace TimeToLive

/-- The positive numbers of seconds that are not below the duration. -/
def covering (t : TimeToLive) : Set Nat := {n | 0 < n ∧ t.toNanos ≤ n * 1000000000}

def longest : Nat := (2 ^ 64 - 1) * 1000000000

variable {t u : TimeToLive}

theorem toNat_wholeSeconds (t : TimeToLive) :
    t.wholeSeconds.toNat = max ((t.seconds.toNat + if 0 < t.nanos then 1 else 0) % 2 ^ 64) 1 := by
  rw [wholeSeconds, UInt64.toNat_max, UInt64.toNat_add, apply_ite UInt64.toNat]
  rfl

/-- Where the sum fits, it is the duration rounded up. -/
theorem isLeast_wholeSeconds (hnanos : t.nanos < 1000000000) (h : t.toNanos ≤ longest) :
    IsLeast t.covering t.wholeSeconds.toNat := by
  unfold toNanos longest at h
  have hfits : t.seconds.toNat + (if 0 < t.nanos then 1 else 0) < 2 ^ 64 := by
    split <;> omega
  rw [toNat_wholeSeconds, Nat.mod_eq_of_lt hfits]
  constructor
  · change 0 < max _ 1 ∧ t.seconds.toNat * 1000000000 + t.nanos ≤ max _ 1 * 1000000000
    split <;> omega
  · rintro n ⟨hpos, hcovers⟩
    unfold toNanos at hcovers
    split <;> omega

/-- Only the last second of 64 bits with a fraction behind it is longer. -/
theorem wholeSeconds_of_longer (hnanos : t.nanos < 1000000000) (h : longest < t.toNanos) :
    t.wholeSeconds = 1 := by
  have hlast := t.seconds.toNat_lt
  unfold toNanos longest at h
  have hseconds : t.seconds.toNat = 2 ^ 64 - 1 := by omega
  have hfraction : 0 < t.nanos := by omega
  apply UInt64.toNat_inj.mp
  rw [toNat_wholeSeconds, if_pos hfraction, hseconds]
  rfl

theorem isLeast_wholeSeconds_iff (hnanos : t.nanos < 1000000000) :
    IsLeast t.covering t.wholeSeconds.toNat ↔ t.toNanos ≤ longest := by
  constructor
  · intro hleast
    by_contra hlonger
    have hone := wholeSeconds_of_longer hnanos (Nat.lt_of_not_le hlonger)
    have hcovers : t.toNanos ≤ 1 * 1000000000 := by
      have := hleast.1.2
      rwa [hone] at this
    unfold longest at hlonger
    omega
  · exact isLeast_wholeSeconds hnanos

theorem wholeSeconds_mono (ht : t.nanos < 1000000000) (hu : u.nanos < 1000000000)
    (h : t.toNanos ≤ u.toNanos) (hlongest : u.toNanos ≤ longest) : t.wholeSeconds ≤ u.wholeSeconds := by
  have hleast := isLeast_wholeSeconds ht (Nat.le_trans h hlongest)
  obtain ⟨hpos, hcovers⟩ := (isLeast_wholeSeconds hu hlongest).1
  exact UInt64.le_iff_toNat_le.mpr (hleast.2 ⟨hpos, Nat.le_trans h hcovers⟩)

end TimeToLive

namespace Cql

variable {k : Keyspace} {e : Entity}

/-- The insertion of an entity says that it lives for so many seconds, and is otherwise the one without a
time to live. -/
def Keyspace.Grants (k : Keyspace) (e : Entity) (t : TimeToLive) (n : Nat) : Prop :=
  ∃ plain i, k.insert e none = .ok plain ∧ k.insert e (some t) = .ok i ∧
    i.write.cql = plain.write.cql ++ " USING TTL " ++ Decimal.ofNat n ∧
    i.write.values = plain.write.values ∧
    Outline.ofText? i.write.cql = some (.insert (keyspace? k.name) e.name e.names (some n))

theorem Keyspace.Grants.unique {t : TimeToLive} {m n : Nat} (hm : k.Grants e t m)
    (hn : k.Grants e t n) : m = n := by
  obtain ⟨_, i, _, hi, _, _, hread⟩ := hm
  obtain ⟨_, j, _, hj, _, _, hother⟩ := hn
  rw [hi] at hj
  cases hj
  rw [hread] at hother
  cases hother
  rfl

/-- The time to live stands at the end. -/
theorem cql_expiring (keyspace table : String) (columns : List (String × Datum)) (n : UInt64) :
    (Insert.mk keyspace table columns (some n)).write.cql =
      (Insert.mk keyspace table columns none).write.cql ++ " USING TTL " ++ Decimal.ofNat n.toNat := by
  have happend (s n : String) : s ++ (" USING TTL " ++ n) = s ++ "" ++ " USING TTL " ++ n := by
    rw [String.append_empty (s := s), String.append_assoc]
  exact happend _ _

theorem insert_of_nonempty (h : e.isEmpty = false) (ttl : Option TimeToLive) :
    k.insert e ttl =
      .ok ⟨k.name, e.name, Datum.ofAttributes e.attributes, ttl.map TimeToLive.wholeSeconds⟩ :=
  if_neg (by rw [h]; exact Bool.false_ne_true)

theorem grants_wholeSeconds (h : e.isEmpty = false) (t : TimeToLive) :
    k.Grants e t t.wholeSeconds.toNat := by
  have hplain := insert_of_nonempty (k := k) h none
  have hinsert := insert_of_nonempty (k := k) h (some t)
  rw [Option.map_some] at hinsert
  rw [Option.map_none] at hplain
  obtain ⟨-, houtline⟩ := insert_says hinsert
  refine ⟨_, _, hplain, hinsert, cql_expiring _ _ _ _, rfl, ?_⟩
  refine (Statement.unambiguous (.insert _)).read.trans ?_
  rw [houtline, Option.map_some]

/-- An insertion states the fewest seconds that cover the time to live, and no fewer for a longer time,
wherever 64 bits hold that many. -/
theorem insertions_cover_time_to_live (k : Keyspace) (e : Entity) (t : TimeToLive)
    (he : e.isEmpty = false) (ht : t.nanos < 1000000000) :
    k.Grants e t t.wholeSeconds.toNat ∧
    (IsLeast t.covering t.wholeSeconds.toNat ↔ t.toNanos ≤ TimeToLive.longest) ∧
    (TimeToLive.longest < t.toNanos → t.wholeSeconds = 1) ∧
    ∀ u : TimeToLive, u.nanos < 1000000000 → t.toNanos ≤ u.toNanos →
      u.toNanos ≤ TimeToLive.longest → t.wholeSeconds ≤ u.wholeSeconds :=
  ⟨grants_wholeSeconds he t, TimeToLive.isLeast_wholeSeconds_iff ht,
    TimeToLive.wholeSeconds_of_longer ht, fun _ hu => TimeToLive.wholeSeconds_mono ht hu⟩

/-- One fraction of a second before the last second of 64 bits. -/
theorem insertions_cover_time_to_live_at_limit :
    let k : Keyspace := { name := "app" }
    let e : Entity := ⟨"person", [⟨"id", .text "p1"⟩]⟩
    let t : TimeToLive := ⟨18446744073709551614, 1⟩
    let u : TimeToLive := ⟨18446744073709551615, 0⟩
    (e.isEmpty = false ∧ t.nanos < 1000000000 ∧ u.nanos < 1000000000) ∧
    (t.toNanos ≤ u.toNanos ∧ u.toNanos ≤ TimeToLive.longest) ∧
    k.Grants e t 18446744073709551615 ∧ IsLeast t.covering 18446744073709551615 ∧
    t.wholeSeconds ≤ u.wholeSeconds := by
  intro k e t u
  have he : e.isEmpty = false := rfl
  have ht : t.nanos < 1000000000 := by decide
  have hu : u.nanos < 1000000000 := by decide
  have horder : t.toNanos ≤ u.toNanos := by decide +kernel
  have hlongest : u.toNanos ≤ TimeToLive.longest := by decide +kernel
  have hseconds : t.wholeSeconds.toNat = 18446744073709551615 := by decide +kernel
  obtain ⟨hgrants, hleast, -, hmono⟩ := insertions_cover_time_to_live k e t he ht
  rw [hseconds] at hgrants hleast
  exact ⟨⟨he, ht, hu⟩, ⟨horder, hlongest⟩, hgrants, hleast.mpr (Nat.le_trans horder hlongest),
    hmono u hu horder hlongest⟩

/-- The longest time to live is granted one second, and a minute is granted more. -/
theorem longest_time_to_live_cut_short :
    let k : Keyspace := { name := "app" }
    let e : Entity := ⟨"person", [⟨"id", .text "p1"⟩]⟩
    let t : TimeToLive := ⟨18446744073709551615, 1⟩
    let minute : TimeToLive := ⟨60, 0⟩
    (e.isEmpty = false ∧ t.nanos < 1000000000 ∧ minute.toNanos < t.toNanos) ∧
    (k.insert e (some t)).map (fun i => i.write.cql) =
      .ok "INSERT INTO \"app\".\"person\" (\"id\") VALUES (?) USING TTL 1" ∧
    k.Grants e t 1 ∧ IsLeast t.covering 18446744073709551616 ∧
    (¬ ∃ n, k.Grants e t n ∧ IsLeast t.covering n) ∧ k.Grants e minute 60 := by
  intro k e t minute
  have he : e.isEmpty = false := rfl
  have hseconds : t.wholeSeconds.toNat = 1 := by decide +kernel
  have hsixty : minute.wholeSeconds.toNat = 60 := by decide +kernel
  have hone : k.Grants e t 1 := hseconds ▸ grants_wholeSeconds he t
  have hminute : k.Grants e minute 60 := hsixty ▸ grants_wholeSeconds he minute
  have hleast : IsLeast t.covering 18446744073709551616 := by
    constructor
    · exact ⟨by decide, by decide +kernel⟩
    · rintro n ⟨-, hcovers⟩
      have hnanos : t.toNanos = 18446744073709551615000000001 := by decide +kernel
      rw [hnanos] at hcovers
      omega
  refine ⟨⟨he, by decide, by decide +kernel⟩, by decide +kernel, hone, hleast, ?_, hminute⟩
  rintro ⟨n, hgrants, hother⟩
  rw [hgrants.unique hone] at hother
  exact absurd (hother.unique hleast) (by decide)

end Cql

end StoreQuery
