import StoreQuery.MapStore.Record
import StoreQuery.Proofs.Failures
import StoreQuery.Proofs.Search.Places
import StoreQuery.Proofs.Time.InstantReading
import StoreQuery.Value.Coerce
/-!
Instants that are written as text: as the text of a value, as the key of an entry, and in a document. The
text is read as the instant if its year has four digits and no leap second is out of its place.
-/
namespace StoreQuery

open Rfc3339 (UtcSuffix read_write)

variable {s : String} {t : Instant}

/-- Whether the text of an instant is read as it. Where the year is written with a sign it is refused, and
where a leap second is out of its place it is read as the next second. -/
structure Recovers (s : String) (t : Instant) : Prop where
  recovered : (Value.text s).asInstant = .ok t ↔ t.FourDigitYear ∧ ¬ t.Misplaced
  refused : ¬ t.FourDigitYear → ∃ e, (Value.text s).asInstant = .error e ∧ e.IsConversion
  mistaken : t.FourDigitYear → t.Misplaced → ∃ u, (Value.text s).asInstant = .ok u ∧
    u.seconds = t.seconds + 1 ∧ u.nanos + 1000000000 = t.nanos

theorem recovers_write (suffix : UtcSuffix) (t : Instant) : Recovers (Rfc3339.write suffix t) t := by
  have hread := read_write suffix t
  by_cases hyear : t.FourDigitYear
  · rw [if_pos hyear] at hread
    have hshown : (Value.text (Rfc3339.write suffix t)).asInstant = .ok t.shown := by
      rw [Value.asInstant, hread]
      rfl
    refine ⟨?_, fun h => absurd hyear h, fun _ hleap => ⟨t.shown, hshown, t.shown_of_misplaced hleap⟩⟩
    rw [hshown, Except.ok.injEq, and_iff_right hyear]
    exact ⟨fun h hleap => t.shown_ne hleap h, t.shown_of_not_misplaced⟩
  · rw [if_neg hyear] at hread
    have hrefused : ∃ e, (Value.text (Rfc3339.write suffix t)).asInstant = .error e ∧ e.IsConversion := by
      rw [Value.asInstant, hread]
      exact ⟨_, rfl, _, _, rfl⟩
    refine ⟨iff_of_false ?_ fun h => hyear h.1, fun _ => hrefused, fun h => absurd h hyear⟩
    obtain ⟨e, he, -⟩ := hrefused
    rw [he]
    exact nofun

namespace Search

variable {e back : Entity} {hit : Hit} {collection name : String} {path : List Segment}

/-- Only a text is written as the identifier. -/
theorem ne_idField_of_temporal (h : Hit.ofEntity e = .ok hit)
    (ht : (Value.entity e).at? (.field name :: path) = some (.temporal t)) : name ≠ idField := by
  rintro rfl
  obtain ⟨id, fs, hid, -⟩ := ofEntity_eq_ok.mp h
  rw [Value.at?, List.foldlM_cons] at ht
  obtain ⟨v, hv, ht⟩ := Option.bind_eq_some_iff.mp ht
  obtain ⟨s, rfl⟩ := exists_idOf_iff.mp ⟨id, hid⟩ v hv
  cases path with
  | nil => cases ht
  | cons s path => cases s <;> cases ht

/-- An instant of an entity is read back from a document as its text, in its place. -/
theorem text_of_temporal (hsound : e.Sound) (h : Hit.ofEntity e = .ok hit)
    (hback : hit.toEntity collection = .ok back) (hname : name ≠ entityField)
    (ht : (Value.entity e).at? (.field name :: path) = some (.temporal t)) :
    (Value.entity back).at? (.field name :: path) = some (.text (Rfc3339.write .letter t)) := by
  obtain ⟨p, hp, hj⟩ := at?_of_ofEntity h hsound (ne_idField_of_temporal h ht) hname ht
  cases hj
  obtain ⟨w, field, hw, hread⟩ := at?_of_toEntity hback (regular_ofEntity h hsound).ordered hname hp rfl
  cases hread
  exact hw

end Search

/-- The text of an instant, as a value, as a key and in a document, is read as that instant exactly if its
year has four digits and it is no leap second out of its place. -/
theorem instants_read_back (t : Instant) :
    (∃ s, (Value.temporal t).asText = .ok s ∧ Recovers s t) ∧
    (∃ s, Search.jsonOf (.temporal t) = .ok (.string s) ∧ Recovers s t) ∧
    (∀ name, ∃ s, MapStore.keyText name (.temporal t) = .ok s ∧ Recovers s t) ∧
    ∀ (e : Entity) (hit : Search.Hit) (collection : String), e.Sound → Search.Hit.ofEntity e = .ok hit →
      ∃ back, hit.toEntity collection = .ok back ∧ ∀ name path, name ≠ Search.entityField →
        (Value.entity e).at? (.field name :: path) = some (.temporal t) →
        ∃ s, (Value.entity back).at? (.field name :: path) = some (.text s) ∧ Recovers s t := by
  refine ⟨?_, ?_, ?_, ?_⟩
  · exact ⟨_, rfl, recovers_write .zero t⟩
  · exact ⟨_, rfl, recovers_write .letter t⟩
  · exact fun name => ⟨_, rfl, recovers_write .letter t⟩
  · intro e hit collection hsound h
    obtain ⟨back, hback⟩ := Search.exists_toEntity_of_ofEntity h hsound collection
    refine ⟨back, hback, fun name path hname ht => ?_⟩
    exact ⟨_, Search.text_of_temporal hsound h hback hname ht, recovers_write .letter t⟩

/-- Half a second into the leap second of 2016, in a list. -/
theorem instants_read_back_leap_second :
    let t : Instant := ⟨1483228799, 1500000000, by decide, by decide⟩
    let e : Entity := ⟨"log", [⟨"moments", .sequence [.temporal t]⟩]⟩
    e.Sound ∧ ∃ hit back, Search.Hit.ofEntity e = .ok hit ∧ hit.toEntity "log" = .ok back ∧
      ∃ s, (Value.entity back).at? [.field "moments", .item 0] = some (.text s) ∧
        (Value.text s).asInstant = .ok t := by
  intro t e
  have hmoment (v : Value) : v.Within (.temporal t) ↔ v = .temporal t := Value.within_of_scalar rfl
  have hsound : e.Sound := by
    intro f hf
    have hf : f = e := by simpa [e, hmoment] using hf
    rw [hf]
    exact ⟨by decide, by decide, by decide⟩
  have hfinite : (Value.entity e).Finite := by
    intro x hx
    simp [e, hmoment] at hx
  have hget : e.get? Search.idField = none := rfl
  have hwritable : (∀ v, e.get? Search.idField = some v → ∃ s, v = .text s) ∧
      ∀ a ∈ e.attributes, a.name ≠ Search.idField → a.value.Finite := by
    rw [hget]
    exact ⟨nofun, fun a ha _ => Value.finite_entity.mp hfinite a ha⟩
  obtain ⟨hit, hhit⟩ := Search.exists_ofEntity_iff.mpr hwritable
  obtain ⟨-, -, -, hdocuments⟩ := instants_read_back t
  obtain ⟨back, hback, hplaces⟩ := hdocuments e hit "log" hsound hhit
  obtain ⟨s, hs, hrecovers⟩ := hplaces "moments" [.item 0] (by decide) rfl
  exact ⟨hsound, hit, back, hhit, hback, s, hs, hrecovers.recovered.mpr ⟨by decide, by decide⟩⟩

/-- The first instant of the year 10000 is refused. A leap second behind the tenth second of a minute is read
as the eleventh. -/
theorem unread_instants :
    let late : Instant := ⟨253402300800, 0, by decide, by decide⟩
    let leap : Instant := ⟨10, 1500000000, by decide, by decide⟩
    let eleventh : Instant := ⟨11, 500000000, by decide, by decide⟩
    ((Value.temporal late).asText = .ok "+10000-01-01T00:00:00+00:00" ∧
      ∃ e, (Value.text "+10000-01-01T00:00:00+00:00").asInstant = .error e ∧ e.IsConversion) ∧
    (Value.temporal leap).asText = .ok "1970-01-01T00:00:11.500+00:00" ∧
      (Value.text "1970-01-01T00:00:11.500+00:00").asInstant = .ok eleventh := by
  intro late leap eleventh
  have hlate : Rfc3339.write .zero late = "+10000-01-01T00:00:00+00:00" := by decide
  have hleap : Rfc3339.write .zero leap = "1970-01-01T00:00:11.500+00:00" := by decide
  have hrefused := (recovers_write .zero late).refused (by decide)
  have hmistaken := (recovers_write .zero leap).mistaken (by decide) (by decide)
  rw [hlate] at hrefused
  rw [hleap] at hmistaken
  obtain ⟨u, hread, hseconds, hnanos⟩ := hmistaken
  have hu : u = eleventh := by
    apply Instant.eq_of_fields hseconds
    change u.nanos + 1000000000 = 1500000000 at hnanos
    change u.nanos = 500000000
    omega
  rw [hu] at hread
  exact ⟨⟨congrArg Except.ok hlate, hrefused⟩, congrArg Except.ok hleap, hread⟩

end StoreQuery
