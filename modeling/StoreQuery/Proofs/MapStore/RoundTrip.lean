import StoreQuery.Proofs.MapStore.Identity
/-!
Entities and records, each read back from the other. A record can be made of every entity that has a key
in text form and no entity among its values; the first fault is told, the key's before the attributes'.
-/
namespace StoreQuery.MapStore

def keyKinds : List Kind := [.string, .integer, .float, .boolean, .temporal]

theorem keyText_ok_iff (name : String) (v : Value) :
    (∃ key, keyText name v = .ok key) ↔ v.kind ∈ keyKinds := by
  cases v <;> simp [keyText, Value.kind, keyKinds]

def attributeFault (a : Attribute) : Option QueryError := entityFault a.name a.value.hasEntity

theorem verdict_fieldsOf (as : List Attribute) :
    Verdict (as.findSome? attributeFault) (fieldsOf as) fun _ => True := by
  induction as with
  | nil => exact .accept trivial
  | cons a as ih =>
    rw [Verdict.findSome?_cons_or, fieldsOf]
    apply (stored_value a.name a.value).bind
    intro f _
    exact ih.map fun _ _ => trivial

/-- The first attribute with an entity in it is the one that is told. -/
theorem findSome?_attributeFault (as : List Attribute) : as.findSome? attributeFault =
    (as.find? fun a => a.value.hasEntity).map fun a => .unsupportedType backend a.name .entity := by
  induction as with
  | nil => rfl
  | cons a as ih =>
    rw [List.findSome?_cons, List.find?_cons, ih, attributeFault, entityFault]
    cases a.value.hasEntity with
    | true => rfl
    | false => rfl

namespace Record

variable {k : String} {e : Entity} {v : Value} {r : Record}

/-- What keeps an entity from being a record: its key, or else one of its attributes. -/
def faultOf (k : String) (e : Entity) : Option QueryError :=
  match e.get? k with
  | none => some (missingKey e.name k)
  | some v => (faultIn (keyText k v)).or (e.attributes.findSome? attributeFault)

theorem verdict_ofEntity (k : String) (e : Entity) :
    Verdict (faultOf k e) (ofEntity k e) fun _ => True := by
  rw [faultOf, ofEntity]
  cases e.get? k with
  | none => exact .refuse _
  | some v =>
    have hkey : Verdict (faultIn (keyText k v)) (keyText k v) fun _ => True := .of_ok fun _ _ => trivial
    apply hkey.bind
    intro key _
    exact (verdict_fieldsOf e.attributes).map fun _ _ => trivial

theorem faultOf_of_key (hv : e.get? k = some v) (hkind : v.kind ∈ keyKinds) :
    faultOf k e = (e.attributes.find? fun a => a.value.hasEntity).map
      fun a => .unsupportedType backend a.name .entity := by
  obtain ⟨key, hkey⟩ := (keyText_ok_iff k v).mpr hkind
  simp only [faultOf, hv, hkey, faultIn, Option.none_or, findSome?_attributeFault]

theorem faultOf_eq_none_iff : faultOf k e = none ↔
    (∃ v, e.get? k = some v ∧ v.kind ∈ keyKinds) ∧ ∀ a ∈ e.attributes, a.value.hasEntity = false := by
  cases hv : e.get? k with
  | none => simp [faultOf, hv]
  | some v =>
    by_cases hkind : v.kind ∈ keyKinds
    · simp [faultOf_of_key hv hkind, hkind]
    · have hfault : ¬ faultIn (keyText k v) = none := by
        rw [← (Verdict.of_ok fun _ _ => trivial).ok_iff, keyText_ok_iff]
        exact hkind
      simp [faultOf, hv, hkind, hfault]

/-- An entity has a record if its key has a text form and no entity is among its values, and the record
reads back as the entity; the first attribute with an entity is told. A record under the text of its key
field reads as an entity that has this record. -/
theorem records_round_trip {k collection : String} (hname : collection ≠ "") :
    (∀ e : Entity, e.Valid →
      ((∃ r, ofEntity k e = .ok r) ↔ (∃ v, e.get? k = some v ∧ v.kind ∈ keyKinds) ∧
        ∀ a ∈ e.attributes, a.value.hasEntity = false) ∧
      (∀ r, ofEntity k e = .ok r → r.toEntity collection = .ok ⟨collection, e.attributes⟩) ∧
      (∀ v a, e.get? k = some v → v.kind ∈ keyKinds →
        e.attributes.find? (fun b => b.value.hasEntity) = some a →
          ofEntity k e = .error (.unsupportedType backend a.name .entity))) ∧
    ∀ r : Record, r.Readable → ∀ v, r.value? k = some v → keyText k v = .ok r.key →
      ∃ e, r.toEntity collection = .ok e ∧ ofEntity k e = .ok r := by
  constructor
  · intro e he
    refine ⟨?_, ?_, ?_⟩
    · rw [(verdict_ofEntity k e).ok_iff, faultOf_eq_none_iff]
    · intro r hr
      obtain ⟨hentity, -⟩ := of_ofEntity hr
      rw [toEntity_of_readable (readable_ofEntity he hr) hname, ← hentity]
      rfl
    · intro v a hv hkind ha
      rw [(verdict_ofEntity k e).error_iff, faultOf_of_key hv hkind, ha, Option.map_some]
  · intro r hr v hv hkey
    exact ⟨r.entity collection, toEntity_of_readable hr hname, ofEntity_entity hv hkey collection⟩

/-- A leap second, a negative zero and a list of lists, stored and read back; a box in a list and a box
alone, of which the first is told; and a record under its number. -/
theorem records_round_trip_of_log :
    let leap : Instant := ⟨1483228799, 1500000000, by decide, by decide⟩
    let zero : Double := ⟨0x8000000000000000⟩
    let e : Entity := ⟨"log", [⟨"at", .temporal leap⟩, ⟨"id", .text "a"⟩,
      ⟨"runs", .sequence [.sequence [.float zero], .bytes []]⟩]⟩
    let box : Value := .entity ⟨"box", []⟩
    let f : Entity := ⟨"log", [⟨"id", .integer 7⟩, ⟨"held", .sequence [.integer 1, .sequence [box]]⟩,
      ⟨"box", box⟩]⟩
    let r : Record := ⟨"7", [("id", .long 7), ("runs", .list [.list [.bool true]])]⟩
    (∃ s, ofEntity "id" e = .ok s ∧ s.toEntity "logs" = .ok ⟨"logs", e.attributes⟩) ∧
      ofEntity "id" f = .error (.unsupportedType backend "held" .entity) ∧
      ∃ g, r.toEntity "logs" = .ok g ∧ ofEntity "id" g = .ok r := by
  intro leap zero e box f r
  obtain ⟨hwritten, hread⟩ := @records_round_trip "id" "logs" (by decide)
  have he : e.Valid := ⟨by decide, by decide, by decide⟩
  have hf : f.Valid := ⟨by decide, by decide, by decide⟩
  obtain ⟨hiff, hback, -⟩ := hwritten e he
  obtain ⟨-, -, hfirst⟩ := hwritten f hf
  obtain ⟨s, hs⟩ := hiff.mpr ⟨⟨.text "a", rfl, by decide⟩, by decide⟩
  refine ⟨⟨s, hs, hback s hs⟩, ?_, ?_⟩
  · exact hfirst (.integer 7) ⟨"held", .sequence [.integer 1, .sequence [box]]⟩ rfl (by decide) rfl
  · exact hread r ⟨by decide, by decide⟩ (.integer 7) rfl rfl

end Record

end StoreQuery.MapStore
