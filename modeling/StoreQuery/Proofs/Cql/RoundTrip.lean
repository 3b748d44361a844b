import StoreQuery.Proofs.Cql.Relations
import StoreQuery.Proofs.Lists
import StoreQuery.Proofs.Time.Millis
import StoreQuery.Proofs.Value.Parts
/-!
Rows as a form of entities. An entity that is stored as a row reads back with its attributes in order,
but for the names of the entities in it and for what is finer than a millisecond; a row that is read is
stored as it was.
-/
namespace StoreQuery.Cql

section Entities

def floored : Value → Value
  | .temporal t => .temporal t.floorMillis
  | v => v

def Reads (f : String × Datum) (a : Attribute) : Prop := f.1 = a.name ∧ f.2.read f.1 = .ok a.value

variable {column : String} {items : List Datum} {vs : List Value} {fields : List (String × Datum)}
  {as : List Attribute}

theorem readItems_of_related (h : List.Forall₂ (fun d v => d.read column = .ok v) items vs) :
    Datum.readItems column items = .ok vs := by
  induction h with
  | nil => rfl
  | cons hd _ ih =>
    rw [Datum.readItems, hd, ih]
    rfl

theorem readFields_of_related (h : List.Forall₂ Reads fields as)
    (hnamed : "" ∉ as.map Attribute.name) : Datum.readFields fields = .ok as := by
  induction h with
  | nil => rfl
  | @cons f a fields as hfa _ ih =>
    obtain ⟨name, d⟩ := f
    obtain ⟨_, v⟩ := a
    obtain ⟨rfl, hread⟩ := hfa
    simp only [List.map_cons, List.mem_cons, not_or] at hnamed
    have hname : name ≠ "" := fun hempty => hnamed.1 hempty.symm
    rw [Datum.readFields, QueryError.within_eq_ok.mpr hread, ih hnamed.2]
    simp only [Attribute.of, if_neg hname]
    rfl

theorem readColumns_of_related (h : List.Forall₂ Reads fields as) (e : Entity) :
    Row.readColumns e fields = e.setAll as := by
  induction h generalizing e with
  | nil => rfl
  | @cons f a fields as hfa _ ih =>
    obtain ⟨name, d⟩ := f
    obtain ⟨rfl, hread⟩ := hfa
    rw [Row.readColumns, QueryError.within_eq_ok.mpr hread, Entity.setAll]
    exact congrArg (_ >>= ·) (funext ih)

theorem ofAttributes_eq (as : List Attribute) :
    Datum.ofAttributes as = as.map fun a => (a.name, Datum.ofValue a.value) := by
  induction as with
  | nil => rfl
  | cons a as ih =>
    obtain ⟨name, v⟩ := a
    rw [Datum.ofAttributes, ih, List.map_cons]

variable {v : Value} {e : Entity}

theorem related_rebuilt (hvalid : e.Valid)
    (h : ∀ a ∈ e.attributes, a.name ≠ "" →
      (Datum.ofValue a.value).read a.name = .ok (a.value.rebuilt floored a.name)) :
    List.Forall₂ Reads (Datum.ofAttributes e.attributes)
      (e.attributes.map (Attribute.rebuilt floored)) := by
  rw [ofAttributes_eq]
  apply related_map
  intro a ha
  exact ⟨rfl, h a ha (hvalid.name_ne_empty ha)⟩

theorem read_ofValue (hsound : v.Sound)
    (hleap : ∀ t, (Value.temporal t).Within v → t.nanos < 1000000000) (hcolumn : column ≠ "") :
    (Datum.ofValue v).read column = .ok (v.rebuilt floored column) := by
  induction v using Value.byParts generalizing column with
  | whole v ih =>
    cases v with
    | temporal t =>
      have hmillis := Int64.toInt_ofInt_of_le t.toMillis_inRange.1 t.toMillis_inRange.2
      simp only [Datum.ofValue, Datum.read, hmillis, Instant.ofMillis?_toMillis (hleap t .self)]
      rfl
    | sequence items =>
      have hitems : Datum.readItems column (items.map Datum.ofValue) =
          .ok (items.map (Value.rebuilt floored column)) := by
        apply readItems_of_related
        apply related_map
        intro v hv
        exact ih v hv (hsound.part hv) (fun t ht => hleap t (.part hv ht)) hcolumn
      rw [Datum.ofValue, ofItems_eq, Datum.read, hitems, Value.rebuilt_sequence]
      rfl
    | entity e =>
      have hvalid : e.Valid := hsound e .self
      have hrelated := related_rebuilt hvalid fun a ha hname =>
        have hpart := List.mem_map_of_mem ha
        ih a.value hpart (hsound.part hpart) (fun t ht => hleap t (.part hpart ht)) hname
      have hrebuilt := hvalid.rebuilt floored hcolumn
      have hfields := readFields_of_related hrelated hrebuilt.attributes_named
      have hof := Entity.of_eq hcolumn hrebuilt.distinct
      obtain ⟨name, attributes⟩ := e
      rw [Datum.ofValue, Datum.read, hfields, Value.rebuilt_entity]
      exact congrArg (Except.map Value.entity) hof
    | _ => rfl

theorem toEntity_ofEntity (hsound : e.Sound)
    (hleap : ∀ t, (Value.temporal t).Within (.entity e) → t.nanos < 1000000000)
    {collection : String} (hcollection : collection ≠ "") :
    Row.toEntity collection (Row.ofEntity e) = .ok (e.rebuilt floored collection) := by
  have hvalid := hsound.valid
  have hrelated := related_rebuilt hvalid fun a ha hname =>
    read_ofValue (hsound.value ha) (fun t ht => hleap t (.part (List.mem_map_of_mem ha) ht)) hname
  have hrebuilt := hvalid.rebuilt floored hcollection
  rw [Row.toEntity, Entity.new_of_named hcollection]
  change Row.readColumns _ _ = _
  rw [Row.ofEntity, readColumns_of_related hrelated]
  exact Entity.setAll_of_new hrebuilt.attributes_named hrebuilt.distinct

end Entities

section Rows

def Datum.parts : Datum → List Datum
  | .text _ | .bigint _ | .double _ | .boolean _ | .timestamp _ | .blob _ => []
  | .list items => items
  | .udt fields => fields.map Prod.snd

def Datum.Within (inner outer : Datum) : Prop := StoreQuery.Within Datum.parts inner outer

section Within

variable {inner d : Datum}

theorem Datum.within_of_scalar (h : d.parts = []) : inner.Within d ↔ inner = d :=
  within_of_no_parts h

@[simp]
theorem Datum.within_list {items : List Datum} :
    inner.Within (.list items) ↔ inner = .list items ∨ ∃ d ∈ items, inner.Within d :=
  within_iff

@[simp]
theorem Datum.within_udt {fields : List (String × Datum)} :
    inner.Within (.udt fields) ↔ inner = .udt fields ∨ ∃ f ∈ fields, inner.Within f.2 :=
  within_iff_of_map rfl

end Within

theorem Datum.sizeOf_part_lt {d p : Datum} (h : p ∈ d.parts) : sizeOf p < sizeOf d := by
  cases d with
  | list items =>
    have hlt := List.sizeOf_lt_of_mem (show p ∈ items from h)
    simp only [Datum.list.sizeOf_spec]
    omega
  | udt fields =>
    obtain ⟨⟨name, held⟩, hf, rfl⟩ := List.mem_map.mp h
    have hlt := List.sizeOf_lt_of_mem hf
    simp only [Datum.udt.sizeOf_spec, Prod.mk.sizeOf_spec] at hlt ⊢
    omega
  | _ => cases h

/-- Induction from the parts of a datum to the datum. -/
theorem Datum.byParts {motive : Datum → Prop}
    (whole : ∀ d, (∀ p ∈ d.parts, motive p) → motive d) (d : Datum) : motive d :=
  whole d fun p _ => byParts whole p
termination_by sizeOf d
decreasing_by exact Datum.sizeOf_part_lt ‹_›

/-- Data that can be read: fields have names, each one of its own, and timestamps name instants. -/
structure Datum.Readable (d : Datum) : Prop where
  named : ∀ fields, (Datum.udt fields).Within d → "" ∉ fields.map Prod.fst
  distinct : ∀ fields, (Datum.udt fields).Within d → (fields.map Prod.fst).Nodup
  timestamps : ∀ millis, (Datum.timestamp millis).Within d → Instant.MillisInRange millis.toInt

theorem Datum.Readable.part {d p : Datum} (h : d.Readable) (hp : p ∈ d.parts) : p.Readable where
  named fields hf := h.named fields (.part hp hf)
  distinct fields hf := h.distinct fields (.part hp hf)
  timestamps millis hm := h.timestamps millis (.part hp hm)

variable {d : Datum} {column : String} {fields : List (String × Datum)}

theorem exists_attributes (hnamed : "" ∉ fields.map Prod.fst)
    (h : ∀ f ∈ fields, f.1 ≠ "" → ∃ v, f.2.read f.1 = .ok v ∧ Datum.ofValue v = f.2) :
    ∃ as, List.Forall₂ Reads fields as ∧ Datum.ofAttributes as = fields ∧
      as.map Attribute.name = fields.map Prod.fst := by
  have hpartner : ∀ f ∈ fields, ∃ a : Attribute,
      Reads f a ∧ (a.name, Datum.ofValue a.value) = f := by
    intro f hf
    have hname : f.1 ≠ "" := fun hempty => hnamed (hempty ▸ List.mem_map_of_mem hf)
    obtain ⟨v, hread, hv⟩ := h f hf hname
    exact ⟨⟨f.1, v⟩, ⟨rfl, hread⟩, by rw [hv]⟩
  obtain ⟨as, has⟩ := exists_partners hpartner
  have hfields : Datum.ofAttributes as = fields := by
    have hmap : fields.map id = as.map fun a => (a.name, Datum.ofValue a.value) :=
      map_eq_of_related (has.imp fun _ _ hfa => hfa.2.symm)
    rw [ofAttributes_eq, ← hmap, List.map_id]
  refine ⟨as, has.imp fun _ _ hfa => hfa.1, hfields, ?_⟩
  rw [← hfields, ofAttributes_eq, List.map_map]
  rfl

theorem exists_read (h : d.Readable) (hcolumn : column ≠ "") :
    ∃ v, d.read column = .ok v ∧ Datum.ofValue v = d := by
  induction d using Datum.byParts generalizing column with
  | whole d ih =>
    cases d with
    | text s => exact ⟨.text s, rfl, rfl⟩
    | bigint n => exact ⟨.integer n, rfl, rfl⟩
    | double x => exact ⟨.float x, rfl, rfl⟩
    | boolean b => exact ⟨.boolean b, rfl, rfl⟩
    | blob bs => exact ⟨.bytes bs, rfl, rfl⟩
    | timestamp millis =>
      obtain ⟨t, ht, hmillis⟩ := Instant.exists_ofMillis? (h.timestamps millis .self)
      refine ⟨.temporal t, ?_, ?_⟩
      · simp only [Datum.read, ht]
      · rw [Datum.ofValue, hmillis, Int64.ofInt_toInt]
    | list items =>
      have hpartner : ∀ p ∈ items, ∃ v, p.read column = .ok v ∧ Datum.ofValue v = p :=
        fun p hp => ih p hp (h.part hp) hcolumn
      obtain ⟨vs, hvs⟩ := exists_partners hpartner
      refine ⟨.sequence vs, ?_, ?_⟩
      · rw [Datum.read, readItems_of_related (hvs.imp fun _ _ hp => hp.1)]
        rfl
      · have hmap : items.map id = vs.map Datum.ofValue :=
          map_eq_of_related (hvs.imp fun _ _ hp => hp.2.symm)
        rw [Datum.ofValue, ofItems_eq, ← hmap, List.map_id]
    | udt fields =>
      have hnamed := h.named fields .self
      obtain ⟨as, hrelated, hfields, hnames⟩ := exists_attributes hnamed fun f hf hname =>
        have hpart := List.mem_map_of_mem hf
        ih f.2 hpart (h.part hpart) hname
      have hof := Entity.of_eq hcolumn (hnames ▸ h.distinct fields .self)
      refine ⟨.entity ⟨column, as⟩, ?_, ?_⟩
      · rw [Datum.read, readFields_of_related hrelated (hnames ▸ hnamed)]
        exact congrArg (Except.map Value.entity) hof
      · rw [Datum.ofValue, hfields]

/-- A row as a whole is read as its columns are in a user-defined type. -/
theorem ofEntity_toEntity {r : Row} (h : (Datum.udt r.columns).Readable) {collection : String}
    (hcollection : collection ≠ "") :
    ∃ e, r.toEntity collection = .ok e ∧ Row.ofEntity e = r := by
  have hnamed := h.named r.columns .self
  obtain ⟨as, hrelated, hfields, hnames⟩ := exists_attributes hnamed fun f hf hname =>
    exists_read (h.part (List.mem_map_of_mem hf)) hname
  refine ⟨⟨collection, as⟩, ?_, ?_⟩
  · rw [Row.toEntity, Entity.new_of_named hcollection]
    change Row.readColumns _ _ = _
    rw [readColumns_of_related hrelated]
    exact Entity.setAll_of_new (hnames ▸ hnamed) (hnames ▸ h.distinct r.columns .self)
  · rw [Row.ofEntity, hfields]

end Rows

/-- What is stored as a row reads back to the millisecond, attribute by attribute, named after the
collection, and after its holder inside of it; a row that can be read is stored as it was. -/
theorem rows_round_trip {collection : String} (hcollection : collection ≠ "") :
    (∀ e : Entity, e.Sound →
      (∀ t, (Value.temporal t).Within (.entity e) → t.nanos < 1000000000) →
      Row.toEntity collection (Row.ofEntity e) = .ok (e.rebuilt floored collection)) ∧
    ∀ r : Row, (Datum.udt r.columns).Readable →
      ∃ e, r.toEntity collection = .ok e ∧ Row.ofEntity e = r := by
  refine ⟨?_, ?_⟩
  · intro e hsound hleap
    exact toEntity_ofEntity hsound hleap hcollection
  · intro r hreadable
    exact ofEntity_toEntity hreadable hcollection

/-- An order of the last moment before 1970, with lines in a list, and a row with a user-defined type. -/
theorem rows_round_trip_of_order :
    let placed : Instant := ⟨-1, 999999999, by decide, by decide⟩
    let floor : Instant := ⟨-1, 999000000, by decide, by decide⟩
    let line : Entity := ⟨"line", [⟨"sku", .text "a1"⟩, ⟨"packed", .temporal placed⟩]⟩
    let e : Entity := ⟨"order", [⟨"lines", .sequence [.entity line]⟩, ⟨"placed", .temporal placed⟩]⟩
    let r : Row := ⟨[("at", .timestamp (-1)), ("place", .udt [("zip", .list [.bigint 1000])])]⟩
    e.Sound ∧ (∀ t, (Value.temporal t).Within (.entity e) → t.nanos < 1000000000) ∧
      (Datum.udt r.columns).Readable ∧
      Row.toEntity "orders" (Row.ofEntity e) = .ok ⟨"orders",
        [⟨"lines", .sequence
            [.entity ⟨"lines", [⟨"sku", .text "a1"⟩, ⟨"packed", .temporal floor⟩]⟩]⟩,
          ⟨"placed", .temporal floor⟩]⟩ ∧
      ∃ back, r.toEntity "orders" = .ok back ∧ Row.ofEntity back = r := by
  intro placed floor line e r
  have hsku (v : Value) : v.Within (.text "a1") ↔ v = .text "a1" := Value.within_of_scalar rfl
  have hplaced (v : Value) : v.Within (.temporal placed) ↔ v = .temporal placed :=
    Value.within_of_scalar rfl
  have hsound : e.Sound := by
    intro f hf
    have hf : f = e ∨ f = line := by simpa [e, line, hsku, hplaced] using hf
    rcases hf with rfl | rfl
    · exact ⟨by decide, by decide, by decide⟩
    · exact ⟨by decide, by decide, by decide⟩
  have hleap : ∀ t, (Value.temporal t).Within (.entity e) → t.nanos < 1000000000 := by
    intro t ht
    have ht : t = placed := by simpa [e, line, hsku, hplaced] using ht
    rw [ht]
    decide
  have hat (d : Datum) : d.Within (.timestamp (-1)) ↔ d = .timestamp (-1) :=
    Datum.within_of_scalar rfl
  have hzip (d : Datum) : d.Within (.bigint 1000) ↔ d = .bigint 1000 := Datum.within_of_scalar rfl
  have hfields : ∀ fields, (Datum.udt fields).Within (.udt r.columns) →
      fields = r.columns ∨ fields = [("zip", .list [.bigint 1000])] := by
    intro fields h
    simpa [r, hat, hzip] using h
  have hreadable : (Datum.udt r.columns).Readable := by
    constructor
    · intro fields h
      rcases hfields fields h with rfl | rfl <;> decide
    · intro fields h
      rcases hfields fields h with rfl | rfl <;> decide
    · intro millis h
      have hmillis : millis = -1 := by simpa [r, hat, hzip] using h
      rw [hmillis]
      exact ⟨by decide, by decide⟩
  have hround := @rows_round_trip "orders" (by decide)
  have hfloor : placed.floorMillis = floor := by decide
  refine ⟨hsound, hleap, hreadable, ?_, hround.2 r hreadable⟩
  rw [hround.1 e hsound hleap]
  simp only [e, line, Entity.rebuilt, Attribute.rebuilt, Value.rebuilt, Value.rebuiltItems,
    Value.rebuiltAttributes, floored, hfloor, List.map_cons, List.map_nil]

end StoreQuery.Cql
