import StoreQuery.MapStore.Record
import StoreQuery.Proofs.Entity
import StoreQuery.Proofs.Step
/-!
Records that read back as entities. What is stored names each field once and never by the empty name,
so nothing is lost or refused when it is read.
-/
namespace StoreQuery

namespace MapStore

structure Record.Readable (r : Record) : Prop where
  named : "" ∉ r.fields.map Prod.fst
  distinct : (r.fields.map Prod.fst).Nodup

def Record.entity (collection : String) (r : Record) : Entity :=
  ⟨collection, r.fields.map fun f => ⟨f.1, f.2.toValue⟩⟩

theorem fieldsOf_names {as : List Attribute} {fields : List (String × FieldValue)}
    (h : fieldsOf as = .ok fields) : fields.map Prod.fst = as.map Attribute.name := by
  induction as generalizing fields with
  | nil =>
    cases h
    rfl
  | cons a as ih =>
    obtain ⟨v, _, h⟩ := exists_of_bind_ok h
    obtain ⟨rest, hrest, h⟩ := exists_of_bind_ok h
    cases h
    simp [ih hrest]

namespace Record

variable {r : Record}

theorem readable_ofEntity {keyAttribute : String} {e : Entity} (he : e.Valid)
    (h : ofEntity keyAttribute e = .ok r) : r.Readable := by
  simp only [ofEntity] at h
  split at h
  · cases h
  · obtain ⟨key, _, h⟩ := exists_of_bind_ok h
    obtain ⟨fields, hfields, h⟩ := exists_of_bind_ok h
    cases h
    have hnames := fieldsOf_names hfields
    exact ⟨hnames ▸ he.attributes_named, hnames ▸ he.distinct⟩

theorem Readable.without (h : r.Readable) (names : List String) : (r.without names).Readable := by
  have hsub : ((r.without names).fields.map Prod.fst).Sublist (r.fields.map Prod.fst) :=
    List.filter_sublist.map Prod.fst
  exact ⟨fun hmem => h.named (hsub.subset hmem), h.distinct.sublist hsub⟩

theorem readFields_eq_setAll (e : Entity) (fields : List (String × FieldValue)) :
    readFields e fields = e.setAll (fields.map fun f => ⟨f.1, f.2.toValue⟩) := by
  induction fields generalizing e with
  | nil => rfl
  | cons f fields ih => simp only [readFields, List.map_cons, Entity.setAll, ih]

theorem readFields_eq {e : Entity} {fields : List (String × FieldValue)}
    (hnamed : "" ∉ fields.map Prod.fst)
    (hdistinct : (e.names ++ fields.map Prod.fst).Nodup) :
    readFields e fields =
      .ok ⟨e.name, e.attributes ++ fields.map fun f => ⟨f.1, f.2.toValue⟩⟩ := by
  have hnames : (fields.map fun f => (⟨f.1, f.2.toValue⟩ : Attribute)).map Attribute.name =
      fields.map Prod.fst := List.map_map
  rw [readFields_eq_setAll]
  exact Entity.setAll_of_new (hnames ▸ hnamed) (hnames ▸ hdistinct)

/-- What is stored reads back, field by field. -/
theorem toEntity_of_readable (h : r.Readable) {collection : String} (hname : collection ≠ "") :
    toEntity collection r = .ok (r.entity collection) := by
  simp only [toEntity, Entity.new]
  rw [if_neg hname]
  exact readFields_eq h.named h.distinct

end Record

end MapStore

end StoreQuery
