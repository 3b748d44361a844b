import StoreQuery.Proofs.Cql.RoundTrip
import StoreQuery.Proofs.Entity.History
import StoreQuery.Proofs.Value.Rearrangement
/-!
Values that are built from the inside out. Whatever edits made its entities, and whatever edits made the
entities in those, a built value is sound, as the round trips and the laws of equality ask.
-/
namespace StoreQuery

def Edit.value? : Edit → Option Value
  | .set _ v | .extend _ v => some v
  | .add a => some a.val.value
  | .remove _ => none

/-- The edits of an entity bring in values that were built before. -/
inductive Value.Built : Value → Prop where
  | scalar {v : Value} : v.kind ≠ .sequence → v.kind ≠ .entity → Built v
  | sequence {items : List Value} : (∀ v ∈ items, Built v) → Built (.sequence items)
  | entity {collection : String} {history : List Edit} {e : Entity} :
      Entity.Traced collection history e → (∀ x ∈ history, ∀ v ∈ x.value?, Built v) →
      Built (.entity e)

section Sound

variable {collection : String} {history xs : List Edit} {x : Edit} {e f : Entity} {v : Value}

theorem Entity.Sound.edit (he : e.Sound) (hvalue : ∀ v ∈ x.value?, v.Sound)
    (h : (e.edit x).left = some f) : f.Sound := by
  cases x with
  | set name value =>
    simp only [Entity.edit] at h
    split at h
    · rename_i hset
      cases h
      exact set_sound he (hvalue value rfl) hset
    · cases h
      exact he
  | extend name value =>
    simp only [Entity.edit] at h
    split at h
    · rename_i hset
      cases h
      exact set_sound he (hvalue value rfl) hset
    · cases h
  | add a =>
    cases h
    exact add_sound he (hvalue a.val.value rfl) a.named
  | remove name =>
    cases h
    exact remove_sound he name

theorem Entity.Sound.edits (he : e.Sound) (hvalues : ∀ x ∈ xs, ∀ v ∈ x.value?, v.Sound)
    (h : e.edits xs = some f) : f.Sound := by
  induction xs generalizing e with
  | nil =>
    cases h
    exact he
  | cons x xs ih =>
    obtain ⟨g, hg, hrest⟩ := Option.bind_eq_some_iff.mp h
    obtain ⟨hvalue, hvalues⟩ := List.forall_mem_cons.mp hvalues
    exact ih (he.edit hvalue hg) hvalues hrest

theorem Entity.Traced.sound (h : Traced collection history e)
    (hvalues : ∀ x ∈ history, ∀ v ∈ x.value?, v.Sound) : e.Sound := by
  induction h with
  | new hnew => exact new_sound hnew
  | of hof =>
    obtain ⟨e, hnew, rfl⟩ := map_eq_ok.mp hof
    exact (new_sound hnew).edits hvalues (edits_add e _)
  | edits _ hxs ih =>
    rw [List.forall_mem_append] at hvalues
    exact (ih hvalues.1).edits hvalues.2 hxs

theorem Value.Built.sound (h : v.Built) : v.Sound := by
  induction h with
  | @scalar v hsequence hentity =>
    intro e he
    cases v with
    | sequence items => exact absurd rfl hsequence
    | entity e => exact absurd rfl hentity
    | _ => cases (Value.within_of_scalar rfl).mp he
  | sequence _ ih =>
    intro e he
    obtain hself | ⟨v, hv, he⟩ := Value.within_sequence.mp he
    · cases hself
    · exact ih v hv e he
  | entity htraced _ ih => exact htraced.sound ih

end Sound

section Uses

variable {collection : String} {e f : Entity}

theorem Cql.toEntity_ofEntity_of_built (h : (Value.entity e).Built)
    (hleap : ∀ t, (Value.temporal t).Within (.entity e) → t.nanos < 1000000000)
    (hcollection : collection ≠ "") :
    Row.toEntity collection (Row.ofEntity e) = .ok (e.rebuilt floored collection) :=
  toEntity_ofEntity h.sound hleap hcollection

theorem Entity.sameSet_iff_of_built (he : (Value.entity e).Built) (hf : (Value.entity f).Built) :
    e.sameSet f = true ↔ ∃ d : Entity, (Value.entity e).Rearranges (.entity d) ∧
      d.equal f = true :=
  sameSet_iff_exists_rearrangement (Sound.distinct he.sound) (Sound.distinct hf.sound)

end Uses

end StoreQuery
