import StoreQuery.Proofs.Entity
import StoreQuery.Proofs.Within
/-!
Values as trees. Sequences and entities are the nodes that have parts; a value can be rebuilt from its
scalars, with each entity named after the attribute that holds it.
-/
namespace StoreQuery

def Value.parts : Value → List Value
  | .text _ | .integer _ | .float _ | .boolean _ | .temporal _ | .bytes _ => []
  | .sequence items => items
  | .entity e => e.attributes.map Attribute.value

def Value.Within (inner outer : Value) : Prop := StoreQuery.Within Value.parts inner outer

section Within

variable {inner v : Value}

theorem Value.within_of_scalar (h : v.parts = []) : inner.Within v ↔ inner = v :=
  within_of_no_parts h

@[simp]
theorem Value.within_sequence {items : List Value} :
    inner.Within (.sequence items) ↔ inner = .sequence items ∨ ∃ v ∈ items, inner.Within v :=
  within_iff

@[simp]
theorem Value.within_entity {e : Entity} :
    inner.Within (.entity e) ↔ inner = .entity e ∨ ∃ a ∈ e.attributes, inner.Within a.value :=
  within_iff_of_map rfl

/-- The floats of a value that is none itself are those of its parts. -/
theorem Value.floats_within_iff {P : Double → Prop} (v : Value) (h : ∀ x, .float x ≠ v) :
    (∀ x, (Value.float x).Within v → P x) ↔
      ∀ p ∈ v.parts, ∀ x, (Value.float x).Within p → P x := by
  constructor
  · intro hall p hp x hx
    exact hall x (.part hp hx)
  · intro hall x hx
    obtain ⟨p, hp, hx⟩ := (within_iff.mp hx).resolve_left (h x)
    exact hall p hp x hx

end Within

theorem Value.sizeOf_part_lt {v p : Value} (h : p ∈ v.parts) : sizeOf p < sizeOf v := by
  cases v with
  | sequence items =>
    have hlt := List.sizeOf_lt_of_mem (show p ∈ items from h)
    simp only [Value.sequence.sizeOf_spec]
    omega
  | entity e =>
    obtain ⟨name, attributes⟩ := e
    obtain ⟨⟨held, value⟩, ha, rfl⟩ := List.mem_map.mp h
    have hlt := List.sizeOf_lt_of_mem ha
    simp only [Value.entity.sizeOf_spec, Entity.mk.sizeOf_spec, Attribute.mk.sizeOf_spec] at hlt ⊢
    omega
  | _ => cases h

/-- Induction from the parts of a value to the value. -/
theorem Value.byParts {motive : Value → Prop}
    (whole : ∀ v, (∀ p ∈ v.parts, motive p) → motive v) (v : Value) : motive v :=
  whole v fun p _ => byParts whole p
termination_by sizeOf v
decreasing_by exact Value.sizeOf_part_lt ‹_›

section Rebuilt

mutual

/-- A value with other scalars, its entities renamed after what holds them. -/
def Value.rebuilt (scalar : Value → Value) (holder : String) : Value → Value
  | .sequence items => .sequence (Value.rebuiltItems scalar holder items)
  | .entity ⟨_, as⟩ => .entity ⟨holder, Value.rebuiltAttributes scalar as⟩
  | v => scalar v

def Value.rebuiltItems (scalar : Value → Value) (holder : String) : List Value → List Value
  | [] => []
  | v :: vs => v.rebuilt scalar holder :: Value.rebuiltItems scalar holder vs

def Value.rebuiltAttributes (scalar : Value → Value) : List Attribute → List Attribute
  | [] => []
  | ⟨name, v⟩ :: as => ⟨name, v.rebuilt scalar name⟩ :: Value.rebuiltAttributes scalar as

end

def Attribute.rebuilt (scalar : Value → Value) (a : Attribute) : Attribute :=
  ⟨a.name, a.value.rebuilt scalar a.name⟩

def Entity.rebuilt (scalar : Value → Value) (name : String) (e : Entity) : Entity :=
  ⟨name, e.attributes.map (Attribute.rebuilt scalar)⟩

variable (scalar : Value → Value)

theorem Value.rebuiltItems_eq (holder : String) (items : List Value) :
    rebuiltItems scalar holder items = items.map (rebuilt scalar holder) := by
  induction items with
  | nil => rfl
  | cons v vs ih => rw [rebuiltItems, ih, List.map_cons]

theorem Value.rebuiltAttributes_eq (as : List Attribute) :
    rebuiltAttributes scalar as = as.map (Attribute.rebuilt scalar) := by
  induction as with
  | nil => rfl
  | cons a as ih =>
    obtain ⟨name, v⟩ := a
    rw [rebuiltAttributes, ih, List.map_cons, Attribute.rebuilt]

theorem Value.rebuilt_sequence (holder : String) (items : List Value) :
    (Value.sequence items).rebuilt scalar holder =
      .sequence (items.map (rebuilt scalar holder)) := by
  rw [rebuilt, rebuiltItems_eq]

theorem Value.rebuilt_entity (holder : String) (e : Entity) :
    (Value.entity e).rebuilt scalar holder = .entity (e.rebuilt scalar holder) := by
  obtain ⟨name, as⟩ := e
  rw [rebuilt, rebuiltAttributes_eq, Entity.rebuilt]

@[simp]
theorem Entity.names_rebuilt (name : String) (e : Entity) :
    (e.rebuilt scalar name).names = e.names := List.map_map

theorem Entity.Valid.rebuilt {e : Entity} {name : String} (h : e.Valid) (hname : name ≠ "") :
    (e.rebuilt scalar name).Valid where
  named := hname
  attributes_named := by
    rw [names_rebuilt]
    exact h.attributes_named
  distinct := by
    rw [names_rebuilt]
    exact h.distinct

end Rebuilt

section Sound

/-- Values whose entities are all valid, at any depth. -/
def Value.Sound (v : Value) : Prop := ∀ e : Entity, (Value.entity e).Within v → e.Valid

def Entity.Sound (e : Entity) : Prop := (Value.entity e).Sound

variable {v p : Value} {e f : Entity} {a : Attribute}

theorem Value.Sound.part (h : v.Sound) (hp : p ∈ v.parts) : p.Sound :=
  fun e he => h e (.part hp he)

theorem Entity.Sound.valid (h : e.Sound) : e.Valid := h e .self

theorem Entity.Sound.value (h : e.Sound) (ha : a ∈ e.attributes) : a.value.Sound :=
  Value.Sound.part h (List.mem_map_of_mem ha)

theorem Entity.sound_of_valid (h : e.Valid) (hvalues : ∀ a ∈ e.attributes, a.value.Sound) :
    e.Sound := by
  intro f hf
  cases hf with
  | self => exact h
  | part hp hf =>
    obtain ⟨a, ha, rfl⟩ := List.mem_map.mp hp
    exact hvalues a ha f hf

theorem Entity.new_sound {name : String} (h : new name = .ok e) : e.Sound := by
  have hvalid := new_valid h
  simp only [new] at h
  split at h
  · cases h
  · cases h
    exact sound_of_valid hvalid (List.forall_mem_nil _)

theorem Entity.mem_insert {b : Attribute} {as : List Attribute} (h : b ∈ insert a as) :
    b = a ∨ b ∈ as := by
  induction as with
  | nil => exact .inl (List.mem_singleton.mp h)
  | cons c as ih =>
    simp only [insert] at h
    split at h
    · rcases List.mem_cons.mp h with hb | hb
      · exact .inl hb
      · exact .inr (List.mem_cons_of_mem c hb)
    · rcases List.mem_cons.mp h with rfl | hb
      · exact .inr List.mem_cons_self
      · exact (ih hb).imp_right (List.mem_cons_of_mem c)

theorem Entity.add_sound (he : e.Sound) (hvalue : a.value.Sound) (hname : a.name ≠ "") :
    (e.add a).Sound := by
  apply sound_of_valid (add_valid he.valid hname)
  intro b hb
  rcases mem_insert hb with rfl | hb
  · exact hvalue
  · exact he.value hb

theorem Entity.set_sound {name : String} (he : e.Sound) (hv : v.Sound)
    (h : e.set name v = .ok f) : f.Sound := by
  obtain ⟨hname, rfl⟩ := set_eq_ok.mp h
  exact add_sound he hv hname

theorem Entity.remove_sound (h : e.Sound) (name : String) : (e.remove name).Sound := by
  apply sound_of_valid (remove_valid h.valid name)
  intro a ha
  exact h.value (List.eraseP_sublist.subset ha)

end Sound

end StoreQuery
