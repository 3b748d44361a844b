import Mathlib.Data.List.Nodup
import Mathlib.Data.List.Perm.Basic
import StoreQuery.Proofs.Value.Sameness
/-!
Laws of equality. Equality of values, in order or up to the order of attributes, is symmetric and
transitive, and all but the values with a NaN are equal to themselves.
-/
namespace StoreQuery

theorem Double.equal_iff {x y : Double} :
    x.equal y = true ↔ x.isNaN = false ∧ y.isNaN = false ∧ x.scaled = y.scaled := by
  rw [equal, compare?]
  cases x.isNaN <;> cases y.isNaN <;> simp [Std.LawfulEqCmp.compare_eq_iff_eq]

/-- Where no name stands twice, each attribute has its partner in some order of the others. -/
theorem reordered_of_same {same : Value → Value → Prop} {as bs : List Attribute}
    (has : (as.map Attribute.name).Nodup) (hlength : as.length = bs.length)
    (h : Value.SameAttributesBy same as bs) : Reordered same as bs := by
  obtain ⟨cs, hcs⟩ := exists_partners (Value.sameAttributesBy_iff.mp h)
  have hsame : List.Forall₂ (Attribute.SameBy same) as cs := by
    refine hcs.imp ?_
    rintro a c ⟨hc, hac⟩
    have hname : c.name = a.name := by simpa using List.find?_some hc
    exact ⟨hname.symm, hac⟩
  have hnames : as.map Attribute.name = cs.map Attribute.name :=
    map_eq_of_related (hsame.imp fun _ _ hac => hac.1)
  have hsubset : cs ⊆ bs := by
    intro c hc
    obtain ⟨a, -, hfound, -⟩ := exists_mem_of_related hcs.flip hc
    exact List.mem_of_find?_eq_some hfound
  have hdistinct : cs.Nodup := List.Nodup.of_map Attribute.name (hnames ▸ has)
  -- the partners are distinct and as many as the others, so none of the others is left out
  have hsubperm : cs.Subperm bs := List.subperm_of_subset hdistinct hsubset
  have hle : bs.length ≤ cs.length := Nat.le_of_eq (hlength.symm.trans hsame.length_eq)
  exact ⟨cs, hsubperm.perm_of_length_le hle, hsame⟩

/-- The same attributes the other way round. -/
theorem Reordered.symm {same : Value → Value → Prop} {as bs : List Attribute}
    (h : Reordered same as bs)
    (hback : ∀ a ∈ as, ∀ b ∈ bs, a.value.SameBy same b.value → b.value.SameBy same a.value) :
    Reordered same bs as := by
  obtain ⟨cs, hperm, hsame⟩ := h
  have hturned : List.Forall₂ (Attribute.SameBy same) cs as := by
    apply ((related_within hsame).imp ?_).flip
    rintro a c ⟨ha, hc, hname, hvalue⟩
    exact ⟨hname.symm, hback a ha c (hperm.subset hc) hvalue⟩
  obtain ⟨ds, hds, hdsperm⟩ := List.perm_comp_forall₂ hperm.symm hturned
  exact ⟨ds, hdsperm, hds⟩

namespace Value

section InOrder

variable {a b c : Value} {as bs : List Attribute} {items others : List Value}

theorem equalItems_iff : equalItems items others = true ↔ List.Forall₂ Equal items others := by
  induction items generalizing others with
  | nil => cases others <;> simp [equalItems]
  | cons a items ih => cases others <;> simp [equalItems, ih, Equal]

theorem equalAttributes_iff :
    equalAttributes as bs = true ↔
      List.Forall₂ (fun a b => a.name = b.name ∧ a.value.Equal b.value) as bs := by
  induction as generalizing bs with
  | nil => cases bs <;> simp [equalAttributes]
  | cons a as ih =>
    obtain ⟨m, v⟩ := a
    cases bs with
    | nil => simp [equalAttributes]
    | cons b bs =>
      obtain ⟨n, w⟩ := b
      simp [equalAttributes, ih, Equal]

@[simp]
theorem equal_sequence :
    (Value.sequence items).Equal (.sequence others) ↔ List.Forall₂ Equal items others :=
  equalItems_iff

@[simp]
theorem equal_entity {e f : Entity} :
    (Value.entity e).Equal (.entity f) ↔ e.name = f.name ∧
      List.Forall₂ (fun a b => a.name = b.name ∧ a.value.Equal b.value) e.attributes f.attributes := by
  obtain ⟨m, as⟩ := e
  obtain ⟨n, bs⟩ := f
  rw [Equal, equal, Bool.and_eq_true, beq_iff_eq, equalAttributes_iff]

end InOrder

/-- Values whose entities hold no name twice, at any depth. -/
def Distinct (v : Value) : Prop := ∀ e : Entity, (Value.entity e).Within v → e.names.Nodup

inductive Matches : Value → Value → Prop where
  | plain {a : Value} : a.Equal a → a.SameBy Equal a → Matches a a
  | float {x y : Double} : x.equal y = true → Matches (.float x) (.float y)
  | sequence {items others : List Value} :
      List.Forall₂ (SameBy Equal) items others → Matches (.sequence items) (.sequence others)
  | entity {e f : Entity} : e.SameBy Equal f → Matches (.entity e) (.entity f)

section AnyOrder

variable {a b c p : Value} {as bs : List Attribute} {e f g : Entity} {items others : List Value}

theorem Distinct.part (h : a.Distinct) (hp : p ∈ a.parts) : p.Distinct :=
  fun e he => h e (.part hp he)

theorem Distinct.value {x : Attribute} (h : (Value.entity e).Distinct) (hx : x ∈ e.attributes) :
    x.value.Distinct := h.part (List.mem_map_of_mem hx)

theorem SameBy.of_sequence (h : (Value.sequence items).SameBy Equal b) :
    ∃ others, b = .sequence others ∧ List.Forall₂ (SameBy Equal) items others := by
  cases b with
  | sequence others => exact ⟨others, rfl, sameBy_sequence.mp h⟩
  | _ => cases h

theorem SameBy.of_entity (h : (Value.entity e).SameBy Equal b) :
    ∃ f, b = .entity f ∧ e.SameBy Equal f := by
  cases b with
  | entity f => exact ⟨f, rfl, sameBy_entity.mp h⟩
  | _ =>
    obtain ⟨name, as⟩ := e
    cases h

theorem matches_of_sameBy (h : a.SameBy Equal b) : Matches a b := by
  cases a with
  | text =>
    cases b with
    | text =>
      obtain rfl := eq_of_beq h
      exact .plain h h
    | _ => cases h
  | integer =>
    cases b with
    | integer =>
      obtain rfl := eq_of_beq h
      exact .plain h h
    | _ => cases h
  | boolean =>
    cases b with
    | boolean =>
      obtain rfl := eq_of_beq h
      exact .plain h h
    | _ => cases h
  | temporal =>
    cases b with
    | temporal =>
      obtain rfl := eq_of_beq h
      exact .plain h h
    | _ => cases h
  | bytes =>
    cases b with
    | bytes =>
      obtain rfl := eq_of_beq h
      exact .plain h h
    | _ => cases h
  | float x =>
    cases b with
    | float y => exact .float h
    | _ => cases h
  | sequence items =>
    obtain ⟨others, rfl, hitems⟩ := h.of_sequence
    exact .sequence hitems
  | entity e =>
    obtain ⟨f, rfl, hef⟩ := h.of_entity
    exact .entity hef

theorem SameBy.trans (h : a.SameBy Equal b) (k : b.SameBy Equal c) : a.SameBy Equal c := by
  induction a using byParts generalizing b c with
  | whole a ih =>
    cases matches_of_sameBy h with
    | plain => exact k
    | float hxy =>
      cases matches_of_sameBy k with
      | plain => exact h
      | float hyz =>
        rw [Double.equal_iff] at hxy hyz
        exact Double.equal_iff.mpr ⟨hxy.1, hyz.2.1, hxy.2.2.trans hyz.2.2⟩
    | sequence hitems =>
      obtain ⟨last, rfl, hothers⟩ := k.of_sequence
      rw [sameBy_sequence]
      apply (related_through (related_within hitems) hothers).imp
      rintro v w ⟨u, ⟨hv, -, hvu⟩, huw⟩
      exact ih v hv hvu huw
    | @entity e f hef =>
      obtain ⟨g, rfl, hfg⟩ := k.of_entity
      rw [sameBy_entity]
      refine ⟨hef.1.trans hfg.1, hef.2.1.trans hfg.2.1, ?_⟩
      have hfirst := sameAttributesBy_iff.mp hef.2.2
      have hsecond := sameAttributesBy_iff.mp hfg.2.2
      rw [sameAttributesBy_iff]
      intro x hx
      obtain ⟨y, hy, hxy⟩ := hfirst x hx
      obtain ⟨z, hz, hyz⟩ := hsecond y (List.mem_of_find?_eq_some hy)
      have hname : y.name = x.name := by simpa using List.find?_some hy
      rw [hname] at hz
      exact ⟨z, hz, ih x.value (List.mem_map_of_mem hx) hxy hyz⟩

theorem reordered_of_sameBy (he : (Value.entity e).Distinct) (h : e.SameBy Equal f) :
    Reordered Equal e.attributes f.attributes :=
  reordered_of_same (he e .self) h.2.1 h.2.2

theorem SameBy.symm (ha : a.Distinct) (hb : b.Distinct) (h : a.SameBy Equal b) :
    b.SameBy Equal a := by
  induction a using byParts generalizing b with
  | whole a ih =>
    cases matches_of_sameBy h with
    | plain => exact h
    | float hxy =>
      rw [Double.equal_iff] at hxy
      exact Double.equal_iff.mpr ⟨hxy.2.1, hxy.1, hxy.2.2.symm⟩
    | sequence hitems =>
      rw [sameBy_sequence]
      apply ((related_within hitems).imp ?_).flip
      rintro v w ⟨hv, hw, hvw⟩
      exact ih v hv (ha.part hv) (hb.part hw) hvw
    | @entity e f hef =>
      rw [sameBy_entity]
      have hback := (reordered_of_sameBy ha hef).symm fun x hx y hy hxy =>
        ih x.value (List.mem_map_of_mem hx) (ha.value hx) (hb.value hy) hxy
      exact ⟨hef.1.symm, hef.2.1.symm, hback.sameAttributesBy (ha e .self)⟩

/-- In an entity without a name twice, each attribute is its own partner. -/
theorem sameBy_self_entity (he : (Value.entity e).Distinct) :
    e.SameBy Equal e ↔ ∀ x ∈ e.attributes, x.value.SameBy Equal x.value := by
  rw [Entity.SameBy, and_iff_right rfl, and_iff_right rfl, sameAttributesBy_iff]
  apply forall₂_congr
  intro x hx
  rw [find?_of_mem (he e .self) hx]
  simp

/-- Exactly the values without a NaN are equal to themselves. -/
theorem sameBy_self_iff (ha : a.Distinct) :
    a.SameBy Equal a ↔ ∀ x, (Value.float x).Within a → x.isNaN = false := by
  induction a using byParts with
  | whole a ih =>
    have hparts : (∀ p ∈ a.parts, p.SameBy Equal p) ↔
        ∀ p ∈ a.parts, ∀ x, (Value.float x).Within p → x.isNaN = false :=
      forall₂_congr fun p hp => ih p hp (ha.part hp)
    cases a with
    | float x =>
      constructor
      · intro h y hy
        cases (within_of_scalar rfl).mp hy
        exact (Double.equal_iff.mp h).1
      · intro h
        exact Double.equal_iff.mpr ⟨h x .self, h x .self, rfl⟩
    | sequence items =>
      rw [sameBy_sequence, List.forall₂_same, floats_within_iff (.sequence items) nofun]
      exact hparts
    | entity e =>
      rw [sameBy_entity, sameBy_self_entity ha, floats_within_iff (.entity e) nofun,
        ← hparts, parts, List.forall_mem_map]
    | _ =>
      refine iff_of_true (beq_self_eq_true _) ?_
      intro x hx
      cases (within_of_scalar rfl).mp hx

end AnyOrder

end Value

end StoreQuery
