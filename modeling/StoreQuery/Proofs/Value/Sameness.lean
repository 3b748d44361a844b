import StoreQuery.Proofs.Lists
import StoreQuery.Proofs.Value.Parts
/-!
Equality of values up to the order of attributes, for any equality of scalars. Two entities of one name
are equal when the attributes of one, in some order, are equal to those of the other.
-/
namespace StoreQuery

mutual

/-- Equality up to the order of attributes, here and in nested entities, where the rest is compared by a
relation of its own. -/
def Value.SameBy (same : Value → Value → Prop) : Value → Value → Prop
  | .entity ⟨m, as⟩, .entity ⟨n, bs⟩ =>
    m = n ∧ as.length = bs.length ∧ Value.SameAttributesBy same as bs
  | .sequence a, .sequence b => Value.SameItemsBy same a b
  | a, b => same a b

def Value.SameItemsBy (same : Value → Value → Prop) : List Value → List Value → Prop
  | [], [] => True
  | a :: as, b :: bs => a.SameBy same b ∧ Value.SameItemsBy same as bs
  | _, _ => False

def Value.SameAttributesBy (same : Value → Value → Prop) : List Attribute → List Attribute → Prop
  | [], _ => True
  | ⟨n, a⟩ :: as, bs =>
    (∃ b, bs.find? (fun b => b.name = n) = some b ∧ a.SameBy same b.value) ∧
      Value.SameAttributesBy same as bs

end

def Entity.SameBy (same : Value → Value → Prop) (a b : Entity) : Prop :=
  a.name = b.name ∧ a.size = b.size ∧ Value.SameAttributesBy same a.attributes b.attributes

section Computed

variable {as bs : List Attribute} {items others : List Value}

def Value.Equal (a b : Value) : Prop := a.equal b = true

theorem Value.sameSetItems_iff
    (h : ∀ a ∈ items, ∀ b, a.sameSet b = true ↔ a.SameBy Equal b) :
    sameSetItems items others = true ↔ SameItemsBy Equal items others := by
  induction items generalizing others with
  | nil => cases others <;> simp [sameSetItems, SameItemsBy]
  | cons a items ih =>
    rw [List.forall_mem_cons] at h
    cases others with
    | nil => simp [sameSetItems, SameItemsBy]
    | cons b others => rw [sameSetItems, SameItemsBy, Bool.and_eq_true, h.1, ih h.2]

theorem Value.sameSetAttributes_iff
    (h : ∀ a ∈ as, ∀ b, a.value.sameSet b = true ↔ a.value.SameBy Equal b) :
    sameSetAttributes as bs = true ↔ SameAttributesBy Equal as bs := by
  induction as with
  | nil => simp [sameSetAttributes, SameAttributesBy]
  | cons a as ih =>
    obtain ⟨name, v⟩ := a
    rw [List.forall_mem_cons] at h
    rw [sameSetAttributes, SameAttributesBy, Bool.and_eq_true, ih h.2]
    apply and_congr_left'
    cases bs.find? fun b => b.name = name with
    | none => simp
    | some b => simp [h.1]

/-- With the equality of values this is the equality of entities that is computed. -/
theorem Value.sameSet_iff (a b : Value) : a.sameSet b = true ↔ a.SameBy Equal b := by
  induction a using Value.byParts generalizing b with
  | whole a ih =>
    cases a with
    | sequence items =>
      cases b with
      | sequence others => exact sameSetItems_iff ih
      | _ => exact Iff.rfl
    | entity e =>
      obtain ⟨m, as⟩ := e
      cases b with
      | entity f =>
        obtain ⟨n, bs⟩ := f
        have has : sameSetAttributes as bs = true ↔ SameAttributesBy Equal as bs :=
          sameSetAttributes_iff fun a ha => ih a.value (List.mem_map_of_mem ha)
        simp only [sameSet, SameBy, Bool.and_eq_true, beq_iff_eq, has, and_assoc]
      | _ => exact Iff.rfl
    | _ => cases b <;> exact Iff.rfl

theorem Entity.sameSet_iff (a b : Entity) : a.sameSet b = true ↔ a.SameBy Value.Equal b := by
  have has : Value.sameSetAttributes a.attributes b.attributes = true ↔
      Value.SameAttributesBy Value.Equal a.attributes b.attributes :=
    Value.sameSetAttributes_iff fun a _ => Value.sameSet_iff a.value
  simp only [sameSet, SameBy, Bool.and_eq_true, beq_iff_eq, has, and_assoc]

end Computed

section Reordered

variable {same : Value → Value → Prop} {as bs : List Attribute} {items others : List Value}

def Attribute.SameBy (same : Value → Value → Prop) (a b : Attribute) : Prop :=
  a.name = b.name ∧ a.value.SameBy same b.value

theorem Value.sameItemsBy_iff :
    SameItemsBy same items others ↔ List.Forall₂ (SameBy same) items others := by
  induction items generalizing others with
  | nil => cases others <;> simp [SameItemsBy]
  | cons a items ih => cases others <;> simp [SameItemsBy, ih]

theorem Value.sameAttributesBy_iff :
    SameAttributesBy same as bs ↔
      ∀ a ∈ as, ∃ b, bs.find? (fun b => b.name = a.name) = some b ∧ a.value.SameBy same b.value := by
  induction as with
  | nil => simp [SameAttributesBy]
  | cons a as ih =>
    obtain ⟨name, v⟩ := a
    rw [SameAttributesBy, ih, List.forall_mem_cons]

def Reordered (same : Value → Value → Prop) (as bs : List Attribute) : Prop :=
  ∃ cs, cs.Perm bs ∧ List.Forall₂ (Attribute.SameBy same) as cs

theorem Reordered.names_perm (h : Reordered same as bs) :
    (as.map Attribute.name).Perm (bs.map Attribute.name) := by
  obtain ⟨cs, hperm, hsame⟩ := h
  have hnames : as.map Attribute.name = cs.map Attribute.name :=
    map_eq_of_related (hsame.imp fun _ _ hac => hac.1)
  rw [hnames]
  exact hperm.map Attribute.name

theorem Reordered.length_eq (h : Reordered same as bs) : as.length = bs.length := by
  obtain ⟨cs, hperm, hsame⟩ := h
  rw [hsame.length_eq, hperm.length_eq]

theorem Reordered.sameAttributesBy (h : Reordered same as bs)
    (hnodup : (bs.map Attribute.name).Nodup) : Value.SameAttributesBy same as bs := by
  obtain ⟨cs, hperm, hsame⟩ := h
  rw [Value.sameAttributesBy_iff]
  intro a ha
  obtain ⟨c, hc, hname, hvalue⟩ := exists_mem_of_related hsame ha
  refine ⟨c, ?_, hvalue⟩
  rw [hname]
  exact find?_of_mem hnodup (hperm.mem_iff.mp hc)

theorem Reordered.sameBy {name : String} (h : Reordered same as bs)
    (hnodup : (bs.map Attribute.name).Nodup) : Entity.SameBy same ⟨name, as⟩ ⟨name, bs⟩ :=
  ⟨rfl, h.length_eq, h.sameAttributesBy hnodup⟩

theorem Value.sameBy_entity {e f : Entity} :
    (Value.entity e).SameBy same (.entity f) ↔ e.SameBy same f := by
  obtain ⟨m, as⟩ := e
  obtain ⟨n, bs⟩ := f
  exact Iff.rfl

theorem Value.sameBy_sequence :
    (Value.sequence items).SameBy same (.sequence others) ↔
      List.Forall₂ (SameBy same) items others :=
  sameItemsBy_iff

end Reordered

end StoreQuery
