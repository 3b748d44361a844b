import StoreQuery.Proofs.Value.Equality
/-!
Equality up to the order of attributes is equality after a rearrangement. A rearrangement permutes the
attributes of an entity and of those nested in it, one entity after another, and leaves sequences in
their order.
-/
namespace StoreQuery

namespace Value

inductive Shuffles : Value → Value → Prop where
  | order {name : String} {as bs : List Attribute} : as.Perm bs →
      Shuffles (.entity ⟨name, as⟩) (.entity ⟨name, bs⟩)
  | value {name held : String} {before after : List Attribute} {v w : Value} : Shuffles v w →
      Shuffles (.entity ⟨name, before ++ ⟨held, v⟩ :: after⟩)
        (.entity ⟨name, before ++ ⟨held, w⟩ :: after⟩)
  | item {before after : List Value} {v w : Value} : Shuffles v w →
      Shuffles (.sequence (before ++ v :: after)) (.sequence (before ++ w :: after))

def Rearranges : Value → Value → Prop := Relation.ReflTransGen Shuffles

variable {a b v w : Value} {e f : Entity}

section Congruence

theorem Rearranges.sequence {items others : List Value} (h : List.Forall₂ Rearranges items others) :
    (Value.sequence items).Rearranges (.sequence others) := by
  have hsteps : Relation.ReflTransGen
      (fun vs ws => (Value.sequence vs).Shuffles (.sequence ws)) items others :=
    steps_of_related (fun _ _ _ _ => .item) h
  exact Relation.ReflTransGen.lift Value.sequence (fun _ _ hstep => hstep) _ _ hsteps

theorem Rearranges.entity {name : String} {as bs : List Attribute}
    (h : List.Forall₂ (fun x y => x.name = y.name ∧ x.value.Rearranges y.value) as bs) :
    (Value.entity ⟨name, as⟩).Rearranges (.entity ⟨name, bs⟩) := by
  let inner : Attribute → Attribute → Prop := fun x y => x.name = y.name ∧ x.value.Shuffles y.value
  have hinner : List.Forall₂ (Relation.ReflTransGen inner) as bs := by
    refine h.imp ?_
    rintro ⟨held, v⟩ ⟨_, w⟩ ⟨rfl, hvw⟩
    have hlift : ∀ v w, v.Shuffles w → inner ⟨held, v⟩ ⟨held, w⟩ := fun _ _ hstep => ⟨rfl, hstep⟩
    exact Relation.ReflTransGen.lift (Attribute.mk held) hlift _ _ hvw
  have hsteps : Relation.ReflTransGen
      (fun xs ys => (Value.entity ⟨name, xs⟩).Shuffles (.entity ⟨name, ys⟩)) as bs := by
    refine steps_of_related ?_ hinner
    rintro before after ⟨held, v⟩ ⟨_, w⟩ ⟨rfl, hvw⟩
    exact .value hvw
  exact Relation.ReflTransGen.lift (fun xs => Value.entity ⟨name, xs⟩)
    (fun _ _ hstep => hstep) _ _ hsteps

end Congruence

/-- Values equal up to the order of attributes are equal after a rearrangement. -/
theorem exists_rearrangement (ha : a.Distinct) (h : a.SameBy Equal b) :
    ∃ c, a.Rearranges c ∧ c.Equal b := by
  induction a using byParts generalizing b with
  | whole a ih =>
    cases matches_of_sameBy h with
    | plain hself => exact ⟨a, .refl, hself⟩
    | float hxy => exact ⟨_, .refl, hxy⟩
    | @sequence items others hitems =>
      have hbetween : List.Forall₂ (fun v w => ∃ u, v.Rearranges u ∧ u.Equal w) items others := by
        apply (related_within hitems).imp
        rintro v w ⟨hv, -, hvw⟩
        exact ih v hv (ha.part hv) hvw
      obtain ⟨moved, hmoved, hequal⟩ := exists_between hbetween
      exact ⟨.sequence moved, .sequence hmoved, equal_sequence.mpr hequal⟩
    | @entity e f hef =>
      -- first each attribute is rearranged in itself, then they are put in the order of the others
      obtain ⟨cs, hperm, hsame⟩ := reordered_of_sameBy ha hef
      have hbetween : List.Forall₂ (fun x z => ∃ y : Attribute,
          (x.name = y.name ∧ x.value.Rearranges y.value) ∧
            (y.name = z.name ∧ y.value.Equal z.value)) e.attributes cs := by
        apply (related_within hsame).imp
        rintro x z ⟨hx, -, hname, hvalue⟩
        obtain ⟨u, hu, huz⟩ := ih x.value (List.mem_map_of_mem hx) (ha.value hx) hvalue
        exact ⟨⟨x.name, u⟩, ⟨rfl, hu⟩, hname, huz⟩
      obtain ⟨moved, hmoved, hequal⟩ := exists_between hbetween
      obtain ⟨ordered, hordered, hfinal⟩ : Relation.Comp List.Perm
          (List.Forall₂ fun y z : Attribute => y.name = z.name ∧ y.value.Equal z.value)
          moved f.attributes := by
        rw [← List.forall₂_comp_perm_eq_perm_comp_forall₂]
        exact ⟨cs, hequal, hperm⟩
      refine ⟨.entity ⟨e.name, ordered⟩, ?_, equal_entity.mpr ⟨hef.1, hfinal⟩⟩
      obtain ⟨name, as⟩ := e
      exact (Rearranges.entity hmoved).tail (.order hordered)

theorem sameBy_of_equal (hb : b.Distinct) (h : a.Equal b) : a.SameBy Equal b := by
  induction a using byParts generalizing b with
  | whole a ih =>
    cases a with
    | sequence items =>
      cases b with
      | sequence others =>
        rw [sameBy_sequence]
        apply (related_within (equal_sequence.mp h)).imp
        rintro v w ⟨hv, hw, hvw⟩
        exact ih v hv (hb.part hw) hvw
      | _ => cases h
    | entity e =>
      cases b with
      | entity f =>
        obtain ⟨hname, hvalues⟩ := equal_entity.mp h
        have hordered : Reordered Equal e.attributes f.attributes := by
          refine ⟨f.attributes, .refl _, (related_within hvalues).imp ?_⟩
          rintro x y ⟨hx, hy, hxy⟩
          exact ⟨hxy.1, ih x.value (List.mem_map_of_mem hx) (hb.value hy) hxy.2⟩
        rw [sameBy_entity]
        exact ⟨hname, hordered.length_eq, hordered.sameAttributesBy (hb f .self)⟩
      | _ =>
        obtain ⟨name, as⟩ := e
        cases h
    | _ => cases b <;> exact h

/-- A shuffle of the left side changes nothing. -/
theorem Shuffles.sameBy (hvw : v.Shuffles w) (h : w.SameBy Equal b) : v.SameBy Equal b := by
  induction hvw generalizing b with
  | order hperm =>
    obtain ⟨f, rfl, hname, hsize, hvalues⟩ := h.of_entity
    rw [sameAttributesBy_iff] at hvalues
    rw [sameBy_entity]
    refine ⟨hname, hperm.length_eq.trans hsize, sameAttributesBy_iff.mpr ?_⟩
    intro x hx
    exact hvalues x (hperm.subset hx)
  | @value name held before after v w _ ih =>
    obtain ⟨f, rfl, hname, hsize, hvalues⟩ := h.of_entity
    rw [sameAttributesBy_iff, List.forall_mem_append, List.forall_mem_cons] at hvalues
    obtain ⟨hbefore, ⟨y, hy, hwy⟩, hafter⟩ := hvalues
    rw [sameBy_entity]
    refine ⟨hname, ?_, sameAttributesBy_iff.mpr ?_⟩
    · simpa [Entity.size] using hsize
    · rw [List.forall_mem_append, List.forall_mem_cons]
      exact ⟨hbefore, ⟨y, hy, ih hwy⟩, hafter⟩
  | item _ ih =>
    obtain ⟨others, rfl, hitems⟩ := h.of_sequence
    exact sameBy_sequence.mpr (related_replace (fun _ => ih) hitems)

theorem Rearranges.sameBy (hvw : v.Rearranges w) (h : w.SameBy Equal b) : v.SameBy Equal b := by
  induction hvw using Relation.ReflTransGen.head_induction_on with
  | refl => exact h
  | head hstep _ ih => exact hstep.sameBy ih

theorem sameBy_iff_exists_rearrangement (ha : a.Distinct) (hb : b.Distinct) :
    a.SameBy Equal b ↔ ∃ c, a.Rearranges c ∧ c.Equal b := by
  constructor
  · exact exists_rearrangement ha
  · rintro ⟨c, hac, hcb⟩
    exact hac.sameBy (sameBy_of_equal hb hcb)

end Value

namespace Entity

/-- The entities that can be built are among those without a name twice. -/
theorem Sound.distinct {e : Entity} (h : e.Sound) : (Value.entity e).Distinct :=
  fun f hf => (h f hf).distinct

theorem equal_iff {e f : Entity} : e.equal f = true ↔ (Value.entity e).Equal (.entity f) := by
  obtain ⟨m, as⟩ := e
  obtain ⟨n, bs⟩ := f
  exact Iff.rfl

theorem sameSet_iff_exists_rearrangement {e f : Entity} (he : (Value.entity e).Distinct)
    (hf : (Value.entity f).Distinct) :
    e.sameSet f = true ↔ ∃ d : Entity, (Value.entity e).Rearranges (.entity d) ∧
      d.equal f = true := by
  rw [sameSet_iff, ← Value.sameBy_entity, Value.sameBy_iff_exists_rearrangement he hf]
  constructor
  · rintro ⟨v, hev, hvf⟩
    cases v with
    | entity d => exact ⟨d, hev, equal_iff.mpr hvf⟩
    | _ => cases hvf
  · rintro ⟨d, hed, hdf⟩
    exact ⟨.entity d, hed, equal_iff.mp hdf⟩

/-- Equality up to the order of attributes is symmetric and transitive, fails to be reflexive only for a NaN,
and is equality after a rearrangement. -/
theorem sameSet_laws (a b c : Entity) (ha : (Value.entity a).Distinct)
    (hb : (Value.entity b).Distinct) :
    (a.sameSet b = true → b.sameSet a = true) ∧
      (a.sameSet b = true → b.sameSet c = true → a.sameSet c = true) ∧
      (a.sameSet a = true ↔ ∀ x, (Value.float x).Within (.entity a) → x.isNaN = false) ∧
      (a.sameSet b = true ↔ ∃ d : Entity, (Value.entity a).Rearranges (.entity d) ∧
        d.equal b = true) := by
  have hrearranged := sameSet_iff_exists_rearrangement ha hb
  refine ⟨?_, ?_, ?_, hrearranged⟩
  all_goals simp only [sameSet_iff, ← Value.sameBy_entity]
  · exact .symm ha hb
  · exact .trans
  · exact Value.sameBy_self_iff ha

theorem sameSet_laws_nested :
    let plain : Attribute := ⟨"n", .text "a"⟩
    let lat : Attribute := ⟨"lat", .integer 1⟩
    let lon : Attribute := ⟨"lon", .float ⟨0⟩⟩
    let a : Entity := ⟨"p", [plain, ⟨"at", .sequence [.integer 2, .entity ⟨"at", [lat, lon]⟩]⟩]⟩
    let b : Entity := ⟨"p", [⟨"at", .sequence [.integer 2, .entity ⟨"at", [lon, lat]⟩]⟩, plain]⟩
    (Value.entity a).Distinct ∧ (Value.entity b).Distinct ∧ a.equal b = false ∧
      ∃ d : Entity, (Value.entity a).Rearranges (.entity d) ∧ d.equal b = true := by
  intro plain lat lon a b
  have htext (v : Value) : v.Within (.text "a") ↔ v = .text "a" := Value.within_of_scalar rfl
  have hinteger (v : Value) (n : Int64) : v.Within (.integer n) ↔ v = .integer n :=
    Value.within_of_scalar rfl
  have hfloat (v : Value) : v.Within (.float ⟨0⟩) ↔ v = .float ⟨0⟩ := Value.within_of_scalar rfl
  have ha : (Value.entity a).Distinct := by
    intro e he
    have : e = a ∨ e = ⟨"at", [lat, lon]⟩ := by
      simpa [a, plain, lat, lon, htext, hinteger, hfloat] using he
    rcases this with rfl | rfl <;> decide
  have hb : (Value.entity b).Distinct := by
    intro e he
    have : e = b ∨ e = ⟨"at", [lon, lat]⟩ := by
      simpa [b, plain, lat, lon, htext, hinteger, hfloat] using he
    rcases this with rfl | rfl <;> decide
  have hlaws := sameSet_laws a b b ha hb
  exact ⟨ha, hb, by decide, hlaws.2.2.2.mp (by decide)⟩

end Entity

end StoreQuery
