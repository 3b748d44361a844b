import StoreQuery.Proofs.Json.Fields
import StoreQuery.Proofs.Within
/-!
Objects whose fields stand by increasing name. Fields that are put into one stand in that order, whatever
order they come in, and there is only one such order.
-/
namespace StoreQuery.Json

namespace Fields

def Increasing (fs : Fields) : Prop := fs.Pairwise fun f g => compare f.1 g.1 = .lt

instance (fs : Fields) : Decidable fs.Increasing := inferInstanceAs (Decidable (List.Pairwise _ fs))

variable {name : String} {v : Json} {fs gs added : Fields} {f : String × Json}

theorem mem_put (h : f ∈ put name v fs) : f = (name, v) ∨ f ∈ fs := by
  induction fs with
  | nil => exact .inl (List.mem_singleton.mp h)
  | cons g fs ih =>
    obtain ⟨n, w⟩ := g
    simp only [put] at h
    cases horder : compare name n with
    | lt =>
      rw [horder] at h
      exact List.mem_cons.mp h
    | eq =>
      rw [horder] at h
      exact (List.mem_cons.mp h).imp_right (List.mem_cons_of_mem _)
    | gt =>
      rw [horder] at h
      rcases List.mem_cons.mp h with rfl | hf
      · exact .inr List.mem_cons_self
      · exact (ih hf).imp_right (List.mem_cons_of_mem _)

theorem Increasing.put (h : fs.Increasing) : (put name v fs).Increasing := by
  induction fs with
  | nil => exact List.pairwise_singleton _ _
  | cons g fs ih =>
    obtain ⟨n, w⟩ := g
    obtain ⟨hfirst, hrest⟩ := List.pairwise_cons.mp h
    simp only [Fields.put]
    cases horder : compare name n with
    | lt =>
      refine List.pairwise_cons.mpr ⟨?_, h⟩
      intro f hf
      rcases List.mem_cons.mp hf with rfl | hf
      · exact horder
      · exact Std.TransCmp.lt_trans horder (hfirst f hf)
    | eq =>
      obtain rfl := Std.LawfulEqCmp.eq_of_compare horder
      exact List.pairwise_cons.mpr ⟨hfirst, hrest⟩
    | gt =>
      refine List.pairwise_cons.mpr ⟨?_, ih hrest⟩
      intro f hf
      rcases mem_put hf with rfl | hf
      · exact Std.OrientedCmp.gt_iff_lt.mp horder
      · exact hfirst f hf

theorem Increasing.foldl_put (h : fs.Increasing) :
    (added.foldl (fun fs f => Fields.put f.1 f.2 fs) fs).Increasing := by
  induction added generalizing fs with
  | nil => exact h
  | cons f added ih => exact ih h.put

theorem mem_ofList (h : f ∈ ofList fs) : f ∈ fs := by
  have hfold : ∀ (added start : Fields), f ∈ added.foldl (fun fs f => put f.1 f.2 fs) start →
      f ∈ start ∨ f ∈ added := by
    intro added
    induction added with
    | nil => exact fun start hf => .inl hf
    | cons g added ih =>
      intro start hf
      rcases ih _ hf with hf | hf
      · rcases mem_put hf with rfl | hf
        · exact .inr List.mem_cons_self
        · exact .inl hf
      · exact .inr (List.mem_cons_of_mem g hf)
  exact (hfold fs [] h).resolve_left List.not_mem_nil

theorem increasing_ofList (fs : List (String × Json)) : (ofList fs).Increasing :=
  Increasing.foldl_put List.Pairwise.nil

theorem Increasing.nodup (h : fs.Increasing) : (fs.map Prod.fst).Nodup := by
  apply List.pairwise_map.mpr
  apply h.imp
  intro f g hlt hname
  simp [hname, Std.ReflCmp.compare_self] at hlt

/-- There is only one increasing order. -/
theorem Increasing.eq_of_perm (h : fs.Increasing) (hother : gs.Increasing) (hperm : fs.Perm gs) :
    fs = gs := by
  apply hperm.eq_of_pairwise _ h hother
  intro f g _ _ hlt hgt
  have hself : compare f.1 f.1 = .lt := Std.TransCmp.lt_trans hlt hgt
  simp [Std.ReflCmp.compare_self] at hself

theorem put_perm (h : name ∉ fs.map Prod.fst) : (put name v fs).Perm ((name, v) :: fs) := by
  induction fs with
  | nil => exact .refl _
  | cons g fs ih =>
    obtain ⟨n, w⟩ := g
    simp only [List.map_cons, List.mem_cons, not_or] at h
    simp only [put]
    cases horder : compare name n with
    | lt => exact .refl _
    | eq => exact (h.1 (Std.LawfulEqCmp.eq_of_compare horder)).elim
    | gt => exact ((ih h.2).cons _).trans (.swap _ _ _)

theorem foldl_put_perm (h : (fs.map Prod.fst ++ added.map Prod.fst).Nodup) :
    (added.foldl (fun fs f => put f.1 f.2 fs) fs).Perm (fs ++ added) := by
  induction added generalizing fs with
  | nil => exact .of_eq (List.append_nil fs).symm
  | cons f added ih =>
    have hnew : f.1 ∉ fs.map Prod.fst := by
      intro hmem
      exact (List.nodup_append.mp h).2.2 f.1 hmem f.1 List.mem_cons_self rfl
    have hput : (put f.1 f.2 fs ++ added).Perm (fs ++ f :: added) :=
      ((put_perm hnew).append_right added).trans List.perm_middle.symm
    have hnames := hput.map Prod.fst
    rw [List.map_append, List.map_append] at hnames
    exact (ih (hnames.nodup_iff.mpr h)).trans hput

theorem ofList_perm (h : (fs.map Prod.fst).Nodup) : (ofList fs).Perm fs :=
  foldl_put_perm (by simpa using h)

theorem ofList_of_increasing (h : fs.Increasing) : ofList fs = fs :=
  (increasing_ofList fs).eq_of_perm h (ofList_perm h.nodup)

theorem erase_put_perm (h : name ∉ fs.map Prod.fst) : ((put name v fs).erase name).Perm fs := by
  have hperm := (put_perm (v := v) h).filter fun f => f.1 ≠ name
  rw [List.filter_cons_of_neg (by simp), filter_eq_self_of_new h] at hperm
  exact hperm

theorem mem_of_get? (h : fs.get? name = some v) : (name, v) ∈ fs := mem_of_lookup h

/-- A field counts where no other has its name. -/
theorem get?_of_mem (h : (fs.map Prod.fst).Nodup) (hf : f ∈ fs) : fs.get? f.1 = some f.2 := by
  induction fs with
  | nil => cases hf
  | cons g fs ih =>
    obtain ⟨n, w⟩ := g
    obtain ⟨hnew, hrest⟩ := List.nodup_cons.mp h
    rw [get?_cons]
    rcases List.mem_cons.mp hf with rfl | hbehind
    · rw [if_pos rfl]
    · have hname : f.1 ≠ n := by
        rintro rfl
        exact hnew (List.mem_map.mpr ⟨f, hbehind, rfl⟩)
      rw [if_neg hname, ih hrest hbehind]

/-- A field that is put back where it was taken out. -/
theorem Increasing.put_erase (h : fs.Increasing) (hv : fs.get? name = some v) :
    Fields.put name v (fs.erase name) = fs := by
  have herased : (fs.erase name).Increasing := h.sublist List.filter_sublist
  have hgone : name ∉ (fs.erase name).map Prod.fst := by
    intro hmem
    obtain ⟨f, hf, hname⟩ := List.mem_map.mp hmem
    exact of_decide_eq_true (List.mem_filter.mp hf).2 hname
  exact herased.put.eq_of_perm h ((put_perm hgone).trans (cons_filter_perm h.nodup (mem_of_get? hv)))

end Fields

def parts : Json → List Json
  | .null | .boolean _ | .integer _ | .float _ | .string _ => []
  | .array items => items
  | .object fields => fields.map Prod.snd

def Within (inner outer : Json) : Prop := StoreQuery.Within parts inner outer

/-- Values whose objects have their fields in order, at any depth. -/
def Ordered (j : Json) : Prop := ∀ fs, (object fs).Within j → Fields.Increasing fs

def Named (j : Json) : Prop := ∀ fs, (object fs).Within j → "" ∉ fs.map Prod.fst

structure Regular (j : Json) : Prop where
  ordered : j.Ordered
  named : j.Named

section Within

variable {inner j p : Json}

theorem ordered_iff :
    j.Ordered ↔ (∀ fs, j = .object fs → Fields.Increasing fs) ∧ ∀ p ∈ j.parts, p.Ordered := by
  constructor
  · intro h
    refine ⟨?_, fun p hp fs hfs => h fs (.part hp hfs)⟩
    rintro fs rfl
    exact h fs .self
  · rintro ⟨hself, hparts⟩ fs hfs
    cases hfs with
    | self => exact hself fs rfl
    | part hp hfs => exact hparts _ hp fs hfs

theorem ordered_of_scalar (hparts : j.parts = []) (hscalar : ∀ fs, j ≠ .object fs) : j.Ordered := by
  rw [ordered_iff, hparts]
  exact ⟨fun fs hfs => absurd hfs (hscalar fs), List.forall_mem_nil _⟩

theorem ordered_array {items : List Json} (h : ∀ p ∈ items, p.Ordered) : (array items).Ordered :=
  ordered_iff.mpr ⟨nofun, h⟩

theorem ordered_ofFields {fields : List (String × Json)} (h : ∀ f ∈ fields, f.2.Ordered) :
    (ofFields fields).Ordered := by
  rw [ordered_iff]
  constructor
  · rintro fs ⟨⟩
    exact Fields.increasing_ofList fields
  · intro p hp
    obtain ⟨f, hf, rfl⟩ := List.mem_map.mp hp
    exact h f (Fields.mem_ofList hf)

theorem Ordered.part (h : j.Ordered) (hp : p ∈ j.parts) : p.Ordered :=
  fun fs hfs => h fs (.part hp hfs)

theorem Named.part (h : j.Named) (hp : p ∈ j.parts) : p.Named :=
  fun fs hfs => h fs (.part hp hfs)

theorem within_of_scalar (h : j.parts = []) : inner.Within j ↔ inner = j := within_of_no_parts h

@[simp]
theorem within_array {items : List Json} :
    inner.Within (.array items) ↔ inner = .array items ∨ ∃ j ∈ items, inner.Within j :=
  within_iff

@[simp]
theorem within_object {fields : List (String × Json)} :
    inner.Within (.object fields) ↔ inner = .object fields ∨ ∃ f ∈ fields, inner.Within f.2 :=
  within_iff_of_map rfl

theorem sizeOf_part_lt (h : p ∈ j.parts) : sizeOf p < sizeOf j := by
  cases j with
  | array items =>
    have hlt := List.sizeOf_lt_of_mem (show p ∈ items from h)
    simp only [array.sizeOf_spec]
    omega
  | object fields =>
    obtain ⟨⟨name, held⟩, hf, rfl⟩ := List.mem_map.mp h
    have hlt := List.sizeOf_lt_of_mem hf
    simp only [object.sizeOf_spec, Prod.mk.sizeOf_spec] at hlt ⊢
    omega
  | _ => cases h

theorem regular_of_scalar (hparts : j.parts = []) (hscalar : ∀ fs, j ≠ .object fs) : j.Regular := by
  have hnone : ∀ fs, ¬ (object fs).Within j :=
    fun fs h => hscalar fs ((within_of_scalar hparts).mp h).symm
  exact ⟨fun fs h => absurd h (hnone fs), fun fs h => absurd h (hnone fs)⟩

theorem regular_array {items : List Json} (h : ∀ p ∈ items, p.Regular) : (array items).Regular := by
  have hitem : ∀ fs, (object fs).Within (array items) → ∃ p ∈ items, (object fs).Within p :=
    fun fs hfs => (within_array.mp hfs).resolve_left nofun
  constructor
  · intro fs hfs
    obtain ⟨p, hp, hfs⟩ := hitem fs hfs
    exact (h p hp).ordered fs hfs
  · intro fs hfs
    obtain ⟨p, hp, hfs⟩ := hitem fs hfs
    exact (h p hp).named fs hfs

theorem regular_object {fields : Fields} (hincreasing : fields.Increasing)
    (hnamed : "" ∉ fields.map Prod.fst) (h : ∀ f ∈ fields, f.2.Regular) : (object fields).Regular := by
  constructor
  · intro fs hfs
    rcases within_object.mp hfs with hself | ⟨f, hf, hfs⟩
    · cases hself
      exact hincreasing
    · exact (h f hf).ordered fs hfs
  · intro fs hfs
    rcases within_object.mp hfs with hself | ⟨f, hf, hfs⟩
    · cases hself
      exact hnamed
    · exact (h f hf).named fs hfs

/-- Induction from the parts of a value to the value. -/
theorem byParts {motive : Json → Prop}
    (whole : ∀ j, (∀ p ∈ j.parts, motive p) → motive j) (j : Json) : motive j :=
  whole j fun p _ => byParts whole p
termination_by sizeOf j
decreasing_by exact sizeOf_part_lt ‹_›

end Within

end StoreQuery.Json
