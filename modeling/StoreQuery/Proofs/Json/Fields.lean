import StoreQuery.Json.Basic
import StoreQuery.Proofs.Lists
/-!
The fields of objects as maps: a field that is set has its new value, and the others are as they were.
-/
namespace StoreQuery.Json.Fields

variable {name other : String} {v : Json} {fs : Fields}

@[simp]
theorem get?_nil (name : String) : get? [] name = none := rfl

theorem get?_cons (name other : String) (v : Json) (fs : Fields) :
    get? ((name, v) :: fs) other = if other = name then some v else get? fs other :=
  lookup_cons name other v fs

theorem get?_put (name other : String) (v : Json) (fs : Fields) :
    (put name v fs).get? other = if other = name then some v else fs.get? other := by
  induction fs with
  | nil => rw [put, get?_cons]
  | cons f fs ih =>
    obtain ⟨n, w⟩ := f
    simp only [put]
    cases horder : compare name n with
    | lt => simp only [get?_cons]
    | eq =>
      obtain rfl := Std.LawfulEqCmp.eq_of_compare horder
      simp only [get?_cons]
      split <;> rfl
    | gt =>
      have hne : n ≠ name := by
        rintro rfl
        simp [Std.ReflCmp.compare_self] at horder
      simp only [get?_cons, ih]
      by_cases h : other = n
      · subst h
        simp [hne]
      · simp [h]

@[simp]
theorem get?_put_self (name : String) (v : Json) (fs : Fields) :
    (put name v fs).get? name = some v := by
  rw [get?_put, if_pos rfl]

theorem get?_erase (h : name ≠ other) (fs : Fields) : (fs.erase other).get? name = fs.get? name := by
  induction fs with
  | nil => rfl
  | cons f fs ih =>
    obtain ⟨n, w⟩ := f
    rw [erase, List.filter_cons, get?_cons, ← ih]
    by_cases hn : n = other
    · simp [hn, h, erase]
    · simp [hn, get?_cons, erase]

theorem get?_foldl_put {added : List (String × Json)} (h : ∀ f ∈ added, f.1 ≠ name) :
    (added.foldl (fun fs f => put f.1 f.2 fs) fs).get? name = fs.get? name := by
  induction added generalizing fs with
  | nil => rfl
  | cons f added ih =>
    rw [List.forall_mem_cons] at h
    rw [List.foldl_cons, ih h.2, get?_put, if_neg h.1.symm]

/-- A field counts where no later one has its name. -/
theorem get?_ofList_cons (h : ∀ f ∈ fs, f.1 ≠ name) :
    (ofList ((name, v) :: fs)).get? name = some v := by
  rw [ofList, List.foldl_cons, get?_foldl_put h, get?_put_self]

end StoreQuery.Json.Fields
