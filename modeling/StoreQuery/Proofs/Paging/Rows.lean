import StoreQuery.Paging.Pager
/-!
Rows as they arrive: the entities before the first row that failed to convert, and the error of that
row. A limit of zero stands for none.
-/
namespace StoreQuery

def errorOf? {α : Type} : Except QueryError α → Option QueryError
  | .ok _ => none
  | .error e => some e

def converted (rows : List RowResult) : List Entity :=
  (rows.takeWhile Except.isOk).filterMap Except.toOption

def failure? (rows : List RowResult) : Option QueryError := rows.findSome? errorOf?

def throughFailure : List RowResult → List RowResult
  | [] => []
  | .ok e :: rows => .ok e :: throughFailure rows
  | .error e :: _ => [.error e]

def capped {α : Type} (limit : Nat) (xs : List α) : List α := if limit = 0 then xs else xs.take limit

@[simp]
theorem capped_zero {α : Type} (xs : List α) : capped 0 xs = xs := if_pos rfl

theorem capped_of_pos {α : Type} {limit : Nat} (h : 0 < limit) (xs : List α) :
    capped limit xs = xs.take limit := if_neg (Nat.ne_of_gt h)

theorem map_capped {α β : Type} (f : α → β) (limit : Nat) (xs : List α) :
    (capped limit xs).map f = capped limit (xs.map f) := by
  by_cases h : 0 < limit
  · rw [capped_of_pos h, capped_of_pos h, List.map_take]
  · rw [Nat.eq_zero_of_not_pos h, capped_zero, capped_zero]

theorem capped_sublist {α : Type} (limit : Nat) (xs : List α) : (capped limit xs).Sublist xs := by
  rcases Nat.eq_zero_or_pos limit with rfl | h
  · exact List.Sublist.refl xs
  · rw [capped_of_pos h]
    exact List.take_sublist limit xs

theorem length_capped_le {α : Type} (limit : Nat) (xs : List α) :
    (capped limit xs).length ≤ xs.length := (capped_sublist limit xs).length_le

@[simp] theorem converted_nil : converted [] = [] := rfl

@[simp]
theorem converted_ok (e : Entity) (rows : List RowResult) :
    converted (.ok e :: rows) = e :: converted rows := rfl

@[simp]
theorem converted_error (e : QueryError) (rows : List RowResult) :
    converted (.error e :: rows) = [] := rfl

@[simp] theorem failure?_nil : failure? [] = none := rfl

@[simp]
theorem failure?_ok (e : Entity) (rows : List RowResult) :
    failure? (.ok e :: rows) = failure? rows := rfl

@[simp]
theorem failure?_error (e : QueryError) (rows : List RowResult) :
    failure? (.error e :: rows) = some e := rfl

theorem splitRows_eq (rows : List RowResult) :
    Pager.splitRows rows = (converted rows, failure? rows) := by
  induction rows with
  | nil => rfl
  | cons row rows ih =>
    cases row with
    | error e => rfl
    | ok e => simp [Pager.splitRows, ih]

theorem failure?_append (rows more : List RowResult) :
    failure? (rows ++ more) = (failure? rows).or (failure? more) := List.findSome?_append

theorem converted_append {rows : List RowResult} (h : failure? rows = none) (more : List RowResult) :
    converted (rows ++ more) = converted rows ++ converted more := by
  induction rows with
  | nil => rfl
  | cons row rows ih =>
    cases row with
    | error e => cases h
    | ok e => simpa using ih h

theorem converted_append_of_failure {rows : List RowResult} {e : QueryError}
    (h : failure? rows = some e) (more : List RowResult) :
    converted (rows ++ more) = converted rows := by
  induction rows with
  | nil => cases h
  | cons row rows ih =>
    cases row with
    | error e => rfl
    | ok e => simpa using ih h

theorem map_ok_converted {rows : List RowResult} (h : failure? rows = none) :
    (converted rows).map Except.ok = rows := by
  induction rows with
  | nil => rfl
  | cons row rows ih =>
    cases row with
    | error e => cases h
    | ok e => simpa using ih h

@[simp]
theorem failure?_map_ok (es : List Entity) : failure? (es.map Except.ok) = none := by
  induction es with
  | nil => rfl
  | cons e es ih => exact ih

@[simp]
theorem converted_map_ok (es : List Entity) : converted (es.map Except.ok) = es := by
  induction es with
  | nil => rfl
  | cons e es ih => simp [ih]

theorem length_converted {rows : List RowResult} (h : failure? rows = none) :
    (converted rows).length = rows.length := by
  have hl := congrArg List.length (map_ok_converted h)
  rwa [List.length_map] at hl

theorem length_converted_le (rows : List RowResult) : (converted rows).length ≤ rows.length := by
  induction rows with
  | nil => exact Nat.le_refl _
  | cons row rows ih =>
    cases row with
    | error e => simp
    | ok e => simpa using ih

@[simp]
theorem converted_throughFailure (rows : List RowResult) :
    converted (throughFailure rows) = converted rows := by
  induction rows with
  | nil => rfl
  | cons row rows ih =>
    cases row with
    | error e => rfl
    | ok e => simp [throughFailure, ih]

@[simp]
theorem failure?_throughFailure (rows : List RowResult) :
    failure? (throughFailure rows) = failure? rows := by
  induction rows with
  | nil => rfl
  | cons row rows ih =>
    cases row with
    | error e => rfl
    | ok e => simp [throughFailure, ih]

theorem throughFailure_of_none {rows : List RowResult} (h : failure? rows = none) :
    throughFailure rows = rows := by
  induction rows with
  | nil => rfl
  | cons row rows ih =>
    cases row with
    | error e => cases h
    | ok e => simpa [throughFailure] using ih h

theorem convertRows_eq_throughFailure {κ : Type} (convert : κ → RowResult) (ks : List κ) :
    Adapter.convertRows convert ks = throughFailure (ks.map convert) := by
  induction ks with
  | nil => rfl
  | cons k ks ih =>
    rw [Adapter.convertRows, List.map_cons]
    cases convert k with
    | error e => rfl
    | ok e => exact congrArg (Except.ok e :: ·) ih

theorem throughFailure_eq (rows : List RowResult) :
    throughFailure rows =
      rows.takeWhile Except.isOk ++ (failure? rows).toList.map Except.error := by
  induction rows with
  | nil => rfl
  | cons row rows ih =>
    cases row with
    | error e => rfl
    | ok e => exact congrArg (Except.ok e :: ·) ih

theorem converted_take_prefix (rows : List RowResult) (n : Nat) :
    converted (rows.take n) <+: converted rows := by
  have hsplit := List.take_append_drop n rows
  cases hf : failure? (rows.take n) with
  | none =>
    refine ⟨converted (rows.drop n), ?_⟩
    rw [← converted_append hf, hsplit]
  | some e =>
    refine ⟨[], ?_⟩
    rw [List.append_nil, ← converted_append_of_failure hf (rows.drop n), hsplit]

theorem converted_prefix {rows more : List RowResult} (h : rows <+: more) :
    converted rows <+: converted more := by
  rw [List.prefix_iff_eq_take.mp h]
  exact converted_take_prefix more rows.length

def firstFailure? (rows : List RowResult) : Option Nat := rows.findIdx? fun row => !row.isOk

theorem failure?_of_firstFailure_none {rows : List RowResult} (h : firstFailure? rows = none) :
    failure? rows = none := by
  apply List.findSome?_eq_none_iff.mpr
  intro row hrow
  have hok := List.findIdx?_eq_none_iff.mp h row hrow
  cases row with
  | ok e => rfl
  | error e => cases hok

/-- Before the first failure all rows are entities, and its error is the one that counts. -/
theorem rows_of_firstFailure {rows : List RowResult} {f : Nat} (h : firstFailure? rows = some f) :
    ∃ e, failure? rows = some e ∧ rows[f]? = some (.error e) ∧
      (converted rows).map Except.ok = rows.take f ∧ f < rows.length := by
  induction rows generalizing f with
  | nil => cases h
  | cons row rows ih =>
    simp only [firstFailure?] at h ih
    rw [List.findIdx?_cons] at h
    cases row with
    | error e =>
      cases h
      exact ⟨e, rfl, rfl, rfl, Nat.zero_lt_succ _⟩
    | ok e =>
      obtain ⟨g, hg, rfl⟩ := Option.map_eq_some_iff.mp h
      obtain ⟨error, hfail, hat, hbefore, hlt⟩ := ih hg
      refine ⟨error, hfail, ?_, ?_, Nat.succ_lt_succ hlt⟩
      · simpa using hat
      · simpa using hbefore

/-- Of rows that are cut off, the first failure is that of all rows, unless it is cut off too. -/
theorem firstFailure?_take (rows : List RowResult) (n : Nat) :
    firstFailure? (rows.take n) = (firstFailure? rows).filter fun f => decide (f < n) := by
  induction rows generalizing n with
  | nil => simp [firstFailure?]
  | cons row rows ih =>
    cases n with
    | zero =>
      rw [List.take_zero]
      cases firstFailure? (row :: rows) with
      | none => rfl
      | some f => rfl
    | succ n =>
      simp only [firstFailure?] at ih ⊢
      rw [List.take_succ_cons, List.findIdx?_cons, List.findIdx?_cons]
      cases row with
      | error e => rfl
      | ok e =>
        rw [ih]
        simp [Except.isOk, Except.toBool, Option.filter_map, Function.comp_def]

theorem throughFailure_eq_take {rows : List RowResult} {f : Nat} (h : firstFailure? rows = some f) :
    throughFailure rows = rows.take (f + 1) := by
  induction rows generalizing f with
  | nil => cases h
  | cons row rows ih =>
    simp only [firstFailure?, List.findIdx?_cons] at h ih
    cases row with
    | error e =>
      cases h
      rfl
    | ok e =>
      obtain ⟨g, hg, rfl⟩ := Option.map_eq_some_iff.mp h
      rw [throughFailure, ih hg, List.take_succ_cons]

theorem firstFailure?_eq_none {rows : List RowResult} (h : failure? rows = none) :
    firstFailure? rows = none := by
  cases hf : firstFailure? rows with
  | none => rfl
  | some f =>
    obtain ⟨e, he, -⟩ := rows_of_firstFailure hf
    rw [h] at he
    cases he

theorem firstFailure?_drop {rows : List RowResult} {skip : Nat}
    (h : failure? (rows.take skip) = none) :
    firstFailure? rows = (firstFailure? (rows.drop skip)).map (skip + ·) := by
  have hbefore := firstFailure?_eq_none h
  by_cases hskip : skip ≤ rows.length
  · have hlength : (rows.take skip).length = skip := List.length_take_of_le hskip
    calc firstFailure? rows = firstFailure? (rows.take skip ++ rows.drop skip) := by
          rw [List.take_append_drop]
      _ = (firstFailure? (rows.take skip)).or
          ((firstFailure? (rows.drop skip)).map (· + (rows.take skip).length)) :=
        List.findIdx?_append
      _ = (firstFailure? (rows.drop skip)).map (skip + ·) := by
        rw [hbefore, Option.none_or, hlength]
        simp only [Nat.add_comm]
  · rw [List.take_of_length_le (by omega)] at hbefore
    rw [List.drop_eq_nil_of_le (by omega), hbefore]
    rfl

theorem isPrefix_throughFailure (rows : List RowResult) : throughFailure rows <+: rows := by
  cases hf : firstFailure? rows with
  | none =>
    have hwhole := throughFailure_of_none (failure?_of_firstFailure_none hf)
    exact ⟨[], (List.append_nil _).trans hwhole⟩
  | some f =>
    rw [throughFailure_eq_take hf]
    exact List.take_prefix _ _

theorem mem_of_failure {rows : List RowResult} {e : QueryError} (h : failure? rows = some e) :
    .error e ∈ rows := by
  obtain ⟨row, hrow, he⟩ := List.exists_of_findSome?_eq_some h
  cases row with
  | error _ =>
    cases he
    exact hrow
  | ok _ => cases he

end StoreQuery
