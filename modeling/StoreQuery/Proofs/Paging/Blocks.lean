import Mathlib.Data.List.Forall2
/-!
Lists in consecutive blocks. The blocks of a list are the list again, and whole blocks can be cut off
its front.
-/
namespace StoreQuery

variable {α : Type} {size : Nat} {xs ys : List α}

/-- The consecutive blocks of a size, the last of which may be shorter; one of everything for a size of
zero. -/
def blocks (size : Nat) : List α → List (List α)
  | [] => []
  | x :: xs =>
    if size = 0 then [x :: xs] else (x :: xs.take (size - 1)) :: blocks size (xs.drop (size - 1))
termination_by xs => xs.length
decreasing_by
  simp only [List.length_drop, List.length_cons]
  omega

@[simp]
theorem blocks_nil (size : Nat) : blocks size ([] : List α) = [] := by rw [blocks]

theorem blocks_of_ne_nil (hsize : size ≠ 0) (h : xs ≠ []) :
    blocks size xs = xs.take size :: blocks size (xs.drop size) := by
  cases xs with
  | nil => exact (h rfl).elim
  | cons x xs =>
    obtain ⟨n, rfl⟩ := Nat.exists_eq_succ_of_ne_zero hsize
    rw [blocks, if_neg hsize]
    rfl

/-- What fits into one block is one, unless it is empty. -/
theorem blocks_of_le (h : size = 0 ∨ xs.length ≤ size) (hne : xs ≠ []) : blocks size xs = [xs] := by
  by_cases hsize : size = 0
  · cases xs with
    | nil => exact (hne rfl).elim
    | cons x xs => rw [blocks, if_pos hsize]
  · have hle : xs.length ≤ size := h.resolve_left hsize
    rw [blocks_of_ne_nil hsize hne, List.take_of_length_le hle, List.drop_eq_nil_of_le hle, blocks_nil]

theorem flatten_blocks (size : Nat) (xs : List α) : (blocks size xs).flatten = xs := by
  induction hn : xs.length using Nat.strongRecOn generalizing xs with
  | ind n ih =>
    by_cases hne : xs = []
    · rw [hne, blocks_nil, List.flatten_nil]
    by_cases hsize : size = 0
    · rw [blocks_of_le (.inl hsize) hne, List.flatten_singleton]
    · have hpos := List.length_pos_of_ne_nil hne
      have hlt : (xs.drop size).length < n := by
        rw [List.length_drop]
        omega
      rw [blocks_of_ne_nil hsize hne, List.flatten_cons, ih _ hlt _ rfl, List.take_append_drop]

/-- Blocks that are full are those of the front alone. -/
theorem blocks_append {count : Nat} (h : xs.length = count * size) (ys : List α) :
    blocks size (xs ++ ys) = blocks size xs ++ blocks size ys := by
  -- One block is cut off for each of the count; an empty list has none to begin with.
  induction count generalizing xs with
  | zero =>
    rw [Nat.zero_mul] at h
    rw [List.eq_nil_of_length_eq_zero h, List.nil_append, blocks_nil, List.nil_append]
  | succ count ih =>
    by_cases hne : xs = []
    · rw [hne, List.nil_append, blocks_nil, List.nil_append]
    rw [Nat.succ_mul] at h
    have hsize : size ≠ 0 := by
      rintro rfl
      exact hne (List.eq_nil_of_length_eq_zero h)
    have hrest : (xs.drop size).length = count * size := by
      rw [List.length_drop]
      omega
    rw [blocks_of_ne_nil hsize hne, blocks_of_ne_nil hsize (List.append_ne_nil_of_left_ne_nil hne ys),
      List.take_append_of_le_length (by omega), List.drop_append_of_le_length (by omega), ih hrest,
      List.cons_append]

section Rearranged

variable {bs ps : List (List α)} {R : α → α → Prop}

theorem perm_flatten (h : List.Forall₂ (fun b p => p.Perm b) bs ps) :
    ps.flatten.Perm bs.flatten := by
  induction h with
  | nil => exact List.Perm.refl _
  | cons hperm _ ih => exact hperm.append ih

/-- What holds between the items of blocks in turn holds however each of them is rearranged, if it holds
inside. -/
theorem pairwise_flatten_of_perm (h : List.Forall₂ (fun b p => p.Perm b) bs ps)
    (hblocks : bs.flatten.Pairwise R) (hinside : ∀ p ∈ ps, p.Pairwise R) :
    ps.flatten.Pairwise R := by
  induction h with
  | nil => exact List.Pairwise.nil
  | cons hperm hrest ih =>
    obtain ⟨_, hlater, hacross⟩ := List.pairwise_append.mp hblocks
    obtain ⟨hfirst, hinside⟩ := List.forall_mem_cons.mp hinside
    apply List.pairwise_append.mpr
    refine ⟨hfirst, ih hlater hinside, ?_⟩
    intro a ha b hb
    exact hacross a (hperm.mem_iff.mp ha) b ((perm_flatten hrest).mem_iff.mp hb)

end Rearranged

end StoreQuery
