/-!
Stable insertion sort. Each item moves forward past the items it is strictly before, starting from the
end of the items already sorted. Where the comparison is no total order of the items, the library sort that
this one stands for may leave any arrangement of them, or panic, so general results about the order of a
sorted list ask for a comparison that is total on its items.
-/
namespace StoreQuery

variable {α : Type}

/-- Puts an item into a list whose last item comes first. -/
def insertFromEnd (before : α → α → Bool) (x : α) : List α → List α
  | [] => [x]
  | y :: ys => if before x y then y :: insertFromEnd before x ys else x :: y :: ys

def stableSort (before : α → α → Bool) (xs : List α) : List α :=
  (xs.foldl (fun sorted x => insertFromEnd before x sorted) []).reverse

theorem length_insertFromEnd (before : α → α → Bool) (x : α) (xs : List α) :
    (insertFromEnd before x xs).length = xs.length + 1 := by
  induction xs with
  | nil => rfl
  | cons y ys ih => unfold insertFromEnd; split <;> simp [ih]

theorem length_foldl_insertFromEnd (before : α → α → Bool) (xs sorted : List α) :
    (xs.foldl (fun acc x => insertFromEnd before x acc) sorted).length =
      xs.length + sorted.length := by
  induction xs generalizing sorted with
  | nil => simp
  | cons x xs ih => simp [ih, length_insertFromEnd]; omega

@[simp]
theorem length_stableSort (before : α → α → Bool) (xs : List α) :
    (stableSort before xs).length = xs.length := by
  simp [stableSort, length_foldl_insertFromEnd]

end StoreQuery
