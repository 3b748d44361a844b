import StoreQuery.Proofs.Value.Parts
import StoreQuery.Proofs.Value.SortPlace
/-!
The comparison of values is a partial order: turning the sides round turns the answer round, and values
that follow each other stay comparable over any value between them. Lists inherit both from their items,
though the first pair that does not compare ends the comparison.
-/
namespace StoreQuery

open SortPlace (compare?_of_rank_eq compare?_of_rank_ne)

theorem Double.compare?_swap (x y : Double) : y.compare? x = (x.compare? y).map Ordering.swap := by
  simp only [compare?, Bool.or_comm y.isNaN]
  split
  · rfl
  · rw [Option.map_some, ← Std.OrientedCmp.eq_swap]

/-- A chain without a descent ends below only if a step of it goes up. -/
theorem compare_then {α : Type} [Ord α] [Std.TransOrd α] {a b c : α} (hab : compare a b ≠ .gt)
    (hbc : compare b c ≠ .gt) : compare a c = (compare a b).then (compare b c) := by
  cases ho : compare a b with
  | gt => exact (hab ho).elim
  | eq => exact Std.TransCmp.congr_left ho
  | lt =>
    cases hp : compare b c with
    | gt => exact (hbc hp).elim
    | eq => exact (Std.TransCmp.congr_right hp).symm.trans ho
    | lt => exact Std.TransCmp.lt_trans ho hp

namespace Value

variable {a b c : Value} {as bs cs : List Value} {o p : Ordering}

theorem compareItems?_cons_eq_some : compareItems? (a :: as) (b :: bs) = some o ↔
    (a.compare? b = some .eq ∧ compareItems? as bs = some o) ∨ (o ≠ .eq ∧ a.compare? b = some o) := by
  rw [compareItems?]
  cases hab : a.compare? b with
  | none => simp
  | some r => cases r <;> cases o <;> simp

theorem compareItems?_swap
    (h : ∀ a ∈ as, ∀ b, b.compare? a = (a.compare? b).map Ordering.swap) :
    compareItems? bs as = (compareItems? as bs).map Ordering.swap := by
  induction as generalizing bs with
  | nil => cases bs <;> rfl
  | cons a as ih =>
    rw [List.forall_mem_cons] at h
    cases bs with
    | nil => rfl
    | cons b bs =>
      rw [compareItems?, compareItems?, h.1 b]
      cases a.compare? b with
      | none => rfl
      | some r =>
        cases r with
        | eq => exact ih h.2
        | _ => rfl

theorem compare?_swap (a b : Value) : b.compare? a = (a.compare? b).map Ordering.swap := by
  induction a using Value.byParts generalizing b with
  | whole a ih =>
    cases a with
    | text s =>
      cases b with
      | text t => exact congrArg some Std.OrientedCmp.eq_swap
      | _ => rfl
    | integer m =>
      cases b with
      | integer n => exact congrArg some Std.OrientedCmp.eq_swap
      | _ => rfl
    | float x =>
      cases b with
      | integer n =>
        rw [compare?, compare?, Option.map_map]
        cases Double.compareInt? n x with
        | none => rfl
        | some o => cases o <;> rfl
      | float y => exact Double.compare?_swap x y
      | _ => rfl
    | boolean x =>
      cases b with
      | boolean y => exact congrArg some Std.OrientedCmp.eq_swap
      | _ => rfl
    | temporal s =>
      cases b with
      | temporal t =>
        rw [compare?, compare?, Instant.compare, Instant.compare, Option.map_some,
          Ordering.swap_then, ← Std.OrientedCmp.eq_swap, ← Std.OrientedCmp.eq_swap]
      | _ => rfl
    | bytes xs =>
      cases b with
      | bytes ys => exact congrArg some Std.OrientedCmp.eq_swap
      | _ => rfl
    | sequence as =>
      cases b with
      | sequence bs => exact compareItems?_swap ih
      | _ => rfl
    | entity e => cases b <;> rfl

theorem compare?_eq_some_swap (h : a.compare? b = some o) : b.compare? a = some o.swap := by
  rw [compare?_swap a b, h, Option.map_some]

theorem rank_of_compare? (h : a.compare? b = some o) : a.kind.rank = b.kind.rank :=
  Decidable.byContradiction fun hne => nomatch (compare?_of_rank_ne hne).symm.trans h

/-- What compares is neither an entity nor a NaN. -/
theorem scalar_or_sequence (h : a.compare? b = some o) :
    a.IsScalar ∨ ∃ as, a = .sequence as := by
  cases a with
  | sequence as => exact .inr ⟨as, rfl⟩
  | entity e => cases h
  | float x =>
    left
    rw [IsScalar, ← Bool.not_eq_true]
    intro hnan
    cases b with
    | integer n => simp [compare?, Double.compareInt?_eq, hnan] at h
    | float y => simp [compare?, Double.compare?, hnan] at h
    | _ => cases h
  | _ => exact .inl trivial

/-- Two values compare as scalars of one rank, by their places, or as lists. -/
theorem compare?_eq_some (h : a.compare? b = some o) :
    (a.IsScalar ∧ b.IsScalar ∧ compare (SortPlace.of a) (SortPlace.of b) = o) ∨
      ∃ as bs, a = .sequence as ∧ b = .sequence bs ∧ compareItems? as bs = some o := by
  rcases scalar_or_sequence h with ha | ⟨as, rfl⟩
  · rcases scalar_or_sequence (compare?_eq_some_swap h) with hb | ⟨bs, rfl⟩
    · rw [compare?_of_rank_eq ha hb (rank_of_compare? h), Option.some_inj] at h
      exact .inl ⟨ha, hb, h⟩
    · cases a with
      | sequence as => exact ha.elim
      | _ => cases h
  · cases b with
    | sequence bs => exact .inr ⟨as, bs, rfl, rfl, h⟩
    | _ => cases h

theorem eq_lt (heq : o ≠ .eq) (hgt : o ≠ .gt) : o = .lt := by
  cases o with
  | lt => rfl
  | eq => exact (heq rfl).elim
  | gt => exact (hgt rfl).elim

theorem then_lt (ho : o ≠ .gt) : o.then .lt = .lt := by
  cases o with
  | gt => exact (ho rfl).elim
  | _ => rfl

theorem compareItems?_trans
    (h : ∀ a ∈ as, ∀ {b c : Value} {o p : Ordering}, a.compare? b = some o → b.compare? c = some p →
      o ≠ .gt → p ≠ .gt → a.compare? c = some (o.then p))
    (hab : compareItems? as bs = some o) (hbc : compareItems? bs cs = some p) (ho : o ≠ .gt)
    (hp : p ≠ .gt) : compareItems? as cs = some (o.then p) := by
  induction as generalizing bs cs o p with
  | nil =>
    cases bs with
    | nil =>
      cases hab
      exact hbc
    | cons b bs =>
      cases hab
      cases cs with
      | nil =>
        cases hbc
        exact (hp rfl).elim
      | cons c cs => rfl
  | cons a as ih =>
    obtain ⟨ha, has⟩ := List.forall_mem_cons.mp h
    cases bs with
    | nil =>
      cases hab
      exact (ho rfl).elim
    | cons b bs =>
      cases cs with
      | nil =>
        cases hbc
        exact (hp rfl).elim
      | cons c cs =>
        rw [compareItems?_cons_eq_some] at hab hbc ⊢
        rcases hab with ⟨hab, hasbs⟩ | ⟨hne, hab⟩
        · rcases hbc with ⟨hbc, hbscs⟩ | ⟨hne, hbc⟩
          · exact .inl ⟨ha hab hbc nofun nofun, ih has hasbs hbscs ho hp⟩
          · have hac := ha hab hbc nofun hp
            cases eq_lt hne hp
            rw [then_lt ho]
            exact .inr ⟨nofun, hac⟩
        · cases eq_lt hne ho
          rcases hbc with ⟨hbc, -⟩ | ⟨-, hbc⟩
          · have hac := ha hab hbc ho nofun
            exact .inr ⟨nofun, hac⟩
          · exact .inr ⟨nofun, ha hab hbc ho hp⟩

/-- Values that do not descend compare over the one between them, and are equal only if both steps are. -/
theorem compare?_trans (hab : a.compare? b = some o) (hbc : b.compare? c = some p) (ho : o ≠ .gt)
    (hp : p ≠ .gt) : a.compare? c = some (o.then p) := by
  induction a using Value.byParts generalizing b c o p with
  | whole a ih =>
    rcases compare?_eq_some hab with ⟨ha, hb, rfl⟩ | ⟨as, bs, rfl, rfl, hasbs⟩
    · rcases compare?_eq_some hbc with ⟨-, hc, rfl⟩ | ⟨bs, -, rfl, -⟩
      · rw [compare?_of_rank_eq ha hc ((rank_of_compare? hab).trans (rank_of_compare? hbc)),
          compare_then ho hp]
      · exact hb.elim
    · rcases compare?_eq_some hbc with ⟨hb, -⟩ | ⟨_, cs, hbs, rfl, hbscs⟩
      · exact hb.elim
      · cases hbs
        exact compareItems?_trans (fun a ha _ _ _ _ => ih a ha) hasbs hbscs ho hp

end Value

end StoreQuery
