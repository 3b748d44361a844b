import StoreQuery.Step
/-!
Running steps. A step that is done over and over hands its value to the next round; one that changes
nothing gives the same answer for ever.
-/
namespace StoreQuery

theorem ok_bind {ε α β : Type} (a : α) (f : α → Except ε β) : (Except.ok a >>= f) = f a := rfl

theorem exists_of_bind_ok {ε α β : Type} {x : Except ε α} {f : α → Except ε β} {b : β}
    (h : (x >>= f) = .ok b) : ∃ a, x = .ok a ∧ f a = .ok b := by
  cases x with
  | error e => cases h
  | ok a => exact ⟨a, rfl, h⟩

theorem map_eq_ok {ε α β : Type} {x : Except ε α} {f : α → β} {b : β} :
    x.map f = .ok b ↔ ∃ a, x = .ok a ∧ f a = b := by
  cases x <;> simp [Except.map]

namespace Step

variable {σ α β : Type}

@[simp]
theorem run_pure (a : α) (s : σ) : (pure a : Step σ α).run s = ⟨a, s, []⟩ := rfl

@[simp]
theorem answer_bind (x : Step σ α) (f : α → Step σ β) (s : σ) :
    ((x >>= f).run s).answer = ((f (x.run s).answer).run (x.run s).state).answer := rfl

@[simp]
theorem state_bind (x : Step σ α) (f : α → Step σ β) (s : σ) :
    ((x >>= f).run s).state = ((f (x.run s).answer).run (x.run s).state).state := rfl

@[simp]
theorem answer_map (f : α → β) (x : Step σ α) (s : σ) :
    ((f <$> x).run s).answer = f (x.run s).answer := rfl

@[simp]
theorem state_map (f : α → β) (x : Step σ α) (s : σ) :
    ((f <$> x).run s).state = (x.run s).state := rfl

@[simp]
theorem run_emit (e : LogEntry) (s : σ) : (emit e).run s = ⟨(), s, [e]⟩ := rfl

/-- Does a step `n` times, each time with the value that the time before left, and collects the
answers. -/
def repeated (f : β → Step σ (α × β)) : Nat → β → Step σ (List α × β)
  | 0, b => pure ([], b)
  | n + 1, b => do
    let (answers, c) ← repeated f n b
    let (a, d) ← f c
    pure (answers ++ [a], d)

theorem run_repeated_zero (f : β → Step σ (α × β)) (b : β) (s : σ) :
    ((repeated f 0 b).run s).answer = ([], b) ∧ ((repeated f 0 b).run s).state = s :=
  ⟨rfl, rfl⟩

theorem answer_repeated_succ (f : β → Step σ (α × β)) (n : Nat) (b : β) (s : σ) :
    ((repeated f (n + 1) b).run s).answer =
      let o := (repeated f n b).run s
      (o.answer.1 ++ [((f o.answer.2).run o.state).answer.1],
        ((f o.answer.2).run o.state).answer.2) := rfl

theorem state_repeated_succ (f : β → Step σ (α × β)) (n : Nat) (b : β) (s : σ) :
    ((repeated f (n + 1) b).run s).state =
      let o := (repeated f n b).run s
      ((f o.answer.2).run o.state).state := rfl

/-- A value that a step gives back, with the state as it was, is given back every time. -/
theorem repeated_of_fixed {f : β → Step σ (α × β)} {a : α} {b : β} {s : σ}
    (ha : ((f b).run s).answer = (a, b)) (hs : ((f b).run s).state = s) (n : Nat) :
    ((repeated f n b).run s).answer = (List.replicate n a, b) ∧
      ((repeated f n b).run s).state = s := by
  induction n with
  | zero => exact run_repeated_zero f b s
  | succ n ih =>
    obtain ⟨hanswer, hstate⟩ := ih
    constructor
    · rw [answer_repeated_succ]
      simp only [hanswer, hstate, ha, List.replicate_succ']
    · rw [state_repeated_succ]
      simp only [hanswer, hstate, hs]

end Step

/-- An attempt that gives something else in the end is answered and changes the state as before. -/
theorem Attempt.run_giving {σ α β : Type} (x : Attempt σ α) (b : β) (s : σ) :
    let o := ((do let _ ← x; return b) : Attempt σ β).run.run s
    o.answer = (x.run.run s).answer.map (fun _ => b) ∧ o.state = (x.run.run s).state := by
  simp only [ExceptT.run_bind, Step.answer_bind, Step.state_bind]
  cases (x.run.run s).answer with
  | error e => exact ⟨rfl, rfl⟩
  | ok a => exact ⟨rfl, rfl⟩

end StoreQuery
