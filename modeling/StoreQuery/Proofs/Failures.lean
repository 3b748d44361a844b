import StoreQuery.Error
/-!
Results that can only fail in a certain way. Steps one after the other fail in the ways of each of them.
-/
namespace StoreQuery

variable {α β γ : Type} {sort : QueryError → Prop} {x : Except QueryError α} {e : QueryError}

def FailsAs (sort : QueryError → Prop) (x : Except QueryError α) : Prop := ∀ e, x = .error e → sort e

namespace FailsAs

theorem ok (a : α) : FailsAs sort (.ok a) := nofun

theorem error (h : sort e) : FailsAs sort (.error e : Except QueryError α) := by
  rintro _ ⟨⟩
  exact h

theorem bind {f : α → Except QueryError β} (h : FailsAs sort x) (hf : ∀ a, FailsAs sort (f a)) :
    FailsAs sort (x >>= f) := by
  cases x with
  | error e => exact error (h e rfl)
  | ok a => exact hf a

theorem map {f : α → β} (h : FailsAs sort x) : FailsAs sort (x.map f) := by
  cases x with
  | error e => exact error (h e rfl)
  | ok a => exact ok (f a)

theorem mapM {f : γ → Except QueryError α} {cs : List γ} (h : ∀ c ∈ cs, FailsAs sort (f c)) :
    FailsAs sort (cs.mapM f) := by
  induction cs with
  | nil => exact ok []
  | cons c cs ih =>
    rw [List.forall_mem_cons] at h
    rw [List.mapM_cons]
    exact h.1.bind fun a => (ih h.2).bind fun as => ok (a :: as)

theorem within {name : String} (h : FailsAs sort x) (hsort : ∀ e, sort e → sort (e.forAttribute name)) :
    FailsAs sort (QueryError.within name x) := by
  cases x with
  | error e => exact error (hsort e (h e rfl))
  | ok a => exact ok a

theorem imp {other : QueryError → Prop} (h : FailsAs sort x) (hsort : ∀ e, sort e → other e) :
    FailsAs other x := fun e he => hsort e (h e he)

end FailsAs

/-- The error of what is malformed in itself. -/
def QueryError.IsInvalid (e : QueryError) : Prop := ∃ reason, e = .invalidArgument reason

def QueryError.IsConversion (e : QueryError) : Prop := ∃ name reason, e = .conversion name reason

theorem isConversion_forAttribute {e : QueryError} (name : String) (h : e.IsConversion) :
    (e.forAttribute name).IsConversion := by
  obtain ⟨old, reason, rfl⟩ := h
  cases old <;> exact ⟨_, _, rfl⟩

end StoreQuery
