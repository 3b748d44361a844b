import StoreQuery.Error
import Mathlib.Data.List.Forall2
/-!
Verdicts: results that are the error of a fault, if there is one, and values as wanted otherwise. One
after the other, the first fault counts.
-/
namespace StoreQuery

variable {ε α β : Type} {fault other : Option ε} {result : Except ε α}
  {good : α → Prop} {fine : β → Prop} {a : α} {e : ε}

structure Verdict (fault : Option ε) (result : Except ε α) (good : α → Prop) : Prop where
  error : ∀ e, fault = some e → result = .error e
  ok : fault = none → ∃ a, result = .ok a ∧ good a

def faultIn : Except ε α → Option ε
  | .error e => some e
  | .ok _ => none

theorem faultIn_eq_some : faultIn result = some e ↔ result = .error e := by
  cases result <;> simp [faultIn]

theorem faultIn_map (f : α → β) (result : Except ε α) :
    faultIn (result.map f) = faultIn result := by
  cases result <;> rfl

theorem faultIn_bind {f : α → Except ε β} (hf : ∀ a, faultIn (f a) = other) :
    faultIn (result >>= f) = (faultIn result).or other := by
  cases result with
  | error e => rfl
  | ok a => exact hf a

theorem faultIn_both {γ : Type} (first : Except ε α) (second : Except ε β)
    (f : α → β → γ) :
    faultIn (first >>= fun a => second >>= fun b => pure (f a b)) =
      (faultIn first).or (faultIn second) := by
  apply faultIn_bind
  intro a
  exact faultIn_map (f a) second

theorem faultIn_within (name : String) (result : Except QueryError α) :
    faultIn (QueryError.within name result) = (faultIn result).map (QueryError.forAttribute name) := by
  cases result <;> rfl

theorem QueryError.within_eq_ok {name : String} {result : Except QueryError α} :
    QueryError.within name result = .ok a ↔ result = .ok a := by
  cases result <;> simp [QueryError.within, Except.mapError]

namespace Verdict

theorem accept (h : good a) : Verdict (none : Option ε) (.ok a) good where
  error := nofun
  ok _ := ⟨a, rfl, h⟩

theorem refuse (e : ε) : Verdict (some e) (.error e) good where
  error _ he := congrArg Except.error (Option.some.inj he)
  ok := nofun

theorem of_ok (h : ∀ a, result = .ok a → good a) : Verdict (faultIn result) result good := by
  cases result with
  | error e => exact refuse e
  | ok a => exact accept (h a rfl)

theorem bind {f : α → Except ε β} (h : Verdict fault result good)
    (hf : ∀ a, good a → Verdict other (f a) fine) : Verdict (fault.or other) (result >>= f) fine := by
  cases hfault : fault with
  | some e =>
    rw [h.error e hfault]
    exact refuse e
  | none =>
    obtain ⟨a, ha, hgood⟩ := h.ok hfault
    rw [ha]
    exact hf a hgood

theorem map {f : α → β} (h : Verdict fault result good) (hf : ∀ a, good a → fine (f a)) :
    Verdict fault (result.map f) fine := by
  cases hfault : fault with
  | some e =>
    rw [h.error e hfault]
    exact refuse e
  | none =>
    obtain ⟨a, ha, hgood⟩ := h.ok hfault
    rw [ha]
    exact accept (hf a hgood)

theorem findSome?_cons_or {γ δ : Type} (f : γ → Option δ) (c : γ) (cs : List γ) :
    (c :: cs).findSome? f = (f c).or (cs.findSome? f) := by
  rw [List.findSome?_cons]
  cases f c <;> rfl

/-- One value for each, where none of them is at fault. -/
theorem mapM {γ : Type} {faultOf? : γ → Option ε} {f : γ → Except ε α}
    {goodFor : γ → α → Prop} {cs : List γ} (h : ∀ c ∈ cs, Verdict (faultOf? c) (f c) (goodFor c)) :
    Verdict (cs.findSome? faultOf?) (cs.mapM f) (List.Forall₂ goodFor cs) := by
  induction cs with
  | nil => exact accept .nil
  | cons c cs ih =>
    rw [findSome?_cons_or, List.mapM_cons]
    apply (h c List.mem_cons_self).bind
    intro a ha
    apply (ih fun d hd => h d (List.mem_cons_of_mem c hd)).map
    intro as has
    exact .cons ha has

theorem good_of_ok (h : Verdict fault result good) (ha : result = .ok a) : good a := by
  cases hfault : fault with
  | some e =>
    rw [h.error e hfault] at ha
    cases ha
  | none =>
    obtain ⟨b, hb, hgood⟩ := h.ok hfault
    rw [ha] at hb
    cases hb
    exact hgood

theorem ok_iff (h : Verdict fault result good) : (∃ a, result = .ok a) ↔ fault = none := by
  constructor
  · rintro ⟨a, ha⟩
    cases hfault : fault with
    | some e =>
      rw [h.error e hfault] at ha
      cases ha
    | none => rfl
  · intro hfault
    obtain ⟨a, ha, _⟩ := h.ok hfault
    exact ⟨a, ha⟩

theorem error_iff (h : Verdict fault result good) : result = .error e ↔ fault = some e := by
  constructor
  · intro he
    cases hfault : fault with
    | some d =>
      rw [h.error d hfault] at he
      cases he
      rfl
    | none =>
      obtain ⟨a, ha, _⟩ := h.ok hfault
      rw [ha] at he
      cases he
  · exact h.error e

end Verdict

end StoreQuery
