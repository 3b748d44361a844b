import StoreQuery.Proofs.Failures
import StoreQuery.Proofs.Step
import StoreQuery.Repository
/-!
Writes and the calls that they make. What an attempt is going to call is settled before it calls, so an
error of its own leaves everything as it was, and otherwise there is one call, whatever comes of it.
-/
namespace StoreQuery

variable {σ κ α β π : Type}

/-- An error that is not the report of a transport. -/
def QueryError.Own (e : QueryError) : Prop := ∀ t, e ≠ .transport t

namespace QueryError.Own

theorem invalidArgument (reason : String) : Own (.invalidArgument reason) := by
  rintro t ⟨⟩

theorem unsupportedQuery (backend reason : String) : Own (.unsupportedQuery backend reason) := by
  rintro t ⟨⟩

theorem conversion (name : Option String) (reason : String) : Own (.conversion name reason) := by
  rintro t ⟨⟩

theorem unsupportedType (backend name : String) (kind : Kind) :
    Own (.unsupportedType backend name kind) := by
  rintro t ⟨⟩

end QueryError.Own

structure Journal (σ κ : Type) where
  base : σ
  calls : List κ := []

namespace Journal

/-- A step that is a call, entered before it is answered. -/
def noted (call : κ) (x : Step σ α) : Step (Journal σ κ) α := fun j =>
  let o := x.run j.base
  ⟨o.answer, ⟨o.state, j.calls ++ [call]⟩, o.log⟩

def unnoted (x : Step σ α) : Step (Journal σ κ) α := .focus base (fun s j => { j with base := s }) x

end Journal

namespace Attempt

/-- An attempt that makes one call of those that are meant, or fails by itself, where none is meant and
nothing is done. What it gives is as wanted. -/
structure AllOrNothing (x : Attempt (Journal σ κ) α) (meant : κ → Prop) (good : α → Prop) : Prop where
  refused : ∀ j e, (x.run.run j).answer = .error e → e.Own →
    (x.run.run j).state = j ∧ ∀ call, ¬ meant call
  sent : ∀ j, (∀ e, (x.run.run j).answer = .error e → ¬ e.Own) →
    ∃ call, meant call ∧ (x.run.run j).state.calls = j.calls ++ [call]
  gives : ∀ j a, (x.run.run j).answer = .ok a → good a

namespace AllOrNothing

variable {x : Attempt (Journal σ κ) α} {meant : κ → Prop} {good : α → Prop} {call : κ}

/-- Every failure of a call is its transport's. -/
theorem of_call (call : κ) (y : Step σ (Except TransportError α)) :
    AllOrNothing (Attempt.ofTransport (Journal.noted call y)) (· = call) fun _ => True where
  refused j e he hown := by
    cases hy : (y.run j.base).answer with
    | error t =>
      have hanswer : ((Attempt.ofTransport (Journal.noted call y)).run.run j).answer =
          .error (.transport t) := congrArg (Except.mapError QueryError.transport) hy
      rw [hanswer] at he
      cases he
      exact (hown t rfl).elim
    | ok a =>
      have hanswer : ((Attempt.ofTransport (Journal.noted call y)).run.run j).answer = .ok a :=
        congrArg (Except.mapError QueryError.transport) hy
      rw [hanswer] at he
      cases he
  sent j _ := ⟨call, rfl, rfl⟩
  gives _ _ _ := trivial

/-- What an attempt gives in the end is settled before. -/
theorem giving (h : AllOrNothing x meant fun _ => True) (b : β) :
    AllOrNothing (do let _ ← x; return b) meant (· = b) := by
  have hfails : ∀ (j : Journal σ κ) e,
      (((do let _ ← x; return b) : Attempt (Journal σ κ) β).run.run j).answer = .error e ↔
        (x.run.run j).answer = .error e := by
    intro j e
    rw [(run_giving x b j).1]
    cases (x.run.run j).answer <;> simp [Except.map]
  constructor
  · intro j e he
    rw [(run_giving x b j).2]
    exact h.refused j e ((hfails j e).mp he)
  · intro j hown
    rw [(run_giving x b j).2]
    exact h.sent j fun e he => hown e ((hfails j e).mpr he)
  · intro j a ha
    rw [(run_giving x b j).1, map_eq_ok] at ha
    obtain ⟨_, _, hb⟩ := ha
    exact hb.symm

theorem refuse {e : QueryError} (h : e.Own) :
    AllOrNothing (throw e : Attempt (Journal σ κ) α) (fun _ => False) good where
  refused _ _ _ _ := ⟨rfl, fun _ => id⟩
  sent _ hown := (hown e rfl h).elim
  gives := nofun

theorem congr {others : κ → Prop} (h : AllOrNothing x meant good)
    (hmeant : ∀ call, meant call ↔ others call) : AllOrNothing x others good := by
  obtain rfl : meant = others := funext fun call => propext (hmeant call)
  exact h

/-- Settling something first, which fails by itself, if it fails. -/
theorem planned {plan : Except QueryError π} {go : π → Attempt (Journal σ κ) α}
    {meantFor : π → κ → Prop} (hplan : FailsAs QueryError.Own plan)
    (hgo : ∀ p, plan = .ok p → AllOrNothing (go p) (meantFor p) good) :
    AllOrNothing ((liftM plan : Attempt (Journal σ κ) π) >>= go)
      (fun call => ∃ p, plan = .ok p ∧ meantFor p call) good := by
  cases plan with
  | error e =>
    refine ⟨fun j e _ _ => ⟨rfl, ?_⟩, fun j hown => (hown e rfl (hplan e rfl)).elim, nofun⟩
    rintro call ⟨p, hp, -⟩
    cases hp
  | ok p => exact (hgo p rfl).congr fun call => by simp

end AllOrNothing

/-- An attempt that leaves everything as it was when it fails. -/
def KeepsOnError (x : Attempt σ α) : Prop :=
  ∀ s e, (x.run.run s).answer = .error e → (x.run.run s).state = s

theorem KeepsOnError.planned {plan : Except QueryError π} {go : π → Attempt σ α}
    (hgo : ∀ p, KeepsOnError (go p)) : KeepsOnError ((liftM plan : Attempt σ π) >>= go) := by
  cases plan with
  | error e => exact fun _ _ _ => rfl
  | ok p => exact hgo p

end Attempt

end StoreQuery
