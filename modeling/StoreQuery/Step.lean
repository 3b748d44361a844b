import StoreQuery.Error
import StoreQuery.Log
/-!
Steps of a stateful component: from a state to an answer, the state after it, and the log entries that
were written on the way.
-/
namespace StoreQuery

structure Outcome (σ α : Type) where
  answer : α
  state : σ
  log : List LogEntry

def Step (σ α : Type) : Type := σ → Outcome σ α

namespace Step

variable {σ ω α β : Type}

def run (x : Step σ α) (s : σ) : Outcome σ α := x s

protected def pure (a : α) : Step σ α := fun s => ⟨a, s, []⟩

protected def bind (x : Step σ α) (f : α → Step σ β) : Step σ β := fun s =>
  let o := x s
  let p := f o.answer o.state
  ⟨p.answer, p.state, o.log ++ p.log⟩

instance : Monad (Step σ) where
  pure := Step.pure
  bind := Step.bind

def emit (e : LogEntry) : Step σ Unit := fun s => ⟨(), s, [e]⟩

def event (e : Event) (fields : List (String × String)) : Step σ Unit := emit (.of e fields)

def modify (f : σ → α × σ) : Step σ α := fun s =>
  let (a, t) := f s
  ⟨a, t, []⟩

instance : MonadStateOf σ (Step σ) where
  get := modify fun s => (s, s)
  set s := modify fun _ => ((), s)
  modifyGet := modify

/-- Runs a step on a part of a larger state. -/
def focus (get : ω → σ) (put : σ → ω → ω) (x : Step σ α) : Step ω α := fun w =>
  let o := x (get w)
  ⟨o.answer, put o.state w, o.log⟩

/-- Runs a step for each item, one after the other, and keeps every outcome. -/
def runEach (f : β → Step σ α) : σ → List β → List (Outcome σ α)
  | _, [] => []
  | s, b :: bs =>
    let o := (f b).run s
    o :: runEach f o.state bs

end Step

/-- A step that may fail with a query error. -/
abbrev Attempt (σ α : Type) : Type := ExceptT QueryError (Step σ) α

/-- An answer that a transport may refuse, as part of an attempt. -/
def Attempt.ofTransport {σ α : Type} (x : Step σ (Except TransportError α)) : Attempt σ α :=
  ExceptT.mk do return (← x).mapError QueryError.transport

end StoreQuery
