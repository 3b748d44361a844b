import StoreQuery.Paging.EntityStream
import StoreQuery.Proofs.Step
/-!
One call of the pager as the fetches it makes. A source that keeps every response it gave counts them
and changes nothing else, so what a run fetched can be read off its last state.
-/
namespace StoreQuery

variable {σ : Type}

abbrev Response := Except QueryError (Page RowResult)

structure Recorded (σ : Type) where
  inner : σ
  responses : List Response := []

def Source.recorded (source : Source σ) : Source (Recorded σ) where
  profile := source.profile
  fetch q c w := fun r =>
    let o := (source.fetch q c w).run r.inner
    ⟨o.answer, ⟨o.state, r.responses ++ [o.answer]⟩, o.log⟩

/-- A source that gives the listed responses one after the other, and no more. -/
def Source.scripted (profile : Profile) : Source (List Response) where
  profile := profile
  fetch _ _ _ := Step.modify fun
    | [] => (.error (.transport ⟨"no more responses", none⟩), [])
    | response :: responses => (response, responses)

namespace Pager

def fetched (source : Source σ) (p : Pager) (s : σ) : Outcome σ Response :=
  (source.fetch p.query p.cursor p.window).run s

/-- How a call goes from a pager and a state through some responses to its turn and the state after
it. -/
inductive Call (source : Source σ) : Pager → σ → List Response → Turn → σ → Prop where
  | ended {p s} : p.state = .exhausted → Call source p s [] ⟨.ok none, p⟩ s
  | overdue {p s e} : p.state ≠ .exhausted → p.pending = some e →
      Call source p s [] ⟨.error e, p.exhaust⟩ s
  | refused {p s e} : p.state ≠ .exhausted → p.pending = none →
      (p.fetched source s).answer = .error e →
      Call source p s [.error e] ⟨.error e, p.exhaust⟩ (p.fetched source s).state
  | delivered {p s page} : p.state ≠ .exhausted → p.pending = none →
      (p.fetched source s).answer = .ok page → (p.accept page).rows ≠ [] →
      Call source p s [.ok page] ⟨.ok (some (p.accept page).rows), (p.accept page).pager⟩
        (p.fetched source s).state
  | further {p s page responses turn t} : p.state ≠ .exhausted → p.pending = none →
      (p.fetched source s).answer = .ok page → (p.accept page).rows = [] →
      Call source (p.accept page).pager (p.fetched source s).state responses turn t →
      Call source p s (.ok page :: responses) turn t

theorem state_logStart (p : Pager) (s : σ) : (p.logStart.run s).state = s := by
  simp only [logStart]
  split <;> rfl

theorem state_forM_emit (entries : List LogEntry) (s : σ) :
    ((entries.forM Step.emit : Step σ PUnit).run s).state = s := by
  induction entries generalizing s with
  | nil => rfl
  | cons e entries ih => exact ih s

theorem nextPage_ended (source : Source σ) {p : Pager} (h : p.state = .exhausted) :
    p.nextPage source = pure ⟨.ok none, p⟩ := by
  rw [nextPage, dif_pos h]

theorem nextPage_overdue (source : Source σ) {p : Pager} {e : QueryError}
    (h : p.state ≠ .exhausted) (hp : p.pending = some e) : p.nextPage source = p.fail e := by
  rw [nextPage, dif_neg h]
  split
  · rename_i e' he
    rw [hp] at he
    cases he
    rfl
  · rename_i he
    rw [hp] at he
    cases he

theorem nextPage_open (source : Source σ) {p : Pager} (h : p.state ≠ .exhausted)
    (hp : p.pending = none) :
    p.nextPage source = (do
      p.logStart
      match ← source.fetch p.query p.cursor p.window with
      | .error e => p.fail e
      | .ok page =>
        (p.accept page).log.forM Step.emit
        if (p.accept page).rows = [] then (p.accept page).pager.nextPage source
        else return ⟨.ok (some (p.accept page).rows), (p.accept page).pager⟩) := by
  rw [nextPage, dif_neg h]
  split
  · rename_i e he
    rw [hp] at he
    cases he
  · rfl

theorem nextPage_refused (source : Source σ) {p : Pager} {s : σ} {e : QueryError}
    (h : p.state ≠ .exhausted) (hp : p.pending = none)
    (hf : (p.fetched source s).answer = .error e) :
    ((p.nextPage source).run s).answer = ⟨.error e, p.exhaust⟩ ∧
      ((p.nextPage source).run s).state = (p.fetched source s).state := by
  simp only [fetched] at hf
  rw [nextPage_open source h hp]
  simp only [Step.answer_bind, Step.state_bind, state_logStart, hf]
  exact ⟨rfl, rfl⟩

theorem nextPage_delivered (source : Source σ) {p : Pager} {s : σ} {page : Page RowResult}
    (h : p.state ≠ .exhausted) (hp : p.pending = none)
    (hf : (p.fetched source s).answer = .ok page) (hr : (p.accept page).rows ≠ []) :
    ((p.nextPage source).run s).answer =
        ⟨.ok (some (p.accept page).rows), (p.accept page).pager⟩ ∧
      ((p.nextPage source).run s).state = (p.fetched source s).state := by
  simp only [fetched] at hf
  rw [nextPage_open source h hp]
  simp only [Step.answer_bind, Step.state_bind, state_logStart, hf, state_forM_emit, if_neg hr]
  exact ⟨rfl, rfl⟩

theorem nextPage_further (source : Source σ) {p : Pager} {s : σ} {page : Page RowResult}
    (h : p.state ≠ .exhausted) (hp : p.pending = none)
    (hf : (p.fetched source s).answer = .ok page) (hr : (p.accept page).rows = []) :
    let o := ((p.accept page).pager.nextPage source).run (p.fetched source s).state
    ((p.nextPage source).run s).answer = o.answer ∧
      ((p.nextPage source).run s).state = o.state := by
  simp only [fetched] at hf
  rw [nextPage_open source h hp]
  simp only [Step.answer_bind, Step.state_bind, state_logStart, hf, state_forM_emit, if_pos hr]
  exact ⟨rfl, rfl⟩

/-- Every call goes one of these ways; the budget of the pager bounds its fetches. -/
theorem exists_call (source : Source σ) (p : Pager) (s : σ) :
    ∃ responses, Call source p s responses ((p.nextPage source).run s).answer
      ((p.nextPage source).run s).state := by
  induction hb : p.budget using Nat.strongRecOn generalizing p s with
  | ind budget ih =>
    by_cases h : p.state = .exhausted
    · rw [nextPage_ended source h]
      exact ⟨[], .ended h⟩
    cases hp : p.pending with
    | some e =>
      rw [nextPage_overdue source h hp]
      exact ⟨[], .overdue h hp⟩
    | none =>
      cases hf : (p.fetched source s).answer with
      | error e =>
        obtain ⟨ha, hs⟩ := nextPage_refused source h hp hf
        rw [ha, hs]
        exact ⟨[.error e], .refused h hp hf⟩
      | ok page =>
        by_cases hr : (p.accept page).rows = []
        · obtain ⟨ha, hs⟩ := nextPage_further source h hp hf hr
          rw [ha, hs]
          have hlt : (p.accept page).pager.budget < budget := hb ▸ budget_accept_lt h hp hr
          obtain ⟨responses, hcall⟩ := ih _ hlt (p.accept page).pager (p.fetched source s).state rfl
          exact ⟨.ok page :: responses, .further h hp hf hr hcall⟩
        · obtain ⟨ha, hs⟩ := nextPage_delivered source h hp hf hr
          rw [ha, hs]
          exact ⟨[.ok page], .delivered h hp hf hr⟩

theorem fetched_recorded (source : Source σ) (p : Pager) (r : Recorded σ) :
    (p.fetched source.recorded r).answer = (p.fetched source r.inner).answer ∧
      (p.fetched source.recorded r).state =
        ⟨(p.fetched source r.inner).state, r.responses ++ [(p.fetched source r.inner).answer]⟩ :=
  ⟨rfl, rfl⟩

/-- A call determines what its pager does, with the responses kept or not. -/
theorem Call.run_nextPage {source : Source σ} {p : Pager} {s : σ} {responses : List Response}
    {turn : Turn} {t : σ} (h : Call source p s responses turn t) (old : List Response) :
    (((p.nextPage source).run s).answer = turn ∧ ((p.nextPage source).run s).state = t) ∧
      ((p.nextPage source.recorded).run ⟨s, old⟩).answer = turn ∧
      ((p.nextPage source.recorded).run ⟨s, old⟩).state = ⟨t, old ++ responses⟩ := by
  induction h generalizing old with
  | ended h =>
    rw [nextPage_ended source h, nextPage_ended source.recorded h]
    simp
  | overdue h hp =>
    rw [nextPage_overdue source h hp, nextPage_overdue source.recorded h hp]
    simp [fail]
  | @refused p s e h hp hf =>
    have hr := (fetched_recorded source p ⟨s, old⟩).1.trans hf
    obtain ⟨ha, hs⟩ := nextPage_refused source.recorded h hp hr
    refine ⟨nextPage_refused source h hp hf, ha, ?_⟩
    rw [hs, (fetched_recorded source p ⟨s, old⟩).2, hf]
  | @delivered p s page h hp hf hrows =>
    have hr := (fetched_recorded source p ⟨s, old⟩).1.trans hf
    obtain ⟨ha, hs⟩ := nextPage_delivered source.recorded h hp hr hrows
    refine ⟨nextPage_delivered source h hp hf hrows, ha, ?_⟩
    rw [hs, (fetched_recorded source p ⟨s, old⟩).2, hf]
  | @further p s page responses turn t h hp hf hrows _ ih =>
    have hr := (fetched_recorded source p ⟨s, old⟩).1.trans hf
    have hplain := nextPage_further source h hp hf hrows
    obtain ⟨ha, hs⟩ := nextPage_further source.recorded h hp hr hrows
    rw [(fetched_recorded source p ⟨s, old⟩).2, hf] at ha hs
    obtain ⟨⟨hturn, ht⟩, hturn', ht'⟩ := ih (old ++ [.ok page])
    refine ⟨⟨hplain.1.trans hturn, hplain.2.trans ht⟩, ha.trans hturn', ?_⟩
    rw [hs, ht', List.append_assoc, List.singleton_append]

theorem exists_call_recorded (source : Source σ) (p : Pager) (r : Recorded σ) :
    let o := (p.nextPage source.recorded).run r
    ∃ responses, Call source p r.inner responses o.answer o.state.inner ∧
      o.state.responses = r.responses ++ responses := by
  obtain ⟨responses, hcall⟩ := exists_call source p r.inner
  obtain ⟨_, hanswer, hstate⟩ := hcall.run_nextPage r.responses
  refine ⟨responses, ?_, ?_⟩
  · rw [hanswer, hstate]
    exact hcall
  · rw [hstate]

abbrev Answer := Except QueryError (Option (List Entity))

def call (source : Source σ) (p : Pager) : Step σ (Answer × Pager) := do
  let turn ← p.nextPage source
  pure (turn.answer, turn.pager)

def calls (source : Source σ) (n : Nat) (p : Pager) : Step σ (List Answer × Pager) :=
  Step.repeated (call source) n p

def runCalls (source : Source σ) (p : Pager) (s : σ) (n : Nat) :
    Outcome (Recorded σ) (List Answer × Pager) := (p.calls source.recorded n).run ⟨s, []⟩

def runCallAfter (source : Source σ) (p : Pager) (s : σ) (n : Nat) : Outcome (Recorded σ) Turn :=
  ((p.runCalls source s n).answer.2.nextPage source.recorded).run (p.runCalls source s n).state

/-- What every call keeps holds after any number of calls. -/
theorem calls_invariant (source : Source σ) {p : Pager} {s : σ}
    (Holds : List Answer → List Response → Pager → σ → Prop) (start : Holds [] [] p s)
    (step : ∀ answers old p s responses turn t, Holds answers old p s →
      Call source p s responses turn t →
      Holds (answers ++ [turn.answer]) (old ++ responses) turn.pager t) (n : Nat) :
    let o := p.runCalls source s n
    Holds o.answer.1 o.state.responses o.answer.2 o.state.inner := by
  induction n with
  | zero => exact start
  | succ n ih =>
    obtain ⟨responses, hcall, hstate⟩ := exists_call_recorded source
      (p.runCalls source s n).answer.2 (p.runCalls source s n).state
    have hnext := step _ _ _ _ _ _ _ ih hcall
    rw [← hstate] at hnext
    exact hnext

end Pager

end StoreQuery
