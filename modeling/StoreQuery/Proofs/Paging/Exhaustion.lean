import StoreQuery.Proofs.Paging.Call
import StoreQuery.Proofs.Paging.Delivery
/-!
A call of the pager comes back after few fetches, whatever the source answers, and the end is final: a
pager or a stream that reached it fetches nothing more.
-/
namespace StoreQuery

variable {σ : Type} {source : Source σ}

namespace Pager

variable {p : Pager} {page : Page RowResult}

/-- Every fetch of one call but the last uses up a row to be skipped here. -/
def fetchBound (p : Pager) : Nat :=
  if p.profile.skipsClientSide then p.query.skip - p.skipped + 1 else 1

theorem fetchBound_pos (p : Pager) : 1 ≤ p.fetchBound := by
  simp only [fetchBound]
  split <;> omega

/-- A page that delivers nothing and does not end the query holds rows, and all of them are skipped. -/
theorem skipped_of_idle (hf : failure? page.rows = none) (he : p.endsWith page = false)
    (hfills : p.fills page = false) (hr : (p.accept page).rows = []) :
    p.profile.skipsClientSide = true ∧ p.skipped < (p.accept page).pager.skipped ∧
      (p.accept page).pager.skipped ≤ p.query.skip := by
  have hpos := length_pos_of_not_endsWith he
  have hlen : (p.arriving page).length = page.rows.length := by
    simp only [arriving]
    rw [length_arrange, length_converted hf]
  rw [rows_accept, hfills] at hr
  have hall := List.drop_eq_nil_iff.mp hr
  rw [skipped_accept]
  simp only [toDrop] at hall ⊢
  by_cases hc : p.profile.skipsClientSide = true
  · rw [if_pos hc] at hall ⊢
    refine ⟨hc, ?_⟩
    omega
  · rw [if_neg hc] at hall
    omega

theorem fetchBound_of_idle (hf : failure? page.rows = none) (he : p.endsWith page = false)
    (hfills : p.fills page = false) (hr : (p.accept page).rows = []) :
    (p.accept page).pager.fetchBound < p.fetchBound := by
  obtain ⟨hc, hlt, hle⟩ := skipped_of_idle hf he hfills hr
  obtain ⟨hprofile, hquery, _⟩ := accept_keeps p page
  simp only [fetchBound]
  rw [hprofile, hquery, if_pos hc, if_pos hc]
  omega

theorem Call.no_fetch {s t : σ} {responses : List Response} {turn : Turn}
    (h : Call source p s responses turn t) (hp : p.state = .exhausted ∨ p.pending ≠ none) :
    responses = [] := by
  cases h with
  | ended => rfl
  | overdue => rfl
  | refused hs hpend => exact (hp.elim hs (fun h => h hpend)).elim
  | delivered hs hpend => exact (hp.elim hs (fun h => h hpend)).elim
  | further hs hpend => exact (hp.elim hs (fun h => h hpend)).elim

theorem Call.keeps {s t : σ} {responses : List Response} {turn : Turn}
    (h : Call source p s responses turn t) :
    turn.pager.profile = p.profile ∧ turn.pager.query = p.query := by
  induction h with
  | ended => exact ⟨rfl, rfl⟩
  | overdue => exact ⟨rfl, rfl⟩
  | refused => exact ⟨rfl, rfl⟩
  | @delivered p _ page =>
    obtain ⟨hprofile, hquery, _⟩ := accept_keeps p page
    exact ⟨hprofile, hquery⟩
  | @further p _ page _ _ _ _ _ _ _ _ ih =>
    obtain ⟨hprofile, hquery, _⟩ := accept_keeps p page
    exact ⟨ih.1.trans hprofile, ih.2.trans hquery⟩

theorem Call.length_le {s t : σ} {responses : List Response} {turn : Turn}
    (h : Call source p s responses turn t) : responses.length ≤ p.fetchBound := by
  induction h with
  | ended => exact Nat.zero_le _
  | overdue => exact Nat.zero_le _
  | refused => exact fetchBound_pos _
  | delivered => exact fetchBound_pos _
  | @further p s page responses turn t hs hp hf hr hcall ih =>
    rw [List.length_cons]
    cases accept_leads p page with
    | filled _ hstate =>
      rw [hcall.no_fetch (.inl hstate)]
      exact fetchBound_pos p
    | failed e _ _ _ hpend =>
      rw [hcall.no_fetch (.inr (by rw [hpend]; exact Option.some_ne_none e))]
      exact fetchBound_pos p
    | ended _ _ _ hstate =>
      rw [hcall.no_fetch (.inl hstate)]
      exact fetchBound_pos p
    | more hfills hfail he =>
      have := fetchBound_of_idle hfail he hfills hr
      omega

def Settled (p : Pager) : Prop := p.state = .exhausted → p.cursor = ⟨none, true⟩

theorem settled_exhaust (p : Pager) : p.exhaust.Settled := fun _ => rfl

theorem settled_accept (p : Pager) (page : Page RowResult) : (p.accept page).pager.Settled := by
  intro h
  cases accept_leads p page with
  | filled _ _ _ hcursor => exact hcursor
  | failed _ _ _ hstate =>
    rw [hstate] at h
    cases h
  | ended _ _ _ _ _ hcursor => exact hcursor
  | more _ _ _ hstate =>
    rw [hstate] at h
    cases h

theorem state_accept (p : Pager) (page : Page RowResult) :
    (p.accept page).pager.state = .hasMore ∨ (p.accept page).pager.state = .exhausted := by
  cases accept_leads p page with
  | filled _ hstate => exact .inr hstate
  | failed _ _ _ hstate => exact .inl hstate
  | ended _ _ _ hstate => exact .inr hstate
  | more _ _ _ hstate => exact .inl hstate

/-- A call comes back with more to come or at the end; only the former may bring entities and
nothing but them. -/
theorem Call.settles {s t : σ} {responses : List Response} {turn : Turn}
    (h : Call source p s responses turn t) (hp : p.Settled) :
    turn.pager.Settled ∧ (turn.pager.state = .hasMore ∨ turn.pager.state = .exhausted) ∧
      ((turn.answer = .ok none ∨ ∃ e, turn.answer = .error e) → turn.pager.state = .exhausted) := by
  induction h with
  | ended h => exact ⟨hp, .inr h, fun _ => h⟩
  | overdue => exact ⟨settled_exhaust _, .inr rfl, fun _ => rfl⟩
  | refused => exact ⟨settled_exhaust _, .inr rfl, fun _ => rfl⟩
  | delivered =>
    refine ⟨settled_accept _ _, state_accept _ _, ?_⟩
    rintro (h | ⟨e, h⟩) <;> cases h
  | further _ _ _ _ _ ih => exact ih (settled_accept _ _)

/-- The call after `n` others comes back, after few fetches; when it brings no entities, it was the
last to fetch. -/
structure EndsForGood (source : Source σ) (p : Pager) (s : σ) (n : Nat) : Prop where
  fetches : ∃ made, (p.runCallAfter source s n).state.responses =
      (p.runCalls source s n).state.responses ++ made ∧
    made.length ≤ if p.profile.windowing = .native then 1
      else (p.query.skip - (p.runCalls source s n).answer.2.skipped) + 1
  state : (p.runCallAfter source s n).answer.pager.state = .hasMore ∨
    (p.runCallAfter source s n).answer.pager.state = .exhausted
  ended : ((p.runCallAfter source s n).answer.answer = .ok none ∨
      ∃ e, (p.runCallAfter source s n).answer.answer = .error e) →
    (p.runCallAfter source s n).answer.pager.state = .exhausted ∧
      (p.runCallAfter source s n).answer.pager.cursor.exhausted = true ∧
      (p.runCallAfter source s n).answer.pager.cursor.token = none ∧
      ∀ m,
        let later := ((p.runCallAfter source s n).answer.pager.calls source.recorded m).run
          (p.runCallAfter source s n).state
        later.answer.1 = List.replicate m (.ok none) ∧
          later.state = (p.runCallAfter source s n).state

theorem calls_settled (source : Source σ) {p : Pager} (hp : p.Settled) (s : σ) (n : Nat) :
    (p.runCalls source s n).answer.2.Settled ∧
      (p.runCalls source s n).answer.2.profile = p.profile ∧
      (p.runCalls source s n).answer.2.query = p.query := by
  refine calls_invariant source
    (fun _ _ q _ => q.Settled ∧ q.profile = p.profile ∧ q.query = p.query) ⟨hp, rfl, rfl⟩ ?_ n
  rintro _ _ q s responses turn t ⟨hq, hprofile, hquery⟩ hcall
  obtain ⟨hkept, hasked⟩ := hcall.keeps
  exact ⟨(hcall.settles hq).1, hkept.trans hprofile, hasked.trans hquery⟩

theorem call_of_exhausted (source : Source σ) {p : Pager} (h : p.state = .exhausted) :
    p.call source = pure (.ok none, p) := by
  simp only [call]
  rw [nextPage_ended source h]
  rfl

theorem endsForGood_of_settled {p : Pager} (hp : p.Settled) (s : σ) (n : Nat) :
    p.EndsForGood source s n := by
  obtain ⟨hsettled, hprofile, hquery⟩ := calls_settled source hp s n
  obtain ⟨made, hcall, hmade⟩ := exists_call_recorded source
    (p.runCalls source s n).answer.2 (p.runCalls source s n).state
  obtain ⟨hafter, hstate, hend⟩ := hcall.settles hsettled
  constructor
  · refine ⟨made, hmade, ?_⟩
    have hle := hcall.length_le
    simp only [fetchBound, Profile.skipsClientSide] at hle
    rw [hprofile, hquery] at hle
    simp only [bne_iff_ne, ne_eq, ite_not] at hle
    exact hle
  · exact hstate
  · intro h
    have hexhausted := hend h
    have hcursor := hafter hexhausted
    refine ⟨hexhausted, congrArg Cursor.exhausted hcursor, congrArg Cursor.token hcursor, ?_⟩
    intro m
    have hfixed := call_of_exhausted source.recorded hexhausted
    obtain ⟨hanswers, hlater⟩ := Step.repeated_of_fixed
      (congrArg (fun x => (x.run (p.runCallAfter source s n).state).answer) hfixed)
      (congrArg (fun x => (x.run (p.runCallAfter source s n).state).state) hfixed) m
    exact ⟨congrArg Prod.fst hanswers, hlater⟩

def Over (p : Pager) : Prop := p.state = .exhausted ∨ p.pending ≠ none

theorem over_accept (hends : p.endsWith page = true) : (p.accept page).pager.Over := by
  cases accept_leads p page with
  | filled _ hstate => exact .inl hstate
  | failed e _ _ _ hpend => exact .inr (by rw [hpend]; exact Option.some_ne_none e)
  | ended _ _ _ hstate => exact .inl hstate
  | more _ _ hmore =>
    rw [hends] at hmore
    cases hmore

theorem Call.of_over {s t : σ} {responses : List Response} {turn : Turn}
    (h : Call source p s responses turn t) (hp : p.Over) : t = s ∧ turn.pager.Over := by
  cases h with
  | ended hs => exact ⟨rfl, .inl hs⟩
  | overdue => exact ⟨rfl, .inl rfl⟩
  | refused hs hpend => exact (hp.elim hs (fun h => h hpend)).elim
  | delivered hs hpend => exact (hp.elim hs (fun h => h hpend)).elim
  | further hs hpend => exact (hp.elim hs (fun h => h hpend)).elim

/-- Where every page is the last, a call fetches once, and no call after it does. -/
theorem Call.once {s t : σ} {responses : List Response} {turn : Turn}
    (h : Call source p s responses turn t) (hopen : ¬ p.Over)
    (hlast : ∀ page, (p.fetched source s).answer = .ok page → p.endsWith page = true) :
    t = (p.fetched source s).state ∧ turn.pager.Over := by
  cases h with
  | ended hs => exact (hopen (.inl hs)).elim
  | overdue _ hpend =>
    apply (hopen (.inr _)).elim
    rw [hpend]
    exact Option.some_ne_none _
  | refused => exact ⟨rfl, .inl rfl⟩
  | delivered _ _ hf => exact ⟨rfl, over_accept (hlast _ hf)⟩
  | further _ _ hf _ hcall => exact hcall.of_over (over_accept (hlast _ hf))

end Pager

namespace EntityStream

def polls (source : Source σ) (n : Nat) (t : EntityStream) :
    Step σ (List (Option RowResult) × EntityStream) :=
  Step.repeated (fun t => t.next source) n t

theorem next_of_drained (source : Source σ) {t : EntityStream} (hb : t.buffer = [])
    (hd : t.done = true) : t.next source = pure (none, t) := by
  simp only [next]
  rw [hb, hd]
  rfl

def Over (t : EntityStream) : Prop := t.done = true ∨ t.pager.Over

theorem next_pager (source : Source σ) {t : EntityStream} (hb : t.buffer = [])
    (hd : t.done = false) (s : σ) :
    ((t.next source).run s).answer.2.pager = ((t.pager.nextPage source).run s).answer.pager ∧
      ((t.next source).run s).state = ((t.pager.nextPage source).run s).state := by
  simp only [next, hb, hd, Bool.false_eq_true, if_false, Step.answer_bind, Step.state_bind]
  generalize (t.pager.nextPage source).run s = o
  obtain ⟨⟨answer, pager⟩, state, log⟩ := o
  cases answer with
  | error e => exact ⟨rfl, rfl⟩
  | ok rows =>
    cases rows with
    | none => exact ⟨rfl, rfl⟩
    | some rows => cases rows <;> exact ⟨rfl, rfl⟩

theorem next_of_over (source : Source σ) {t : EntityStream} (h : t.Over) (s : σ) :
    ((t.next source).run s).state = s ∧ ((t.next source).run s).answer.2.Over := by
  cases hb : t.buffer with
  | cons e rest =>
    simp only [next, hb]
    exact ⟨rfl, h⟩
  | nil =>
    cases hd : t.done with
    | true =>
      rw [next_of_drained source hb hd]
      exact ⟨rfl, h⟩
    | false =>
      have hover : t.pager.Over := h.resolve_left (by rw [hd]; exact Bool.false_ne_true)
      obtain ⟨_, hcall⟩ := Pager.exists_call source t.pager s
      obtain ⟨hstate, hafter⟩ := hcall.of_over hover
      obtain ⟨hpager, hsame⟩ := next_pager source hb hd s
      refine ⟨hsame.trans hstate, .inr ?_⟩
      rw [hpager]
      exact hafter

/-- Where every page is the last, the first poll fetches once, and no poll after it does. -/
theorem polls_once {p : Pager} (hopen : ¬ p.Over) (s : σ)
    (hlast : ∀ page, (p.fetched source s).answer = .ok page → p.endsWith page = true) (n : Nat) :
    let o := ((EntityStream.mk p [] false).polls source (n + 1)).run s
    o.state = (p.fetched source s).state ∧ o.answer.2.Over := by
  induction n with
  | zero =>
    obtain ⟨_, hcall⟩ := Pager.exists_call source p s
    obtain ⟨hstate, hafter⟩ := hcall.once hopen hlast
    obtain ⟨hpager, hsame⟩ := next_pager source (t := ⟨p, [], false⟩) rfl rfl s
    refine ⟨hsame.trans hstate, .inr ?_⟩
    show ((EntityStream.next source ⟨p, [], false⟩).run s).answer.2.pager.Over
    rw [hpager]
    exact hafter
  | succ n ih =>
    obtain ⟨hstate, hover⟩ := ih
    obtain ⟨hsame, hafter⟩ := next_of_over source hover
      (((EntityStream.mk p [] false).polls source (n + 1)).run s).state
    exact ⟨hsame.trans hstate, hafter⟩

theorem drained_of_next (source : Source σ) (t : EntityStream) (s : σ)
    (h : ((t.next source).run s).answer.1 = none ∨
      ∃ e, ((t.next source).run s).answer.1 = some (.error e)) :
    ((t.next source).run s).answer.2.buffer = [] ∧
      ((t.next source).run s).answer.2.done = true := by
  simp only [next] at h ⊢
  split at h
  · rcases h with h | ⟨e, h⟩ <;> cases h
  · rename_i hb
    by_cases hd : t.done = true
    · rw [if_pos hd]
      exact ⟨hb, hd⟩
    · rw [if_neg hd] at h ⊢
      simp only [Step.answer_bind] at h ⊢
      generalize ((t.pager.nextPage source).run s).answer = turn at h ⊢
      obtain ⟨answer, pager⟩ := turn
      cases answer with
      | error e => exact ⟨rfl, rfl⟩
      | ok rows =>
        cases rows with
        | none => exact ⟨rfl, rfl⟩
        | some rows =>
          cases rows with
          | nil => exact ⟨rfl, rfl⟩
          | cons row rows => rcases h with h | ⟨e, h⟩ <;> cases h

def runPolls (source : Source σ) (t : EntityStream) (s : σ) (n : Nat) :
    Outcome (Recorded σ) (List (Option RowResult) × EntityStream) :=
  (t.polls source.recorded n).run ⟨s, []⟩

def runPollAfter (source : Source σ) (t : EntityStream) (s : σ) (n : Nat) :
    Outcome (Recorded σ) (Option RowResult × EntityStream) :=
  let o := t.runPolls source s n
  (o.answer.2.next source.recorded).run o.state

/-- A poll that brings no entity was the last to bring anything or to fetch. -/
def EndsForGood (source : Source σ) (t : EntityStream) (s : σ) (n : Nat) : Prop :=
  ((t.runPollAfter source s n).answer.1 = none ∨
      ∃ e, (t.runPollAfter source s n).answer.1 = some (.error e)) →
    ∀ m,
      let later := ((t.runPollAfter source s n).answer.2.polls source.recorded m).run
        (t.runPollAfter source s n).state
      later.answer.1 = List.replicate m none ∧ later.state = (t.runPollAfter source s n).state

theorem polls_of_drained (source : Source σ) {t : EntityStream} (hb : t.buffer = [])
    (hd : t.done = true) (s : σ) (n : Nat) :
    ((t.polls source n).run s).answer = (List.replicate n none, t) ∧
      ((t.polls source n).run s).state = s := by
  have hfixed := next_of_drained source hb hd
  exact Step.repeated_of_fixed (congrArg (fun x => (x.run s).answer) hfixed)
    (congrArg (fun x => (x.run s).state) hfixed) n

theorem endsForGood (source : Source σ) (t : EntityStream) (s : σ) (n : Nat) :
    t.EndsForGood source s n := by
  intro h m
  obtain ⟨hb, hd⟩ := drained_of_next source.recorded (t.runPolls source s n).answer.2
    (t.runPolls source s n).state h
  obtain ⟨hanswers, hstate⟩ := polls_of_drained source.recorded hb hd
    (t.runPollAfter source s n).state m
  exact ⟨congrArg Prod.fst hanswers, hstate⟩

end EntityStream

/-- Whatever a source answers, a call fetches at most once where the store skips, and otherwise at
most once more than rows are left to be skipped. A call without entities, and a poll without an
entity, is followed by nothing but ends, and by no fetch. -/
theorem exhaustion_is_final {profile : Profile} {q : Query} {pageSize : Nat} {p : Pager}
    (h : Pager.new profile q pageSize = .ok p) (source : Source σ) (s : σ) (n : Nat) :
    p.profile = profile ∧ p.query = q ∧ p.EndsForGood source s n ∧
      EntityStream.EndsForGood source { pager := p } s n := by
  have hp := Pager.eq_of_new h
  have hsettled : p.Settled := by
    rw [hp]
    intro hs
    cases hs
  refine ⟨by rw [hp], by rw [hp], Pager.endsForGood_of_settled hsettled s n, ?_⟩
  exact EntityStream.endsForGood source { pager := p } s n

/-- A page with nothing but a row to be skipped, and then no more responses. -/
theorem exhaustion_is_final_past_skip :
    let profile : Profile := ⟨"script", .stateless, .clientSide, .multiKey⟩
    let q : Query := ⟨"items", none, [], 3, 0⟩
    let page : Page RowResult := .partway [.ok ⟨"a", []⟩] none
    ∃ p, Pager.new profile q 1 = .ok p ∧ p.profile = profile ∧ p.query = q ∧
      p.EndsForGood (Source.scripted profile) [.ok page] 2 ∧
      EntityStream.EndsForGood (Source.scripted profile) { pager := p } [.ok page] 2 := by
  intro profile q page
  have hnew : Pager.new profile q 1 = .ok { profile := profile, query := q, pageSize := 1 } := rfl
  exact ⟨_, hnew, exhaustion_is_final hnew (Source.scripted profile) [.ok page] 2⟩

end StoreQuery
