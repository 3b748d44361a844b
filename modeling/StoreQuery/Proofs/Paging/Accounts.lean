import StoreQuery.Proofs.Paging.Call
import StoreQuery.Proofs.Paging.Delivery
/-!
The pager keeps its accounts over any source. What it delivered and what it reported follow from the
pages that it fetched, however long they are and whatever tokens and flags they carry.
-/
namespace StoreQuery.Pager

variable {σ : Type} {source : Source σ} {start p : Pager} {s t : σ} {answers : List Answer}
  {old responses : List Response} {turn : Turn}

def entitiesOf : Answer → List Entity
  | .ok (some es) => es
  | _ => []

def delivered (answers : List Answer) : List Entity := answers.flatMap entitiesOf

def reported (answers : List Answer) : List QueryError := answers.filterMap errorOf?

def pagesOf (responses : List Response) : List (Page RowResult) :=
  responses.filterMap Except.toOption

def rowsOf (responses : List Response) : List RowResult := (pagesOf responses).flatMap Page.rows

def refusals (responses : List Response) : List QueryError := responses.filterMap errorOf?

def arrivals (p : Pager) (responses : List Response) : List Entity :=
  (pagesOf responses).flatMap p.arriving

def accepting (p : Pager) (pages : List (Page RowResult)) : Pager :=
  pages.foldl (fun p page => (p.accept page).pager) p

def owed (p : Pager) (responses : List Response) : Option QueryError :=
  if p.query.limit = 0 ∨ ((p.arrivals responses).drop p.engineSkip).length < p.query.limit then
    failure? (rowsOf responses)
  else none

/-- Where a pager stands: it may ask on, it has an error to report, or it is at its end. -/
inductive Standing (start : Pager) (answers : List Answer) (responses : List Response) (p : Pager) :
    Prop where
  | asking : p.state ≠ .exhausted → p.pending = none → failure? (rowsOf responses) = none →
      start.Room (start.arrivals responses) → reported answers = [] → refusals responses = [] →
      Standing start answers responses p
  | owing (e) : p.state ≠ .exhausted → p.pending = some e → start.owed responses = some e →
      reported answers = [] → refusals responses = [] → Standing start answers responses p
  | closed : p.state = .exhausted → p.pending = none →
      reported answers = refusals responses ++ (start.owed responses).toList →
      Standing start answers responses p

/-- The invariant of a run of calls: the counters, the state and the pending error follow from the
responses so far. -/
structure Accounted (start : Pager) (answers : List Answer) (responses : List Response) (p : Pager) :
    Prop where
  profile : p.profile = start.profile
  query : p.query = start.query
  tracks : p.Tracks (start.arrivals responses)
  delivered : delivered answers = start.due (start.arrivals responses)
  filled : ∀ es, .ok (some es) ∈ answers → es ≠ []
  replayed : p = start.accepting (pagesOf responses) ∨
    p = (start.accepting (pagesOf responses)).exhaust
  bounded : ∀ k, (start.accepting ((pagesOf responses).take k)).skipped ≤ start.query.skip ∧
    (start.query.limit = 0 ∨
      (start.accepting ((pagesOf responses).take k)).emitted ≤ start.query.limit)
  clean : ∀ page ∈ (pagesOf responses).dropLast, failure? page.rows = none
  standing : Standing start answers responses p

theorem pagesOf_append (old responses : List Response) :
    pagesOf (old ++ responses) = pagesOf old ++ pagesOf responses := List.filterMap_append

theorem rowsOf_page (old : List Response) (page : Page RowResult) :
    rowsOf (old ++ [.ok page]) = rowsOf old ++ page.rows := by
  simp only [rowsOf]
  rw [pagesOf_append, List.flatMap_append]
  simp [pagesOf, Except.toOption]

theorem arrivals_page (p : Pager) (old : List Response) (page : Page RowResult) :
    p.arrivals (old ++ [.ok page]) = p.arrivals old ++ p.arriving page := by
  simp only [arrivals]
  rw [pagesOf_append, List.flatMap_append]
  simp [pagesOf, Except.toOption]

theorem accepting_page (p : Pager) (pages : List (Page RowResult)) (page : Page RowResult) :
    p.accepting (pages ++ [page]) = ((p.accepting pages).accept page).pager := by
  simp [accepting]

theorem delivered_append (answers more : List Answer) :
    delivered (answers ++ more) = delivered answers ++ delivered more := List.flatMap_append

theorem reported_append (answers more : List Answer) :
    reported (answers ++ more) = reported answers ++ reported more := List.filterMap_append

theorem refusals_append (old responses : List Response) :
    refusals (old ++ responses) = refusals old ++ refusals responses := List.filterMap_append

theorem Accounted.same_due (h : Accounted start answers old p) (arrived : List Entity) :
    p.due arrived = start.due arrived := by
  simp only [due, engineSkip, h.profile, h.query]

theorem Accounted.same_room (h : Accounted start answers old p) (arrived : List Entity) :
    p.Room arrived ↔ start.Room arrived := by
  simp only [Room, engineSkip, h.profile, h.query]

theorem Accounted.same_arriving (h : Accounted start answers old p) (page : Page RowResult) :
    p.arriving page = start.arriving page := by
  simp only [arriving, arrange, h.profile, h.query]

theorem owed_of_room {responses : List Response} (h : start.Room (start.arrivals responses)) :
    start.owed responses = failure? (rowsOf responses) := if_pos h

theorem owed_of_not_room {responses : List Response}
    (h : ¬ start.Room (start.arrivals responses)) : start.owed responses = none := if_neg h

theorem clean_of_rowsOf (h : failure? (rowsOf responses) = none) :
    ∀ page ∈ pagesOf responses, failure? page.rows = none := by
  intro page hpage
  apply List.findSome?_eq_none_iff.mpr
  intro row hrow
  exact List.findSome?_eq_none_iff.mp h row (List.mem_flatMap.mpr ⟨page, hpage, hrow⟩)

theorem Standing.asks (h : Standing start answers old p) (hs : p.state ≠ .exhausted)
    (hp : p.pending = none) :
    failure? (rowsOf old) = none ∧ start.Room (start.arrivals old) ∧ reported answers = [] ∧
      refusals old = [] := by
  cases h with
  | asking _ _ hfail hroom hrep href => exact ⟨hfail, hroom, hrep, href⟩
  | owing e _ he =>
    rw [hp] at he
    cases he
  | closed hover => exact (hs hover).elim

theorem standing_accept (h : Accounted start answers old p) (hs : p.state ≠ .exhausted)
    (hp : p.pending = none) (page : Page RowResult) {more : List Answer}
    (hquiet : reported more = []) :
    Standing start (answers ++ more) (old ++ [.ok page]) (p.accept page).pager := by
  obtain ⟨hfail, hroom, hrep, href⟩ := h.standing.asks hs hp
  have hfull := room_iff h.tracks ((h.same_room _).mpr hroom) page
  rw [h.same_room, h.same_arriving, ← arrivals_page] at hfull
  have hrows : failure? (rowsOf (old ++ [.ok page])) = failure? page.rows := by
    rw [rowsOf_page, failure?_append, hfail, Option.none_or]
  have hreported : reported (answers ++ more) = [] := by
    rw [reported_append, hrep, hquiet]
    rfl
  have hrefusals : refusals (old ++ [.ok page]) = [] := by
    rw [refusals_append, href]
    rfl
  cases accept_leads p page with
  | filled hfills hstate hpend =>
    refine .closed hstate hpend ?_
    rw [owed_of_not_room, hreported, hrefusals]
    · rfl
    · rw [hfull, hfills]
      exact Bool.noConfusion
  | failed e hfills hfailed hstate hpend =>
    refine .owing e ?_ hpend ?_ hreported hrefusals
    · rw [hstate]
      exact PagerState.noConfusion
    · rw [owed_of_room (hfull.mpr hfills), hrows, hfailed]
  | ended hfills hnone _ hstate hpend =>
    refine .closed hstate hpend ?_
    rw [owed_of_room (hfull.mpr hfills), hrows, hnone, hreported, hrefusals]
    rfl
  | more hfills hnone _ hstate hpend =>
    refine .asking ?_ (hpend.trans hp) (hrows.trans hnone) (hfull.mpr hfills) hreported hrefusals
    rw [hstate]
    exact PagerState.noConfusion

/-- Answers that bring the rows of an accepted page, and report nothing, keep the accounts. -/
theorem accounted_accept (h : Accounted start answers old p) (hs : p.state ≠ .exhausted)
    (hp : p.pending = none) (page : Page RowResult) {more : List Answer}
    (hmore : Pager.delivered more = (p.accept page).rows) (hquiet : reported more = [])
    (hfilled : ∀ es, .ok (some es) ∈ more → es ≠ []) :
    Accounted start (answers ++ more) (old ++ [.ok page]) (p.accept page).pager := by
  obtain ⟨hfail, hroom, hrep, href⟩ := h.standing.asks hs hp
  have hroom' := (h.same_room _).mpr hroom
  obtain ⟨hprofile, hquery, _⟩ := accept_keeps p page
  have hpages : pagesOf (old ++ [.ok page]) = pagesOf old ++ [page] := pagesOf_append old _
  have harrivals : start.arrivals (old ++ [.ok page]) = start.arrivals old ++ p.arriving page := by
    rw [arrivals_page, h.same_arriving]
  have htracks := tracks_accept h.tracks hroom' page
  rw [← harrivals] at htracks
  have hreplay : start.accepting (pagesOf old ++ [page]) = (p.accept page).pager := by
    rcases h.replayed with hr | hr
    · rw [accepting_page, ← hr]
    · rw [hr] at hs
      exact (hs rfl).elim
  constructor
  · exact hprofile.trans h.profile
  · exact hquery.trans h.query
  · exact htracks
  · rw [delivered_append, h.delivered, hmore, harrivals, ← h.same_due, ← h.same_due,
      due_append_arriving h.tracks hroom']
  · intro es hes
    rcases List.mem_append.mp hes with hes | hes
    · exact h.filled es hes
    · exact hfilled es hes
  · rw [hpages, hreplay]
    exact .inl rfl
  · intro k
    rw [hpages]
    by_cases hk : k ≤ (pagesOf old).length
    · rw [List.take_append_of_le_length hk]
      exact h.bounded k
    · rw [List.take_of_length_le (by simp; omega), hreplay, ← h.query, ← hquery]
      exact ⟨htracks.skipped_le, htracks.emitted_le⟩
  · rw [hpages, List.dropLast_concat]
    exact clean_of_rowsOf hfail
  · exact standing_accept h hs hp page hquiet

/-- An error is the last thing a pager brings, be it that of a row or of the source. -/
theorem accounted_fail (h : Accounted start answers old p) (hs : p.state ≠ .exhausted)
    (e : QueryError) {more : List Response} (hmore : pagesOf more = [])
    (hover : reported answers ++ [e] = refusals (old ++ more) ++ (start.owed (old ++ more)).toList) :
    Accounted start (answers ++ [.error e]) (old ++ more) p.exhaust := by
  have hpages : pagesOf (old ++ more) = pagesOf old := by
    rw [pagesOf_append, hmore, List.append_nil]
  have harrivals : start.arrivals (old ++ more) = start.arrivals old := by
    simp only [arrivals]
    rw [hpages]
  constructor
  · exact h.profile
  · exact h.query
  · rw [harrivals]
    exact ⟨h.tracks.skipped, h.tracks.emitted⟩
  · rw [delivered_append, harrivals, h.delivered]
    exact List.append_nil _
  · intro es hes
    rcases List.mem_append.mp hes with hes | hes
    · exact h.filled es hes
    · cases List.mem_singleton.mp hes
  · rw [hpages]
    rcases h.replayed with hr | hr
    · rw [← hr]
      exact .inr rfl
    · rw [hr] at hs
      exact (hs rfl).elim
  · rw [hpages]
    exact h.bounded
  · rw [hpages]
    exact h.clean
  · refine .closed rfl rfl ?_
    rw [reported_append]
    exact hover

theorem accounted_ended (h : Accounted start answers old p) (hs : p.state = .exhausted) :
    Accounted start (answers ++ [.ok none]) old p := by
  have hreported : reported (answers ++ [.ok none]) = reported answers := by
    rw [reported_append]
    exact List.append_nil _
  refine { h with delivered := ?_, filled := ?_, standing := ?_ }
  · rw [delivered_append, h.delivered]
    exact List.append_nil _
  · intro es hes
    rcases List.mem_append.mp hes with hes | hes
    · exact h.filled es hes
    · cases List.mem_singleton.mp hes
  · cases h.standing with
    | asking hopen => exact (hopen hs).elim
    | owing _ hopen => exact (hopen hs).elim
    | closed _ hpend hover => exact .closed hs hpend (hreported.trans hover)

theorem Call.accounts (h : Call source p s responses turn t) (ha : Accounted start answers old p) :
    Accounted start (answers ++ [turn.answer]) (old ++ responses) turn.pager := by
  induction h generalizing old with
  | ended hs =>
    rw [List.append_nil]
    exact accounted_ended ha hs
  | @overdue p s e hs hp =>
    refine accounted_fail ha hs e rfl ?_
    rw [List.append_nil]
    cases ha.standing with
    | asking _ hnone =>
      rw [hp] at hnone
      cases hnone
    | owing e' _ he howed hrep href =>
      rw [hp] at he
      cases he
      rw [hrep, href, howed]
      rfl
    | closed hover => exact (hs hover).elim
  | @refused p s e hs hp hf =>
    refine accounted_fail ha hs e rfl ?_
    obtain ⟨hfail, hroom, hrep, href⟩ := ha.standing.asks hs hp
    have howed : start.owed (old ++ [.error e]) = none := by
      have hsame : pagesOf (old ++ [.error e]) = pagesOf old := by
        rw [pagesOf_append]
        exact List.append_nil _
      have harrivals : start.arrivals (old ++ [.error e]) = start.arrivals old := by
        simp only [arrivals, hsame]
      have hrows : rowsOf (old ++ [.error e]) = rowsOf old := by simp only [rowsOf, hsame]
      simp only [owed, harrivals, hrows]
      exact (owed_of_room hroom).trans hfail
    rw [hrep, refusals_append, href, howed]
    rfl
  | @delivered p s page hs hp hf hrows =>
    refine accounted_accept ha hs hp page ?_ rfl ?_
    · exact List.append_nil _
    · intro es hes
      cases List.mem_singleton.mp hes
      exact hrows
  | @further p s page responses turn t hs hp hf hrows _ ih =>
    have hnext : Accounted start (answers ++ []) (old ++ [.ok page]) (p.accept page).pager :=
      accounted_accept ha hs hp page hrows.symm rfl (fun _ hes => (List.not_mem_nil hes).elim)
    rw [List.append_nil] at hnext
    have hall := ih hnext
    rw [List.append_assoc] at hall
    exact hall

theorem accounted_start {profile : Profile} {q : Query} {pageSize : Nat}
    (h : new profile q pageSize = .ok p) : Accounted p [] [] p := by
  have hp := eq_of_new h
  have htracks : p.Tracks [] := by
    rw [hp]
    exact ⟨(Nat.min_zero _).symm, by simp [due, capped]⟩
  constructor
  · rfl
  · rfl
  · exact htracks
  · simp [Pager.delivered, due, capped, arrivals, pagesOf]
  · intro es hes
    cases hes
  · exact .inl rfl
  · intro k
    have hnone : p.accepting ((pagesOf []).take k) = p := by
      simp [pagesOf, accepting]
    rw [hnone]
    exact ⟨htracks.skipped_le, htracks.emitted_le⟩
  · intro page hpage
    cases hpage
  · refine .asking ?_ (by rw [hp]) rfl ?_ rfl rfl
    · rw [hp]
      exact PagerState.noConfusion
    · simp only [Room, arrivals]
      simp only [pagesOf, List.filterMap_nil, List.flatMap_nil, List.drop_nil, List.length_nil]
      omega

theorem accounted_calls {profile : Profile} {q : Query} {pageSize : Nat}
    (h : new profile q pageSize = .ok p) (source : Source σ) (s : σ) (n : Nat) :
    Accounted p (p.runCalls source s n).answer.1 (p.runCalls source s n).state.responses
      (p.runCalls source s n).answer.2 :=
  calls_invariant source (fun answers responses q _ => Accounted p answers responses q)
    (accounted_start h) (fun _ _ _ _ _ _ _ ha hcall => hcall.accounts ha) n

theorem flatMap_arriving (h : p.query.sorts.length ≤ 1 ∨ p.profile.sort ≠ .pageSort)
    {pages : List (Page RowResult)}
    (hclean : ∀ page ∈ pages.dropLast, failure? page.rows = none) :
    pages.flatMap p.arriving = converted (pages.flatMap Page.rows) := by
  induction pages with
  | nil => rfl
  | cons page pages ih =>
    rw [List.flatMap_cons, List.flatMap_cons, arriving_of_sorted h]
    cases pages with
    | nil => simp
    | cons next pages =>
      rw [converted_append (hclean page List.mem_cons_self), ih]
      intro page' hpage'
      exact hclean page' (List.mem_cons_of_mem _ hpage')

/-- What the calls so far brought and the pager after them, told from the rows fetched for them. No
counter passes the number of these rows, and each subtraction from skip and limit is exact at every
page. -/
structure Balances (p : Pager) (answers : List Answer) (responses : List Response) (q : Pager) :
    Prop where
  delivered : Pager.delivered answers =
    capped p.query.limit ((converted (rowsOf responses)).drop
      (if p.profile.windowing = .native then 0 else p.query.skip))
  emitted : q.emitted = (Pager.delivered answers).length
  filled : ∀ es, .ok (some es) ∈ answers → es ≠ []
  replayed : q = p.accepting (pagesOf responses) ∨ q = (p.accepting (pagesOf responses)).exhaust
  skipped_within : ∀ k, (p.accepting ((pagesOf responses).take k)).skipped ≤ p.query.skip
  emitted_within : ∀ k, 0 < p.query.limit →
    (p.accepting ((pagesOf responses).take k)).emitted ≤ p.query.limit
  counted : q.skipped + q.emitted ≤ (rowsOf responses).length
  reports : reported answers ++ q.pending.toList = refusals responses ++
    if p.query.limit = 0 ∨ ((converted (rowsOf responses)).drop
        (if p.profile.windowing = .native then 0 else p.query.skip)).length < p.query.limit then
      (failure? (rowsOf responses)).toList
    else []

theorem engineSkip_eq (p : Pager) :
    p.engineSkip = if p.profile.windowing = .native then 0 else p.query.skip := by
  simp only [engineSkip, Profile.skipsClientSide]
  by_cases h : p.profile.windowing = .native
  · simp [h]
  · simp [h]

theorem Accounted.balances (h : Accounted start answers responses p)
    (hsort : start.query.sorts.length ≤ 1 ∨ start.profile.sort ≠ .pageSort) :
    start.Balances answers responses p := by
  have harrivals : start.arrivals responses = converted (rowsOf responses) :=
    flatMap_arriving hsort h.clean
  have hemitted : p.emitted = (Pager.delivered answers).length := by
    rw [h.tracks.emitted, h.same_due, h.delivered]
  constructor
  · rw [h.delivered, harrivals, ← engineSkip_eq]
    rfl
  · exact hemitted
  · exact h.filled
  · exact h.replayed
  · exact fun k => (h.bounded k).1
  · intro k hlimit
    rcases (h.bounded k).2 with h0 | hle
    · omega
    · exact hle
  · have hle := length_converted_le (rowsOf responses)
    have hdue : (p.due (start.arrivals responses)).length ≤
        (start.arrivals responses).length - p.engineSkip := by
      rw [← List.length_drop]
      exact length_capped_le _ _
    rw [h.tracks.skipped, h.tracks.emitted]
    rw [harrivals] at hdue ⊢
    omega
  · rw [← engineSkip_eq, ← harrivals]
    cases h.standing with
    | asking _ hpend hfail _ hrep href =>
      rw [hrep, href, hpend, hfail]
      simp
    | owing e _ hpend howed hrep href =>
      simp only [owed] at howed
      rw [hrep, href, hpend, ← howed]
      split <;> rfl
    | closed _ hpend hover =>
      simp only [owed] at hover
      rw [hover, hpend, Option.toList_none, List.append_nil]
      split <;> rfl

/-- Over any source, a run of calls delivers the entities that were fetched before the first failure,
without the skipped ones and up to the limit; a failure that the limit does not cut off is reported,
by the next call at the latest. -/
theorem accounts_balance {profile : Profile} {q : Query} {pageSize : Nat}
    (h : new profile q pageSize = .ok p) (hsort : q.sorts.length ≤ 1 ∨ profile.sort ≠ .pageSort)
    (source : Source σ) (s : σ) (n : Nat) :
    let o := p.runCalls source s n
    (p.profile = profile ∧ p.query = q) ∧ p.Balances o.answer.1 o.state.responses o.answer.2 ∧
      ∀ e, o.answer.2.pending = some e →
        (p.runCallAfter source s n).answer = ⟨.error e, o.answer.2.exhaust⟩ ∧
          (p.runCallAfter source s n).state = o.state := by
  have hp := eq_of_new h
  have haccounted := accounted_calls h source s n
  refine ⟨⟨by rw [hp], by rw [hp]⟩, ?_, ?_⟩
  · apply haccounted.balances
    rw [hp]
    exact hsort
  · intro e he
    have hopen : (p.runCalls source s n).answer.2.state ≠ .exhausted := by
      cases haccounted.standing with
      | asking hopen => exact hopen
      | owing _ hopen => exact hopen
      | closed _ hnone =>
        rw [hnone] at he
        cases he
    simp only [runCallAfter]
    rw [nextPage_overdue source.recorded hopen he]
    exact ⟨rfl, rfl⟩

/-- A page that passes the limit, from a source that ignores what it was asked for. -/
theorem accounts_balance_past_limit :
    let profile : Profile := ⟨"script", .statefulCursor, .clientSide, .pageSort⟩
    let q : Query := ⟨"items", none, [⟨"rank", .asc⟩], 1, 1⟩
    let page : Page RowResult := .partway
      [.ok ⟨"a", []⟩, .ok ⟨"b", []⟩, .error (.invalidArgument "unreadable")] (some [])
    ∃ p, new profile q 1 = .ok p ∧
      let o := p.runCalls (Source.scripted profile) [.ok page] 3
      (p.profile = profile ∧ p.query = q) ∧ p.Balances o.answer.1 o.state.responses o.answer.2 ∧
        ∀ e, o.answer.2.pending = some e →
          (p.runCallAfter (Source.scripted profile) [.ok page] 3).answer =
              ⟨.error e, o.answer.2.exhaust⟩ ∧
            (p.runCallAfter (Source.scripted profile) [.ok page] 3).state = o.state := by
  intro profile q page
  have hnew : new profile q 1 = .ok { profile := profile, query := q, pageSize := 1 } := rfl
  exact ⟨_, hnew, accounts_balance hnew (.inl (by decide)) (Source.scripted profile) [.ok page] 3⟩

end StoreQuery.Pager
