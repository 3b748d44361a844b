import StoreQuery.Proofs.Json.Fields
import StoreQuery.Proofs.Paging.Accounts
import StoreQuery.Search.Body
/-!
What a pager asks for. Whatever a source answers, each request resumes where the response before it said,
and its window follows from the rows received so far.
-/
namespace StoreQuery

variable {σ : Type} {source : Source σ}

structure Exchange where
  cursor : Cursor
  window : Window
  response : Response

structure Traced (σ : Type) where
  inner : σ
  exchanges : List Exchange := []

def Source.traced (source : Source σ) : Source (Traced σ) where
  profile := source.profile
  fetch q c w := fun r =>
    let o := (source.fetch q c w).run r.inner
    ⟨o.answer, ⟨o.state, r.exchanges ++ [⟨c, w, o.answer⟩]⟩, o.log⟩

namespace Exchange

def received (earlier : List Exchange) : Nat :=
  (Pager.rowsOf (earlier.map Exchange.response)).length

/-- What a source that keeps a cursor resumes from after these exchanges. -/
def token? (earlier : List Exchange) : Option Token :=
  earlier.getLast?.bind fun last => last.response.toOption.bind Page.continuation

theorem received_concat (earlier : List Exchange) (c : Cursor) (w : Window) (page : Page RowResult) :
    received (earlier ++ [⟨c, w, .ok page⟩]) = received earlier + page.rows.length := by
  rw [received, List.map_append, List.map_singleton, Pager.rowsOf_page, List.length_append]
  rfl

@[simp]
theorem token?_concat (earlier : List Exchange) (c : Cursor) (w : Window) (page : Page RowResult) :
    token? (earlier ++ [⟨c, w, .ok page⟩]) = page.continuation := by
  rw [token?, List.getLast?_concat]
  rfl

end Exchange

def Profile.offsetAfter (profile : Profile) (q : Query) (received : Nat) : Nat :=
  match profile.strategy, profile.windowing with
  | .stateless, .native => min (q.skip + received) maxCount
  | .stateless, _ => min received maxCount
  | .statefulCursor, .native => q.skip
  | .statefulCursor, _ => 0

def Profile.limitSent (profile : Profile) (q : Query) : Nat :=
  match profile.windowing with
  | .native => q.limit
  | .nativeLimitOnly => if 0 < q.limit then min (q.skip + q.limit) maxCount else 0
  | .clientSide => 0

/-- A request that is right after the exchanges before it. -/
structure Exchange.Fits (profile : Profile) (q : Query) (earlier : List Exchange) (x : Exchange) :
    Prop where
  first : earlier = [] → x.cursor.isFresh = true
  resumes : profile.strategy = .statefulCursor → ∀ before last, earlier = before ++ [last] →
    ∃ page token, last.response = .ok page ∧ page.continuation = some token ∧
      x.cursor.token = some token
  tokenless : profile.strategy = .stateless → x.cursor.token = none
  offset : x.window.offset = profile.offsetAfter q (received earlier)
  limit : x.window.limit = profile.limitSent q
  /-- A store that applies the limit is asked for no more than the limit leaves. -/
  within : profile.windowing = .native → 0 < q.limit →
    1 ≤ x.window.pageSize ∧ x.window.pageSize ≤ q.limit - received earlier ∧
      (profile.strategy = .stateless → x.window.offset + x.window.pageSize ≤ q.skip + q.limit)
  sized : profile.strategy = .stateless → x.window.pageSize ≠ 0

def Exchange.AllFit (profile : Profile) (q : Query) (exchanges : List Exchange) : Prop :=
  ∀ before x after, exchanges = before ++ x :: after → Fits profile q before x

theorem Exchange.AllFit.concat {profile : Profile} {q : Query} {exchanges : List Exchange}
    {x : Exchange} (h : AllFit profile q exchanges) (hx : Fits profile q exchanges x) :
    AllFit profile q (exchanges ++ [x]) := by
  intro before y after heq
  rcases List.eq_nil_or_concat after with rfl | ⟨after, z, rfl⟩
  · obtain ⟨rfl, hlast⟩ := List.append_inj' heq rfl
    cases hlast
    exact hx
  · rw [List.concat_eq_append, ← List.cons_append, ← List.append_assoc] at heq
    obtain ⟨rfl, -⟩ := List.append_inj' heq rfl
    exact h before y after rfl

namespace Pager

variable {start p : Pager} {earlier : List Exchange} {page : Page RowResult}

structure Awaits (start : Pager) (earlier : List Exchange) (p : Pager) : Prop where
  profile : p.profile = start.profile
  query : p.query = start.query
  size : p.pageSize = start.pageSize
  received : p.received = min (Exchange.received earlier) maxCount
  /-- Where the store skips, rows are delivered as they come, and the limit is not reached. -/
  room : start.profile.windowing = .native → 0 < start.query.limit →
    p.emitted = Exchange.received earlier ∧ Exchange.received earlier < start.query.limit
  tokenless : start.profile.strategy = .stateless → p.cursor = .fresh
  resumes : start.profile.strategy = .statefulCursor → p.cursor = ⟨Exchange.token? earlier, false⟩
  present : start.profile.strategy = .statefulCursor → ∀ before last, earlier = before ++ [last] →
    ∃ page token, last.response = .ok page ∧ page.continuation = some token

theorem windowPageSize_of_native (hnative : p.profile.windowing = .native) (hlimit : 0 < p.query.limit) :
    p.windowPageSize = if p.pageSize = 0 then p.query.limit - p.received
      else min p.pageSize (p.query.limit - p.received) := by
  simp only [windowPageSize, if_pos (And.intro hnative hlimit)]

theorem windowPageSize_of_rest (h : ¬ (p.profile.windowing = .native ∧ 0 < p.query.limit)) :
    p.windowPageSize = p.pageSize := by
  simp only [windowPageSize, if_neg h]

theorem Awaits.within (h : Awaits start earlier p) (hlimit : start.query.limit ≤ maxCount)
    (hnative : start.profile.windowing = .native) (hpos : 0 < start.query.limit) :
    1 ≤ p.windowPageSize ∧ p.windowPageSize ≤ start.query.limit - Exchange.received earlier := by
  obtain ⟨-, hroom⟩ := h.room hnative hpos
  have hreceived := h.received
  rw [windowPageSize_of_native (h.profile ▸ hnative) (h.query ▸ hpos), h.query]
  split <;> omega

theorem Awaits.sized (h : Awaits start earlier p) (hlimit : start.query.limit ≤ maxCount)
    (hsize : start.pageSize ≠ 0) : p.windowPageSize ≠ 0 := by
  by_cases hnative : start.profile.windowing = .native ∧ 0 < start.query.limit
  · have := h.within hlimit hnative.1 hnative.2
    omega
  · rw [windowPageSize_of_rest (by rw [h.profile, h.query]; exact hnative), h.size]
    exact hsize

theorem Awaits.offset (h : Awaits start earlier p) :
    p.windowOffset = start.profile.offsetAfter start.query (Exchange.received earlier) := by
  simp only [windowOffset, Profile.offsetAfter, cappedAdd, h.profile, h.query, h.received]
  cases start.profile.strategy <;> cases start.profile.windowing <;> dsimp only <;> omega

theorem Awaits.limit (h : Awaits start earlier p) :
    p.windowLimit = start.profile.limitSent start.query := by
  simp only [windowLimit, Profile.limitSent, h.profile, h.query]
  rfl

/-- What a pager sends is right after the exchanges that it knows of. -/
theorem Awaits.fits (h : Awaits start earlier p) (hlimit : start.query.limit ≤ maxCount)
    (hsize : start.profile.strategy = .stateless → start.pageSize ≠ 0) (response : Response) :
    Exchange.Fits start.profile start.query earlier ⟨p.cursor, p.window, response⟩ := by
  constructor
  · rintro rfl
    cases hstrategy : start.profile.strategy with
    | stateless =>
      rw [h.tokenless hstrategy]
      rfl
    | statefulCursor =>
      rw [h.resumes hstrategy]
      rfl
  · rintro hstrategy before ⟨c, w, last⟩ rfl
    obtain ⟨page, token, rfl, htoken⟩ := h.present hstrategy before ⟨c, w, last⟩ rfl
    refine ⟨page, token, rfl, htoken, ?_⟩
    rw [h.resumes hstrategy, Exchange.token?_concat]
    exact htoken
  · intro hstrategy
    rw [h.tokenless hstrategy]
    rfl
  · exact h.offset
  · exact h.limit
  · intro hnative hpos
    obtain ⟨hone, hwithin⟩ := h.within hlimit hnative hpos
    refine ⟨hone, hwithin, ?_⟩
    intro hstrategy
    have hoffset : p.windowOffset ≤ start.query.skip + Exchange.received earlier := by
      rw [h.offset]
      simp only [Profile.offsetAfter, hstrategy, hnative]
      exact Nat.min_le_left _ _
    have hroom := h.room hnative hpos
    show p.windowOffset + p.windowPageSize ≤ start.query.skip + start.query.limit
    omega
  · intro hstrategy
    exact h.sized hlimit (hsize hstrategy)

theorem length_kept_of_native (hnative : p.profile.windowing = .native)
    (hclean : failure? page.rows = none) : (p.kept page).length = page.rows.length := by
  have hdrop : p.toDrop (p.arriving page).length = 0 := by
    simp [toDrop, Profile.skipsClientSide, hnative]
  rw [kept, hdrop, List.drop_zero, arriving, length_arrange, length_converted hclean]

theorem isSome_continuation (hstrategy : p.profile.strategy = .statefulCursor)
    (hends : p.endsWith page = false) : ∃ token, page.continuation = some token := by
  simp only [endsWith, hstrategy, Bool.or_eq_false_iff] at hends
  exact Option.isSome_iff_exists.mp (Option.isNone_eq_false_iff.mp hends.1.1)

/-- A page after which the pager may ask on. -/
theorem Awaits.accept (h : Awaits start earlier p) (hfills : p.fills page = false)
    (hclean : failure? page.rows = none) (hends : p.endsWith page = false)
    (hstateful : p.profile.strategy = .statefulCursor →
      (p.accept page).pager.cursor = p.cursor.advance page.continuation)
    (hstateless : p.profile.strategy = .stateless → (p.accept page).pager.cursor = p.cursor) :
    Awaits start (earlier ++ [⟨p.cursor, p.window, .ok page⟩]) (p.accept page).pager := by
  obtain ⟨hprofile, hquery, hpageSize⟩ := accept_keeps p page
  constructor
  · exact hprofile.trans h.profile
  · exact hquery.trans h.query
  · exact hpageSize.trans h.size
  · rw [received_accept, h.received, Exchange.received_concat, cappedAdd]
    omega
  · intro hnative hpos
    have hkept := length_kept_of_native (h.profile ▸ hnative) hclean
    obtain ⟨hemitted, hroom⟩ := h.room hnative hpos
    rw [emitted_accept, rows_accept, hfills, Exchange.received_concat, if_neg Bool.false_ne_true,
      hkept, hemitted]
    refine ⟨rfl, ?_⟩
    simp only [fills, reachesLimit, Query.isBounded, hkept, remaining, hemitted, h.query,
      Bool.and_eq_false_iff, decide_eq_false_iff_not] at hfills
    omega
  · intro hstrategy
    rw [hstateless (h.profile ▸ hstrategy), h.tokenless hstrategy]
  · intro hstrategy
    rw [hstateful (h.profile ▸ hstrategy), h.resumes hstrategy, Exchange.token?_concat]
    rfl
  · intro hstrategy before last heq
    obtain ⟨token, htoken⟩ := isSome_continuation (h.profile ▸ hstrategy) hends
    obtain ⟨-, hlast⟩ := List.append_inj' heq rfl
    cases hlast
    exact ⟨page, token, rfl, htoken⟩

def Informed (start : Pager) (earlier : List Exchange) (p : Pager) : Prop :=
  p.state ≠ .exhausted → p.pending = none → Awaits start earlier p

theorem informed_accept (h : Awaits start earlier p) (page : Page RowResult) :
    Informed start (earlier ++ [⟨p.cursor, p.window, .ok page⟩]) (p.accept page).pager := by
  intro hopen hnone
  cases accept_leads p page with
  | filled _ hstate => exact (hopen hstate).elim
  | failed e _ _ _ hpend =>
    rw [hnone] at hpend
    cases hpend
  | ended _ _ _ hstate => exact (hopen hstate).elim
  | more hfills hclean hends _ _ hstateful hstateless =>
    exact h.accept hfills hclean hends hstateful hstateless

theorem informed_exhaust (p : Pager) (earlier : List Exchange) : Informed start earlier p.exhaust :=
  fun hopen => (hopen rfl).elim

/-- One call sends nothing but requests that are right, and knows of them afterwards. -/
theorem Call.fits {r t : Traced σ} {responses : List Response} {turn : Turn}
    (h : Call source.traced p r responses turn t) (hlimit : start.query.limit ≤ maxCount)
    (hsize : start.profile.strategy = .stateless → start.pageSize ≠ 0)
    (hinformed : Informed start r.exchanges p)
    (hfit : Exchange.AllFit start.profile start.query r.exchanges) :
    Informed start t.exchanges turn.pager ∧
      Exchange.AllFit start.profile start.query t.exchanges := by
  induction h with
  | ended hs => exact ⟨fun hopen => (hopen hs).elim, hfit⟩
  | overdue => exact ⟨informed_exhaust _ _, hfit⟩
  | refused hs hp hf => exact ⟨informed_exhaust _ _, hfit.concat ((hinformed hs hp).fits hlimit hsize _)⟩
  | @delivered p r page hs hp hf =>
    have hawaits := hinformed hs hp
    refine ⟨?_, hfit.concat (hawaits.fits hlimit hsize _)⟩
    have hnext := informed_accept hawaits page
    rw [← hf] at hnext
    exact hnext
  | @further p r page _ _ _ hs hp hf _ _ ih =>
    have hawaits := hinformed hs hp
    apply ih
    · have hnext := informed_accept hawaits page
      rw [← hf] at hnext
      exact hnext
    · exact hfit.concat (hawaits.fits hlimit hsize _)

theorem awaits_start {profile : Profile} {q : Query} {pageSize : Nat}
    (h : new profile q pageSize = .ok p) : Awaits p [] p := by
  have hp := eq_of_new h
  constructor
  · rfl
  · rfl
  · rfl
  · rw [hp]
    rfl
  · intro _ hpos
    rw [hp]
    exact ⟨rfl, hp ▸ hpos⟩
  · intro _
    rw [hp]
  · intro _
    rw [hp]
    rfl
  · intro _ before last heq
    cases before <;> cases heq

theorem startSize_ne_zero {profile : Profile} (h : profile.strategy = .stateless) (pageSize : Nat) :
    startSize profile pageSize ≠ 0 := by
  simp only [startSize, statelessPageSize]
  split
  · omega
  · rename_i hsize
    intro hzero
    exact hsize ⟨h, hzero⟩

theorem call_delivered (source : Source σ) {s : σ} (h : p.state ≠ .exhausted) (hp : p.pending = none)
    (hf : (p.fetched source s).answer = .ok page) (hr : (p.accept page).rows ≠ []) :
    ((p.call source).run s).answer.2 = (p.accept page).pager ∧
      ((p.call source).run s).state = (p.fetched source s).state := by
  obtain ⟨hanswer, hstate⟩ := nextPage_delivered source h hp hf hr
  exact ⟨congrArg Turn.pager hanswer, hstate⟩

def exchanges (source : Source σ) (p : Pager) (s : σ) (n : Nat) : List Exchange :=
  ((p.calls source.traced n).run ⟨s, []⟩).state.exchanges

/-- The induction is on the number of calls; what the pager knows goes from each call to the next. -/
theorem allFit_calls (source : Source σ) (hlimit : start.query.limit ≤ maxCount)
    (hsize : start.profile.strategy = .stateless → start.pageSize ≠ 0)
    (hawaits : Awaits start [] start) (s : σ) (n : Nat) :
    let o := (start.calls source.traced n).run ⟨s, []⟩
    Informed start o.state.exchanges o.answer.2 ∧
      Exchange.AllFit start.profile start.query o.state.exchanges := by
  induction n with
  | zero =>
    refine ⟨fun _ _ => hawaits, ?_⟩
    intro before x after heq
    cases before <;> cases heq
  | succ n ih =>
    obtain ⟨hinformed, hfit⟩ := ih
    obtain ⟨_, hcall⟩ := exists_call source.traced
      ((start.calls source.traced n).run ⟨s, []⟩).answer.2
      ((start.calls source.traced n).run ⟨s, []⟩).state
    exact hcall.fits hlimit hsize hinformed hfit

end Pager

/-- A document request says how many documents it wants: the size of its window. -/
theorem Search.Index.size_search {i : Search.Index} {q : Query} {c : Cursor} {w : Window}
    {request : Search.Request} (h : i.search q c w = .ok request) (hsize : w.pageSize ≠ 0) :
    request.body.field? "size" = some (.integer w.pageSize) := by
  obtain ⟨query, _, hrequest⟩ := exists_of_bind_ok h
  cases hrequest
  show Json.Fields.get? (Json.Fields.ofList _) "size" = _
  rw [Json.Fields.ofList, List.foldl_append, if_neg hsize]
  exact Json.Fields.get?_put_self _ _ _

/-- Every request of a run is right after the exchanges before it, whatever the source answers: its
cursor, its offset, its limit and its size. A search for documents states that size. -/
theorem requests_fit {profile : Profile} {q : Query} {pageSize : Nat} {p : Pager}
    (h : Pager.new profile q pageSize = .ok p) (hlimit : q.limit ≤ maxCount) (source : Source σ)
    (s : σ) (n : Nat) (before after : List Exchange) (x : Exchange)
    (hrun : p.exchanges source s n = before ++ x :: after) :
    x.Fits profile q before ∧
      ∀ (i : Search.Index) (request : Search.Request), i.profile = profile →
        i.search q x.cursor x.window = .ok request →
        request.body.field? "size" = some (.integer x.window.pageSize) := by
  have hp := Pager.eq_of_new h
  have hquery : p.query = q := by rw [hp]
  have hprofile : p.profile = profile := by rw [hp]
  have hsize : p.profile.strategy = .stateless → p.pageSize ≠ 0 := by
    rw [hp]
    exact fun hstrategy => Pager.startSize_ne_zero hstrategy pageSize
  obtain ⟨-, hfit⟩ := Pager.allFit_calls source (hquery ▸ hlimit) hsize (Pager.awaits_start h) s n
  have hx : x.Fits profile q before := hprofile ▸ hquery ▸ hfit before x after hrun
  refine ⟨hx, ?_⟩
  rintro i request rfl hrequest
  exact i.size_search hrequest (hx.sized rfl)

/-- Two pages of a search for three documents past the first: the second asks for the one that is
left. -/
theorem requests_fit_last_page :
    let i : Search.Index := ⟨"store"⟩
    let q : Query := ⟨"items", none, [], 1, 3⟩
    let first : Page RowResult := .partway [.ok ⟨"b", []⟩, .ok ⟨"c", []⟩] none
    let last : Page RowResult := .partway [.ok ⟨"d", []⟩] none
    let x : Exchange := ⟨.fresh, ⟨1, 3, 2⟩, .ok first⟩
    let y : Exchange := ⟨.fresh, ⟨3, 3, 1⟩, .ok last⟩
    ∃ p, Pager.new i.profile q 2 = .ok p ∧ q.limit ≤ maxCount ∧
      p.exchanges (Source.scripted i.profile) [.ok first, .ok last] 2 = [x] ++ y :: [] ∧
      y.Fits i.profile q [x] ∧
      ∀ (j : Search.Index) (request : Search.Request), j.profile = i.profile →
        j.search q y.cursor y.window = .ok request →
        request.body.field? "size" = some (.integer y.window.pageSize) := by
  intro i q first last x y
  have hnew : Pager.new i.profile q 2 = .ok { profile := i.profile, query := q, pageSize := 2 } := rfl
  have hlimit : q.limit ≤ maxCount := by decide
  have hrun : ({ profile := i.profile, query := q, pageSize := 2 } : Pager).exchanges
      (Source.scripted i.profile) [.ok first, .ok last] 2 = [x] ++ y :: [] := by
    obtain ⟨hpager, hstate⟩ := Pager.call_delivered (Source.scripted i.profile).traced
      (p := { profile := i.profile, query := q, pageSize := 2 })
      (s := ⟨[.ok first, .ok last], []⟩) (by decide) rfl rfl (by decide)
    obtain ⟨-, hlast⟩ := Pager.call_delivered (Source.scripted i.profile).traced
      (p := (Pager.accept { profile := i.profile, query := q, pageSize := 2 } first).pager)
      (s := ⟨[.ok last], [x]⟩) (by decide) rfl rfl (by decide)
    simp only [Pager.exchanges, Pager.calls, Step.state_repeated_succ, Step.answer_repeated_succ,
      Step.run_repeated_zero, hpager, hstate]
    exact congrArg Traced.exchanges hlast
  exact ⟨_, hnew, hlimit, hrun, requests_fit hnew hlimit _ _ 2 [x] [] y hrun⟩

end StoreQuery
