import StoreQuery.Number.Decimal
import StoreQuery.Paging.EntityOrder
import StoreQuery.Paging.Source
/-!
The pager: it drives one query through fetches until nothing is left. Rows that the store cannot skip
are dropped as they arrive, delivery stops at the limit, and a row that fails to convert ends its page:
the rows before it are delivered, then its error. The end is final.
-/
namespace StoreQuery

inductive PagerState where
  /-- No page was asked for yet. -/
  | fresh
  /-- A fetch is under way. -/
  | inFlight
  /-- More may follow. -/
  | hasMore
  | exhausted
  deriving DecidableEq, Repr

def PagerState.name : PagerState → String
  | .fresh => "fresh"
  | .inFlight => "in_flight"
  | .hasMore => "has_more"
  | .exhausted => "exhausted"

structure Pager where
  profile : Profile
  query : Query
  pageSize : Nat
  cursor : Cursor := .fresh
  /-- Rows that came from the store. -/
  received : Nat := 0
  /-- Rows dropped here on behalf of skip. -/
  skipped : Nat := 0
  /-- Rows handed to the caller. -/
  emitted : Nat := 0
  /-- An error to report once the rows before it are delivered. -/
  pending : Option QueryError := none
  state : PagerState := .fresh

/-- Rows per fetch where the store keeps no cursor and no size is set: a search without a size would
lose rows. -/
def statelessPageSize : Nat := 1000

namespace Pager

def tooManySorts (backend : String) (requested supported : Nat) : QueryError :=
  .unsupportedQuery backend (Decimal.ofNat requested ++ " sort keys requested, at most " ++
    Decimal.ofNat supported ++ " supported")

def new (profile : Profile) (query : Query) (pageSize : Nat) : Except QueryError Pager :=
  let size := if profile.strategy = .stateless ∧ pageSize = 0 then statelessPageSize else pageSize
  match profile.maxSortKeys? with
  | some supported =>
    if supported < query.sorts.length then
      .error (tooManySorts profile.backend query.sorts.length supported)
    else .ok { profile := profile, query := query, pageSize := size }
  | none => .ok { profile := profile, query := query, pageSize := size }

def isExhausted (p : Pager) : Bool := p.state == .exhausted

def windowOffset (p : Pager) : Nat :=
  match p.profile.strategy, p.profile.windowing with
  | .stateless, .native => cappedAdd p.query.skip p.received
  | .stateless, _ => p.received
  | .statefulCursor, .native => p.query.skip
  | .statefulCursor, _ => 0

def windowLimit (p : Pager) : Nat :=
  match p.profile.windowing with
  | .native => p.query.limit
  | .nativeLimitOnly => if 0 < p.query.limit then cappedAdd p.query.skip p.query.limit else 0
  | .clientSide => 0

/-- A store that applies the limit is asked for no more rows than the limit leaves. -/
def windowPageSize (p : Pager) : Nat :=
  if p.profile.windowing = .native ∧ 0 < p.query.limit then
    let remaining := p.query.limit - p.received
    if p.pageSize = 0 then remaining else min p.pageSize remaining
  else p.pageSize

/-- What the next request asks for. -/
def window (p : Pager) : Window := ⟨p.windowOffset, p.windowLimit, p.windowPageSize⟩

/-- Whether a page says, by what it brings, that nothing comes after it. -/
def endsWith (p : Pager) (page : Page RowResult) : Bool :=
  match p.profile.strategy with
  | .statefulCursor => page.continuation.isNone || page.complete || page.rows.length == 0
  | .stateless =>
    page.complete || p.windowPageSize == 0 || decide (page.rows.length < p.windowPageSize)

/-- The entities before the first row that failed, and its error. -/
def splitRows : List RowResult → List Entity × Option QueryError
  | [] => ([], none)
  | .error e :: _ => ([], some e)
  | .ok e :: rows =>
    let (entities, failure) := splitRows rows
    (e :: entities, failure)

def arrange (p : Pager) (entities : List Entity) : List Entity :=
  if p.profile.sort = .pageSort ∧ 1 < p.query.sorts.length then
    sortEntities p.query.sorts entities
  else entities

/-- How many of `n` arriving entities are still to be skipped here. -/
def toDrop (p : Pager) (n : Nat) : Nat :=
  if p.profile.skipsClientSide then min (p.query.skip - p.skipped) n else 0

def remaining (p : Pager) : Nat := p.query.limit - p.emitted

/-- Whether `n` further entities reach the limit. -/
def reachesLimit (p : Pager) (n : Nat) : Bool := p.query.isBounded && decide (p.remaining ≤ n)

def startEntry (p : Pager) : LogEntry :=
  .of .queryStart [("collection", p.query.collection), ("backend", p.profile.backend),
    ("strategy", p.profile.strategy.name), ("windowing", p.profile.windowing.name),
    ("page_size", Decimal.ofNat p.pageSize)]

def fetchedEntry (p : Pager) (fetched delivered : Nat) : LogEntry :=
  .of .pageFetched [("collection", p.query.collection), ("backend", p.profile.backend),
    ("fetched", Decimal.ofNat fetched), ("delivered", Decimal.ofNat delivered)]

def exhaustedEntry (p : Pager) : LogEntry :=
  .of .queryExhausted [("collection", p.query.collection), ("emitted", Decimal.ofNat p.emitted)]

def failedEntry (p : Pager) (e : QueryError) : LogEntry :=
  .of .queryFailed [("collection", p.query.collection), ("backend", p.profile.backend),
    ("code", e.code), ("error", e.message)]

def exhaust (p : Pager) : Pager :=
  { p with cursor := p.cursor.exhaust, pending := none, state := .exhausted }

/-- The rows to deliver from one page, the pager after it, and what is logged. -/
structure Delivery where
  rows : List Entity
  pager : Pager
  log : List LogEntry

def accept (p : Pager) (page : Page RowResult) : Delivery :=
  let arranged := p.arrange (splitRows page.rows).1
  let dropped := p.toDrop arranged.length
  let kept := arranged.drop dropped
  let atLimit := p.reachesLimit kept.length
  let rows := if atLimit then kept.take p.remaining else kept
  let counted := { p with
    received := cappedAdd p.received page.rows.length
    skipped := p.skipped + dropped
    emitted := p.emitted + rows.length }
  let entry := p.fetchedEntry page.rows.length rows.length
  match if atLimit then none else (splitRows page.rows).2 with
  | some e => ⟨rows, { counted with pending := some e, state := .hasMore }, [entry]⟩
  | none =>
    if atLimit || p.endsWith page then
      ⟨rows, counted.exhaust, [entry, counted.exhaustedEntry]⟩
    else
      let cursor := match p.profile.strategy with
        | .statefulCursor => p.cursor.advance page.continuation
        | .stateless => p.cursor
      ⟨rows, { counted with cursor := cursor, state := .hasMore }, [entry]⟩

/-- What bounds the fetches of one call: each one that delivers nothing and is not the last uses up a
row to be skipped. -/
def budget (p : Pager) : Nat :=
  if p.state = .exhausted then 0
  else if p.pending.isSome then 1
  else 2 + (p.query.skip - p.skipped)

theorem splitRows_length {rows : List RowResult} (h : (splitRows rows).2 = none) :
    (splitRows rows).1.length = rows.length := by
  induction rows with
  | nil => rfl
  | cons r rs ih =>
    cases r with
    | error e => simp [splitRows] at h
    | ok e => simp only [splitRows] at h ⊢; simp [ih h]

@[simp]
theorem length_arrange (p : Pager) (es : List Entity) : (p.arrange es).length = es.length := by
  unfold arrange sortEntities
  split <;> simp

theorem length_pos_of_not_endsWith {p : Pager} {page : Page RowResult} (h : p.endsWith page = false) :
    0 < page.rows.length := by
  unfold endsWith at h
  split at h
  · simp only [Bool.or_eq_false_iff, beq_eq_false_iff_ne] at h
    omega
  · simp only [Bool.or_eq_false_iff, beq_eq_false_iff_ne, decide_eq_false_iff_not] at h
    omega

@[simp]
theorem budget_exhaust (p : Pager) : p.exhaust.budget = 0 := if_pos rfl

theorem budget_accept_lt {p : Pager} {page : Page RowResult} (hs : p.state ≠ .exhausted)
    (hp : p.pending = none) (h : (p.accept page).rows = []) :
    (p.accept page).pager.budget < p.budget := by
  have hb : p.budget = 2 + (p.query.skip - p.skipped) := by simp [budget, hs, hp]
  rw [hb]
  unfold accept at h ⊢
  dsimp only at h ⊢
  generalize hk : ((p.arrange (splitRows page.rows).1).drop
    (p.toDrop (p.arrange (splitRows page.rows).1).length)) = kept at h ⊢
  cases hl : p.reachesLimit kept.length with
  | true =>
    simp only [if_true, Bool.true_or, budget_exhaust]
    omega
  | false =>
    simp only [hl, Bool.false_eq_true, if_false, Bool.false_or] at h ⊢
    cases hf : (splitRows page.rows).2 with
    | some e => simp [budget]; omega
    | none =>
      cases he : p.endsWith page with
      | true =>
        simp only [if_true, budget_exhaust]
        omega
      | false =>
        simp only [hf, he, Bool.false_eq_true, if_false] at h ⊢
        have hn := length_pos_of_not_endsWith he
        have hlen := splitRows_length hf
        have hd := congrArg List.length hk
        rw [h] at hd
        simp only [List.length_drop, length_arrange, List.length_nil] at hd
        simp only [budget, length_arrange, hp, toDrop] at hd ⊢
        split at hd
        · simp [*]
          omega
        · omega

def logStart {σ : Type} (p : Pager) : Step σ Unit :=
  if p.state = .fresh then Step.emit p.startEntry else pure ()

/-- The answer to a call, and the pager after it. -/
structure Turn where
  answer : Except QueryError (Option (List Entity))
  pager : Pager

/-- An error ends the query. -/
def fail {σ : Type} (p : Pager) (e : QueryError) : Step σ Turn := do
  Step.emit (p.failedEntry e)
  return ⟨.error e, p.exhaust⟩

/-- Fetches until there is a row to deliver. Without an answer the query has ended. -/
def nextPage {σ : Type} (source : Source σ) (p : Pager) : Step σ Turn :=
  if hs : p.state = .exhausted then pure ⟨.ok none, p⟩
  else match hp : p.pending with
    | some e => p.fail e
    | none => do
      p.logStart
      match ← source.fetch p.query p.cursor p.window with
      | .error e => p.fail e
      | .ok page =>
        let delivery := { p with state := .inFlight }.accept page
        delivery.log.forM Step.emit
        if delivery.rows = [] then nextPage source delivery.pager
        else return ⟨.ok (some delivery.rows), delivery.pager⟩
termination_by p.budget
decreasing_by
  have hb : ({ p with state := .inFlight } : Pager).budget = p.budget := by simp [budget, hs]
  rw [← hb]
  exact budget_accept_lt (by simp) hp (by assumption)

end Pager

end StoreQuery
