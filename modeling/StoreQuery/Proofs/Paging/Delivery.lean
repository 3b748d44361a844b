import StoreQuery.Proofs.Paging.Rows
/-!
What one page does to a pager. Of the entities that arrived so far, those past the skipped ones and
within the limit are due; every page delivers what it adds to them.
-/
namespace StoreQuery.Pager

variable {p q : Pager} {page : Page RowResult} {arrived : List Entity}

def arriving (p : Pager) (page : Page RowResult) : List Entity := p.arrange (converted page.rows)

def kept (p : Pager) (page : Page RowResult) : List Entity :=
  (p.arriving page).drop (p.toDrop (p.arriving page).length)

def fills (p : Pager) (page : Page RowResult) : Bool := p.reachesLimit (p.kept page).length

/-- How many entities are skipped here rather than by the store. -/
def engineSkip (p : Pager) : Nat := if p.profile.skipsClientSide then p.query.skip else 0

def due (p : Pager) (arrived : List Entity) : List Entity :=
  capped p.query.limit (arrived.drop p.engineSkip)

def startSize (profile : Profile) (pageSize : Nat) : Nat :=
  if profile.strategy = .stateless ∧ pageSize = 0 then statelessPageSize else pageSize

theorem eq_of_new {profile : Profile} {query : Query} {pageSize : Nat}
    (h : new profile query pageSize = .ok p) :
    p = { profile := profile, query := query, pageSize := startSize profile pageSize } := by
  simp only [new] at h
  split at h
  · split at h
    · cases h
    · cases h
      rfl
  · cases h
    rfl

theorem rows_accept (p : Pager) (page : Page RowResult) :
    (p.accept page).rows =
      if p.fills page then (p.kept page).take p.remaining else p.kept page := by
  simp only [accept, fills, kept, arriving]
  rw [splitRows_eq]
  dsimp only
  split
  · rfl
  · split <;> rfl

theorem skipped_accept (p : Pager) (page : Page RowResult) :
    (p.accept page).pager.skipped = p.skipped + p.toDrop (p.arriving page).length := by
  simp only [accept, arriving]
  rw [splitRows_eq]
  dsimp only
  split
  · rfl
  · split <;> rfl

theorem emitted_accept (p : Pager) (page : Page RowResult) :
    (p.accept page).pager.emitted = p.emitted + (p.accept page).rows.length := by
  simp only [accept]
  split
  · rfl
  · split <;> rfl

theorem received_accept (p : Pager) (page : Page RowResult) :
    (p.accept page).pager.received = cappedAdd p.received page.rows.length := by
  simp only [accept]
  split
  · rfl
  · split <;> rfl

/-- With one sort key at most, or where the store sorts, pages count as they come. -/
theorem arriving_of_sorted (h : p.query.sorts.length ≤ 1 ∨ p.profile.sort ≠ .pageSort)
    (page : Page RowResult) : p.arriving page = converted page.rows := by
  simp only [arriving, arrange]
  rw [if_neg]
  rintro ⟨hsort, hmany⟩
  rcases h with h | h
  · omega
  · exact h hsort

theorem arriving_of_pageSort (hsort : p.profile.sort = .pageSort) (hmany : 1 < p.query.sorts.length)
    (page : Page RowResult) : p.arriving page = sortEntities p.query.sorts (converted page.rows) := by
  simp only [arriving, arrange]
  rw [if_pos ⟨hsort, hmany⟩]

theorem accept_keeps (p : Pager) (page : Page RowResult) :
    (p.accept page).pager.profile = p.profile ∧ (p.accept page).pager.query = p.query ∧
      (p.accept page).pager.pageSize = p.pageSize := by
  simp only [accept]
  split
  · exact ⟨rfl, rfl, rfl⟩
  · split <;> exact ⟨rfl, rfl, rfl⟩

/-- The end is reached at the limit, at a row that failed, or where the page says so; otherwise the
cursor moves on. -/
inductive Leads (p : Pager) (page : Page RowResult) (q : Pager) : Prop where
  | filled : p.fills page = true → q.state = .exhausted → q.pending = none →
      q.cursor = ⟨none, true⟩ → Leads p page q
  | failed (e) : p.fills page = false → failure? page.rows = some e → q.state = .hasMore →
      q.pending = some e → Leads p page q
  | ended : p.fills page = false → failure? page.rows = none → p.endsWith page = true →
      q.state = .exhausted → q.pending = none → q.cursor = ⟨none, true⟩ → Leads p page q
  | more : p.fills page = false → failure? page.rows = none → p.endsWith page = false →
      q.state = .hasMore → q.pending = p.pending →
      (p.profile.strategy = .statefulCursor → q.cursor = p.cursor.advance page.continuation) →
      (p.profile.strategy = .stateless → q.cursor = p.cursor) → Leads p page q

theorem accept_leads (p : Pager) (page : Page RowResult) :
    Leads p page (p.accept page).pager := by
  have hfills : p.reachesLimit ((p.arrange (splitRows page.rows).1).drop
      (p.toDrop (p.arrange (splitRows page.rows).1).length)).length = p.fills page := by
    rw [splitRows_eq]
    rfl
  have hfailure : (splitRows page.rows).2 = failure? page.rows := by rw [splitRows_eq]
  simp only [accept]
  rw [hfills, hfailure]
  cases hf : p.fills page with
  | true => exact .filled hf rfl rfl rfl
  | false =>
    cases he : failure? page.rows with
    | some e => exact .failed e hf he rfl rfl
    | none =>
      cases hend : p.endsWith page with
      | true => exact .ended hf he hend rfl rfl rfl
      | false =>
        refine .more hf he hend rfl rfl ?_ ?_
        · intro hs
          simp [hs]
        · intro hs
          simp [hs]

theorem accept_of_more (hfills : p.fills page = false) (hclean : failure? page.rows = none)
    (hends : p.endsWith page = false) :
    (p.accept page).pager.state = .hasMore ∧ (p.accept page).pager.pending = p.pending ∧
      (p.profile.strategy = .statefulCursor →
        (p.accept page).pager.cursor = p.cursor.advance page.continuation) := by
  cases accept_leads p page with
  | filled hfull =>
    rw [hfills] at hfull
    cases hfull
  | failed e _ hfail =>
    rw [hclean] at hfail
    cases hfail
  | ended _ _ hlast =>
    rw [hends] at hlast
    cases hlast
  | more _ _ _ hstate hpend hcursor => exact ⟨hstate, hpend, hcursor⟩

def Room (p : Pager) (arrived : List Entity) : Prop :=
  p.query.limit = 0 ∨ (arrived.drop p.engineSkip).length < p.query.limit

structure Tracks (p : Pager) (arrived : List Entity) : Prop where
  skipped : p.skipped = min p.engineSkip arrived.length
  emitted : p.emitted = (p.due arrived).length

theorem due_accept (p : Pager) (page : Page RowResult) (arrived : List Entity) :
    (p.accept page).pager.due arrived = p.due arrived := by
  obtain ⟨hprofile, hquery, _⟩ := accept_keeps p page
  simp only [due, engineSkip, hprofile, hquery]

theorem room_accept (p : Pager) (page : Page RowResult) (arrived : List Entity) :
    (p.accept page).pager.Room arrived ↔ p.Room arrived := by
  obtain ⟨hprofile, hquery, _⟩ := accept_keeps p page
  simp only [Room, engineSkip, hprofile, hquery]

theorem due_of_room (h : p.Room arrived) : p.due arrived = arrived.drop p.engineSkip := by
  rcases h with h | h
  · simp only [due, h, capped_zero]
  · simp only [due]
    rw [capped_of_pos (by omega)]
    exact List.take_of_length_le (Nat.le_of_lt h)

theorem toDrop_eq (h : p.Tracks arrived) (n : Nat) :
    p.toDrop n = min (p.engineSkip - arrived.length) n := by
  have hs := h.skipped
  simp only [toDrop]
  simp only [engineSkip] at hs ⊢
  by_cases hc : p.profile.skipsClientSide = true
  · simp only [hc, if_true] at hs ⊢
    omega
  · simp [hc]

theorem drop_append_arriving (h : p.Tracks arrived) (page : Page RowResult) :
    (arrived ++ p.arriving page).drop p.engineSkip =
      arrived.drop p.engineSkip ++ p.kept page := by
  rw [List.drop_append]
  simp only [kept]
  rw [toDrop_eq h]
  congr 1
  by_cases hl : p.engineSkip - arrived.length ≤ (p.arriving page).length
  · rw [Nat.min_eq_left hl]
  · rw [List.drop_eq_nil_of_le (by omega), List.drop_eq_nil_of_le (by omega)]

theorem remaining_eq (h : p.Tracks arrived) (hr : p.Room arrived) :
    p.remaining = p.query.limit - (arrived.drop p.engineSkip).length := by
  simp only [remaining]
  rw [h.emitted, due_of_room hr]

theorem room_iff (h : p.Tracks arrived) (hr : p.Room arrived) (page : Page RowResult) :
    p.Room (arrived ++ p.arriving page) ↔ p.fills page = false := by
  simp only [fills, reachesLimit, Room, Query.isBounded]
  rw [remaining_eq h hr, drop_append_arriving h page, List.length_append]
  simp only [Bool.and_eq_false_iff, decide_eq_false_iff_not]
  rcases hr with hr | hr <;> omega

/-- A page delivers what it adds to what is due. -/
theorem due_append_arriving (h : p.Tracks arrived) (hr : p.Room arrived) (page : Page RowResult) :
    p.due (arrived ++ p.arriving page) = p.due arrived ++ (p.accept page).rows := by
  rw [rows_accept, due_of_room hr]
  cases hf : p.fills page with
  | true =>
    have hlimit : 0 < p.query.limit := by
      apply Nat.pos_of_ne_zero
      intro h0
      have hopen := (room_iff h hr page).mp (.inl h0)
      rw [hf] at hopen
      cases hopen
    simp only [due, capped_of_pos hlimit, if_true]
    rw [drop_append_arriving h page, List.take_append, remaining_eq h hr,
      List.take_of_length_le]
    rcases hr with hr | hr <;> omega
  | false =>
    rw [due_of_room ((room_iff h hr page).mpr hf), drop_append_arriving h page]
    rfl

theorem tracks_accept (h : p.Tracks arrived) (hr : p.Room arrived) (page : Page RowResult) :
    (p.accept page).pager.Tracks (arrived ++ p.arriving page) := by
  obtain ⟨hprofile, hquery, _⟩ := accept_keeps p page
  constructor
  · have hk : (p.accept page).pager.engineSkip = p.engineSkip := by
      simp only [engineSkip, hprofile, hquery]
    rw [skipped_accept, toDrop_eq h, h.skipped, hk, List.length_append]
    omega
  · rw [emitted_accept, due_accept, due_append_arriving h hr, List.length_append, h.emitted]

theorem Tracks.skipped_le (h : p.Tracks arrived) : p.skipped ≤ p.query.skip := by
  rw [h.skipped]
  simp only [engineSkip]
  split <;> omega

theorem Tracks.emitted_le (h : p.Tracks arrived) :
    p.query.limit = 0 ∨ p.emitted ≤ p.query.limit := by
  rw [h.emitted]
  by_cases hl : 0 < p.query.limit
  · right
    simp only [due, capped_of_pos hl]
    exact List.length_take_le _ _
  · exact .inl (Nat.eq_zero_of_not_pos hl)

end StoreQuery.Pager
