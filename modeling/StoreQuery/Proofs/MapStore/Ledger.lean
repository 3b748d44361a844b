import StoreQuery.Proofs.MapStore.Requests
/-!
A ledger says which entry was last put under each key of each map. It has no shelves to tidy up: at any
time the entries are seen that have no deadline or one still to come, and every operation works on
these alone.
-/
namespace StoreQuery.MapStore

inductive Operation where
  | put (map : String) (r : Record) (ttl : Option TimeToLive)
  | query (q : MapQuery)
  | get (map key : String)
  | contains (map key : String)
  | size (map : String)
  | removeMatching (map : String) (p : Predicate)
  | removeFields (map : String) (p : Predicate) (names : List String)

inductive MapAnswer where
  | done
  | page (rows : Page Record)
  | record (r : Option Record)
  | present (b : Bool)
  | count (n : Nat)

def Operation.map : Operation → String
  | .put map _ _ | .get map _ | .contains map _ | .size map => map
  | .query q => q.map
  | .removeMatching map _ | .removeFields map _ _ => map

def Operation.Puts (map key : String) : Operation → Prop
  | .put m r _ => m = map ∧ r.key = key
  | _ => False

def Record.loses (r : Record) (names : List String) : Bool :=
  (r.without names).fields.length < r.fields.length

/-- An entry is seen if it has no deadline, or one that is still to come. -/
def Entry.Lasts (now : Nat) (e : Entry) : Prop :=
  e.deadline = none ∨ ∃ t, e.deadline = some t ∧ now < t

theorem Entry.isLive_iff {now : Nat} {e : Entry} : e.isLive now = true ↔ e.Lasts now := by
  obtain ⟨record, deadline⟩ := e
  cases deadline <;> simp [Entry.isLive, Entry.Lasts]

instance (now : Nat) (e : Entry) : Decidable (e.Lasts now) := decidable_of_iff _ Entry.isLive_iff

def deadlineOf (now : Nat) (ttl : TimeToLive) : Nat :=
  now + (1000000000 * ttl.seconds.toNat + ttl.nanos)

/-- The clock, whose seconds are counted in 63 bits, gets to the deadline. -/
def InTime (now : Nat) (ttl : Option TimeToLive) : Prop :=
  ∀ t ∈ ttl, deadlineOf now t < 9223372036854775808 * 1000000000

def Operation.Fits (now : Nat) : Operation → Prop
  | .put _ _ ttl => InTime now ttl
  | _ => True

def Ledger : Type := String → String → Option Entry

namespace Ledger

def empty : Ledger := fun _ _ => none

def seenAt (l : Ledger) (now : Nat) : Ledger := fun map key => (l map key).filter (Entry.Lasts now)

def after (l : Ledger) (now : Nat) (op : Operation) : Ledger := fun map key =>
  match op with
  | .put m r ttl =>
    if map = m ∧ key = r.key then some ⟨r, ttl.map (deadlineOf now)⟩ else l map key
  | .removeMatching m p =>
    if map = m then (l map key).filter fun e => !Predicate.test e.record p else l map key
  | .removeFields m p names =>
    if map = m then (l map key).map fun e =>
      if Predicate.test e.record p then { e with record := e.record.without names } else e
    else l map key
  | _ => l map key

def Lists (l : Ledger) (map : String) (entries : List Entry) : Prop :=
  Shelf.Increasing entries ∧ ∀ e, e ∈ entries ↔ l map e.record.key = some e

inductive Answers (l : Ledger) : Operation → MapAnswer → Prop where
  | put {map : String} {r : Record} {ttl : Option TimeToLive} : Answers l (.put map r ttl) .done
  | query {q : MapQuery} {entries : List Entry} : l.Lists q.map entries →
      Answers l (.query q) (.page (Store.pageOf q (answersOf q.orderBy q.predicate entries)))
  | get {map key : String} : Answers l (.get map key) (.record ((l map key).map Entry.record))
  | contains {map key : String} : Answers l (.contains map key) (.present (l map key).isSome)
  | size {map : String} {entries : List Entry} : l.Lists map entries →
      Answers l (.size map) (.count entries.length)
  | removeMatching {map : String} {p : Predicate} {entries : List Entry} : l.Lists map entries →
      Answers l (.removeMatching map p) (.count (entries.countP fun e => Predicate.test e.record p))
  | removeFields {map : String} {p : Predicate} {names : List String} {entries : List Entry} :
      l.Lists map entries →
      Answers l (.removeFields map p names)
        (.count (entries.countP fun e => Predicate.test e.record p && e.record.loses names))

/-- Operations one after the other, each at its time and on what is seen then, with their answers. -/
inductive Run : Ledger → List (Nat × Operation) → List MapAnswer → Prop where
  | nil {l : Ledger} : Run l [] []
  | cons {l : Ledger} {now : Nat} {op : Operation} {ops : List (Nat × Operation)} {a : MapAnswer}
      {as : List MapAnswer} : Answers (l.seenAt now) op a → Run ((l.seenAt now).after now op) ops as →
      Run l ((now, op) :: ops) (a :: as)

variable {l : Ledger} {map key : String} {s t now : Nat}

theorem seenAt_eq (l : Ledger) (now : Nat) (map key : String) :
    l.seenAt now map key = (l map key).filter (Entry.isLive now) := by
  have hseen : (fun e : Entry => decide (e.Lasts now)) = Entry.isLive now := by
    funext e
    rw [Bool.eq_iff_iff, decide_eq_true_iff, Entry.isLive_iff]
  rw [seenAt, hseen]

theorem lasts_mono {e : Entry} (h : s ≤ t) (he : e.Lasts t) : e.Lasts s := by
  rcases he with hnone | ⟨deadline, hdeadline, hlt⟩
  · exact .inl hnone
  · exact .inr ⟨deadline, hdeadline, by omega⟩

/-- What is seen later was seen before. -/
theorem seenAt_seenAt (h : s ≤ t) : (l.seenAt s).seenAt t = l.seenAt t := by
  funext map key
  simp only [seenAt, Option.filter_filter]
  congr 1
  funext e
  by_cases ht : e.Lasts t
  · simp [ht, lasts_mono h ht]
  · simp [ht]

/-- There is only one list of the entries of a map. -/
theorem Lists.unique {entries others : List Entry} (h : l.Lists map entries)
    (hother : l.Lists map others) : entries = others := by
  have hirrefl : ∀ {es : Shelf}, es.Increasing → es.Nodup := by
    intro es hes
    apply hes.imp
    rintro e _ hlt rfl
    simp at hlt
  have hperm : entries.Perm others := by
    rw [List.perm_ext_iff_of_nodup (hirrefl h.1) (hirrefl hother.1)]
    intro e
    rw [h.2, hother.2]
  apply hperm.eq_of_pairwise _ h.1 hother.1
  intro e f _ _ hef hfe
  simp only [Std.OrientedCmp.gt_of_lt hef] at hfe
  cases hfe

theorem after_elsewhere (l : Ledger) (now : Nat) {op : Operation} (h : map ≠ op.map) :
    l.after now op map key = l map key := by
  cases op with
  | put m r ttl =>
    have hne : ¬(map = m ∧ key = r.key) := fun heq => h heq.1
    exact if_neg hne
  | removeMatching m p => exact if_neg h
  | removeFields m p names => exact if_neg h
  | _ => rfl

theorem Answers.unique {op : Operation} {a b : MapAnswer} (ha : l.Answers op a)
    (hb : l.Answers op b) : a = b := by
  cases ha with
  | put =>
    cases hb
    rfl
  | get =>
    cases hb
    rfl
  | contains =>
    cases hb
    rfl
  | query h =>
    cases hb with
    | query hother => rw [h.unique hother]
  | size h =>
    cases hb with
    | size hother => rw [h.unique hother]
  | removeMatching h =>
    cases hb with
    | removeMatching hother => rw [h.unique hother]
  | removeFields h =>
    cases hb with
    | removeFields hother => rw [h.unique hother]

theorem Run.unique {ops : List (Nat × Operation)} {as bs : List MapAnswer} (ha : l.Run ops as)
    (hb : l.Run ops bs) : as = bs := by
  induction ha generalizing bs with
  | nil =>
    cases hb
    rfl
  | cons hanswer _ ih =>
    cases hb with
    | cons hother hrest => rw [hanswer.unique hother, ih hrest]

end Ledger

end StoreQuery.MapStore
