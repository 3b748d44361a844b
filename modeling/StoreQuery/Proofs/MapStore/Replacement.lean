import StoreQuery.Proofs.MapStore.Expiry
import StoreQuery.Proofs.MapStore.Identity
import StoreQuery.Proofs.MapStore.KeyText
import StoreQuery.Proofs.Value.Order
/-!
What a write replaces. The entry whose key has the same text goes, and every other entry stays, so what a
select by the key finds next to the new entry are keys that compare equal and have another text.
-/
namespace StoreQuery.MapStore

/-- With increasing keys, an entry takes the place of the one with its key and of no other. -/
theorem Shelf.mem_put_iff {s : Shelf} (h : s.Increasing) {d e : Entry} :
    e ∈ s.put d ↔ e = d ∨ (e ∈ s ∧ e.record.key ≠ d.record.key) := by
  have hmem : ∀ {t : Shelf}, t.Increasing → (e ∈ t ↔ t.find? e.record.key = some e) := by
    intro t ht
    rw [find?_eq_some_iff ht]
    exact (and_iff_left rfl).symm
  rw [hmem (increasing_put h d), find?_put]
  by_cases hkey : e.record.key = d.record.key
  · rw [if_pos hkey, Option.some_inj, @eq_comm _ d]
    exact ⟨.inl, fun h => h.resolve_right fun hother => hother.2 hkey⟩
  · rw [if_neg hkey, ← hmem h]
    refine ⟨fun he => .inr ⟨he, hkey⟩, ?_⟩
    rintro (rfl | ⟨he, -⟩)
    · exact (hkey rfl).elim
    · exact he

def Call.Keeps : Call → Prop
  | .delete _ => False
  | _ => True

inductive Call.Writes : Call → Entity → Option TimeToLive → Prop where
  | insert (identifier : String) {f : Entity} (valid : f.Valid) (ttl : Option TimeToLive) :
      Writes (.insert identifier f valid ttl) f ttl
  | update {f : Entity} (valid : f.Valid) : Writes (.update f valid) f none

namespace Bucket

variable {b : Bucket} {c : Call} {f : Entity} {ttl : Option TimeToLive} {v : Value} {r : Record}

theorem perform_of_writes [RegexEngine] (h : c.Writes f ttl) (hv : f.get? b.keyAttribute = some v)
    (s : Store) :
    b.perform s c = ((b.store Store.service f ttl).run.run s).state := by
  cases h with
  | insert identifier valid ttl =>
    have hcontains : f.contains b.keyAttribute = true := by
      rw [Entity.contains, ← Option.isSome_map]
      exact Option.isSome_of_eq_some hv
    have hkey : f.withKey b.keyAttribute identifier = .ok f := if_pos hcontains
    simp only [perform, insert_eq, hkey]
    rfl
  | update valid => rfl

/-- Where nothing is taken away, every entry has its key attribute, and the text of it for its key. -/
theorem value_of_keeps [RegexEngine] {calls : List Call} (hcalls : ∀ c ∈ calls, c.Keeps)
    {map : String} {e : Entry}
    (he : e ∈ (b.after calls).shelf map) : ∃ v, e.record.value? b.keyAttribute = some v ∧
      keyText b.keyAttribute v = .ok e.record.key := by
  cases hv : e.record.value? b.keyAttribute with
  | some v => exact ⟨v, rfl, b.keyed_after calls map e he v hv⟩
  | none =>
    obtain ⟨before, d, later, rfl, -⟩ := exists_strips he hv
    exact (hcalls (.delete d) (List.mem_append_right _ List.mem_cons_self)).elim

end Bucket

theorem Record.key_of_ofEntity {k key : String} {f : Entity} {v : Value} {r : Record}
    (hv : f.get? k = some v) (hkey : keyText k v = .ok key) (h : Record.ofEntity k f = .ok r) :
    r.key = key := by
  obtain ⟨hentity, w, hw, htext⟩ := of_ofEntity h
  rw [← get?_entity f.name, hentity, hv] at hw
  cases hw
  rw [hkey] at htext
  exact (Except.ok.inj htext).symm

theorem compare?_self {v : Value} (hv : v.IsScalar) : v.compare? v = some .eq := by
  rw [SortPlace.compare?_of_rank_eq hv hv rfl, Std.compare_self]

/-- A key that compares with something is no NaN. -/
theorem isScalar_of_compare? {k key : String} {v w : Value} {o : Ordering} (hkey : keyText k v = .ok key)
    (h : v.compare? w = some o) : v.IsScalar := by
  rcases Value.scalar_or_sequence h with hv | ⟨items, rfl⟩
  · exact hv
  · cases hkey

/-- A select by a key finds what compares equal to it. -/
theorem predicate_of_key [RegexEngine] {k key : String} {v : Value} (hkey : keyText k v = .ok key) :
    ∃ p, Predicate.of (some (.leaf ⟨k, .equal, v⟩)) = .ok p ∧
      ∀ r, p.test r = true ↔ ∃ w, r.value? k = some w ∧ w.compare? v = some .eq := by
  have hfault : entityFault k v.hasEntity = none := by
    cases v with
    | sequence items => cases hkey
    | entity e => cases hkey
    | _ => rfl
  exact (verdict_compare .equal (c := ⟨k, .equal, v⟩) fun _ => Iff.rfl).ok hfault

/-- A write of an entity with a key, through the bucket that has made all calls before it. -/
structure Writing where
  bucket : Bucket
  calls : List Call
  call : Call
  entity : Entity
  ttl : Option TimeToLive
  value : Value
  key : String

namespace Writing

section

variable (x : Writing)

structure Valid : Prop where
  keeps : ∀ c ∈ x.calls, c.Keeps
  writes : x.call.Writes x.entity x.ttl
  keyed : x.entity.get? x.bucket.keyAttribute = some x.value
  text : keyText x.bucket.keyAttribute x.value = .ok x.key

def found [RegexEngine] : Store := x.bucket.after x.calls

def left [RegexEngine] : Store := x.bucket.perform x.found x.call

def entry [RegexEngine] (r : Record) : Entry := ⟨r, x.ttl.map (deadlineOf x.found.clock)⟩

/-- Every entry that the write finds is under the text of its key, and stays unless the text is the one
of the new key. -/
structure Replaces [RegexEngine] (r : Record) : Prop where
  reads : r.entity x.entity.name = x.entity
  elsewhere : ∀ map ≠ x.entity.name, x.left.shelf map = x.found.shelf map
  told : ∀ e ∈ x.found.live x.entity.name, ∃ v, e.record.value? x.bucket.keyAttribute = some v ∧
    keyText x.bucket.keyAttribute v = .ok e.record.key ∧
      (v.IsScalar → x.value.IsScalar → KeysTold v x.value e.record.key x.key)
  live : ∀ e, e ∈ x.left.live x.entity.name ↔
    (e = x.entry r ∧ e.isLive x.found.clock) ∨
      (e ∈ x.found.live x.entity.name ∧ e.record.key ≠ x.key)

def query : Query :=
  ⟨x.entity.name, some (.leaf ⟨x.bucket.keyAttribute, .equal, x.value⟩), [], 0, 0⟩

/-- An entry whose key compares equal to the new one and has another text. -/
def Doubles (e : Entry) : Prop := ∃ v, e.record.value? x.bucket.keyAttribute = some v ∧
  v.compare? x.value = some .eq ∧ (v.OppositeZeros x.value ∨ v.Inexact x.value)

end

variable {x : Writing} {r : Record}

theorem left_of_ok [RegexEngine] (hx : x.Valid)
    (h : Record.ofEntity x.bucket.keyAttribute x.entity = .ok r) (htime : InTime x.found.clock x.ttl) :
    x.left = x.found.set x.entity.name ((x.found.shelf x.entity.name).put (x.entry r)) :=
  (Bucket.perform_of_writes hx.writes hx.keyed _).trans
    (Bucket.run_store h (Store.deadline?_of_inTime htime)).2

theorem replaces [RegexEngine] (hx : x.Valid)
    (h : Record.ofEntity x.bucket.keyAttribute x.entity = .ok r) (htime : InTime x.found.clock x.ttl) :
    x.Replaces r := by
  have hsound : x.found.Sound := Store.sound_of_reachable (x.bucket.reachable_after x.calls)
  have hleft := left_of_ok hx h htime
  have hkey : r.key = x.key := Record.key_of_ofEntity hx.keyed hx.text h
  constructor
  · exact (Record.of_ofEntity h).1
  · intro map hmap
    rw [hleft, Store.shelf_set, if_neg hmap]
  · intro e he
    obtain ⟨v, hv, htext⟩ := Bucket.value_of_keeps hx.keeps (List.mem_filter.mp he).1
    exact ⟨v, hv, htext, fun hscalar hnew => keysTold hscalar hnew htext hx.text⟩
  · intro e
    have hput : e ∈ x.left.live x.entity.name ↔
        e ∈ (x.found.shelf x.entity.name).put (x.entry r) ∧ e.isLive x.found.clock := by
      rw [hleft, Store.live, Store.shelf_set, if_pos rfl]
      exact List.mem_filter
    rw [hput, Shelf.mem_put_iff (hsound.increasing _), or_and_right, Store.live, List.mem_filter,
      and_right_comm, ← hkey]
    rfl

theorem entry_isLive [RegexEngine] (hlasts : ∀ t ∈ x.ttl, 0 < t.toNanos) (r : Record) :
    (x.entry r).isLive x.found.clock = true := by
  rw [Entry.isLive, entry]
  cases httl : x.ttl with
  | none => rfl
  | some t =>
    have hpos := hlasts t httl
    rw [Option.map_some, Option.all_some, decide_eq_true_eq, ← Store.add_toNanos]
    omega

/-- An entry that stays and compares equal is under another text. -/
theorem Replaces.doubles [RegexEngine] (hx : x.Replaces r) (hscalar : x.value.IsScalar) {e : Entry}
    (he : e ∈ x.found.live x.entity.name) (hkey : e.record.key ≠ x.key)
    (hfound : ∃ w, e.record.value? x.bucket.keyAttribute = some w ∧ w.compare? x.value = some .eq) :
    x.Doubles e := by
  obtain ⟨v, hv, htext, htold⟩ := hx.told e he
  obtain ⟨w, hw, hequal⟩ := hfound
  obtain rfl : v = w := Option.some.inj (hv.symm.trans hw)
  refine ⟨v, hv, hequal, ?_⟩
  have hkeys := htold (isScalar_of_compare? htext hequal) hscalar
  by_contra hnone
  rw [not_or] at hnone
  have hone : ¬ v.OneText x.value := by
    intro hone
    rw [hkeys.spelled hone] at hequal
    cases hequal
  exact hkey ((hkeys.equal hone hnone.1 hnone.2 fun hleap => hkeys.leapt hleap hequal).mpr hequal)

theorem reachable_left [RegexEngine] (x : Writing) : x.left.Reachable :=
  (x.bucket.reachable_after x.calls).next (x.bucket.use_perform _ x.call)

/-- Next to the new entry a select by its key finds those that double it. -/
theorem answers_of_key [RegexEngine] (hx : x.Valid)
    (h : Record.ofEntity x.bucket.keyAttribute x.entity = .ok r) (htime : InTime x.found.clock x.ttl)
    (hscalar : x.value.IsScalar) (hlasts : ∀ t ∈ x.ttl, 0 < t.toNanos) :
    ∃ p, Predicate.of x.query.condition = .ok p ∧ ∃ before later,
      answersOf none p (x.left.live x.entity.name) = before ++ r :: later ∧
        ∀ d ∈ before ++ later, ∃ e ∈ x.found.live x.entity.name, x.Doubles e ∧ e.record = d := by
  have hreplaces := replaces hx h htime
  obtain ⟨p, hp, htest⟩ := predicate_of_key hx.text
  have hnew : r ∈ answersOf none p (x.left.live x.entity.name) := by
    have hentry := (hreplaces.live (x.entry r)).mpr (.inl ⟨rfl, entry_isLive hlasts r⟩)
    refine mem_answersOf.mpr ⟨x.entry r, hentry, rfl, (htest r).mpr ⟨x.value, ?_, compare?_self hscalar⟩⟩
    rw [← get?_entity x.entity.name, hreplaces.reads, hx.keyed]
  obtain ⟨before, later, hanswers⟩ := List.append_of_mem hnew
  refine ⟨p, hp, before, later, hanswers, ?_⟩
  intro d hd
  have hother : d.key ≠ r.key := by
    have hordered := (Store.sound_of_reachable x.reachable_left).increasing
    have hkeys := keys_nodup_answersOf hordered x.entity.name none p
    rw [hanswers, (List.perm_middle.map Record.key).nodup_iff, List.map_cons, List.nodup_cons] at hkeys
    exact fun heq => hkeys.1 (heq ▸ List.mem_map_of_mem hd)
  have hin : d ∈ answersOf none p (x.left.live x.entity.name) := by
    rw [hanswers]
    exact ((List.sublist_cons_self r later).append_left before).subset hd
  obtain ⟨e, he, rfl, hfound⟩ := mem_answersOf.mp hin
  rcases (hreplaces.live e).mp he with ⟨rfl, -⟩ | ⟨hold, hne⟩
  · exact (hother rfl).elim
  · exact ⟨e, hold, hreplaces.doubles hscalar hold hne ((htest _).mp hfound), rfl⟩

/-- What a session yields of the whole collection by the new key, while nothing in it expires. -/
def Selects [RegexEngine] (x : Writing) (r : Record) (session : Session Timed)
    (clock : Nat → Nat) : Prop :=
  ∃ t before later, session.stream x.query = .ok (x.bucket.source (Timed.service clock), t) ∧
    (∀ d ∈ before ++ later, ∃ e ∈ x.found.live x.entity.name, x.Doubles e ∧ e.record = d) ∧
    ∀ n, ((t.take (x.bucket.source (Timed.service clock)) n).run ⟨x.left, 0⟩).answer.1 =
      ((before ++ r :: later).map fun d => .ok (d.entity x.entity.name)).take n

theorem selects [RegexEngine] (hx : x.Valid)
    (h : Record.ofEntity x.bucket.keyAttribute x.entity = .ok r) (htime : InTime x.found.clock x.ttl)
    (hscalar : x.value.IsScalar) (hlasts : ∀ t ∈ x.ttl, 0 < t.toNanos) {session : Session Timed}
    {clock : Nat → Nat} (hpast : ∀ k, x.left.clock ≤ clock k)
    (hlive : ∀ k, ∀ e ∈ x.left.live x.entity.name, e.isLive (clock k) = true)
    (hsource : session.sourceFor x.entity.name = .ok (x.bucket.source (Timed.service clock)))
    (hsize : (x.left.shelf x.entity.name).length < 2 ^ 64) : x.Selects r session clock := by
  obtain ⟨p, hp, before, later, hanswers, hdoubles⟩ := answers_of_key hx h htime hscalar hlasts
  have hsorts : x.query.sorts.length ≤ 1 := Nat.zero_le 1
  obtain ⟨t, hstream, htake⟩ := stream_of_arrivals (q := x.query) x.reachable_left hpast hlive hsource
    hp hsize (arrives_take hsorts _ session.pageSize)
  refine ⟨t, before, later, hstream, hdoubles, fun n => ?_⟩
  have hitems : capped x.query.limit (((answersOf none p (x.left.live x.entity.name)).map
      (Record.entity x.entity.name)).drop x.query.skip) =
        (before ++ r :: later).map (Record.entity x.entity.name) := by
    rw [hanswers]
    exact capped_zero _
  rw [htake n, List.take_length]
  exact congrArg (List.take n) ((congrArg (List.map Except.ok) hitems).trans (List.map_map ..))

end Writing

end StoreQuery.MapStore
