import StoreQuery.Proofs.Cql.RoundTrip
import StoreQuery.Proofs.MapStore.Reachable
import StoreQuery.Proofs.Writing.Encoding
/-!
The writes of the three stores. Each makes one call, which sends the entity that is given back, or is
refused before anything is sent.
-/
namespace StoreQuery

open Attempt (AllOrNothing KeepsOnError)

variable {σ κ : Type}

theorem Attempt.AllOrNothing.keyed {e : Entity} {key identifier : String}
    {stores : Entity → Attempt (Journal σ κ) Entity} {meant : Entity → κ → Prop} (he : e.Valid)
    (h : ∀ f, AllOrNothing (stores f) (meant f) (· = f)) :
    AllOrNothing ((liftM (e.withKey key identifier) : Attempt (Journal σ κ) Entity) >>= stores)
      (fun call => (e.keyed key identifier).Valid ∧ meant (e.keyed key identifier) call)
      (· = e.keyed key identifier) := by
  have hplanned : AllOrNothing
      ((liftM (e.withKey key identifier) : Attempt (Journal σ κ) Entity) >>= stores)
      (fun call => ∃ f, e.withKey key identifier = .ok f ∧ meant f call)
      (· = e.keyed key identifier) := by
    apply AllOrNothing.planned (e.own_withKey key identifier)
    intro f hf
    obtain ⟨rfl, -⟩ := (Entity.withKey_eq_ok_iff he).mp hf
    exact h _
  apply hplanned.congr
  intro call
  simp only [Entity.withKey_eq_ok_iff he, and_assoc, exists_eq_left]

/-- A repository whose writes are all or nothing, given what they may send. -/
structure WritesWhole (repository : Repository (Journal σ κ)) (key : String)
    (inserts : Entity → Option TimeToLive → κ → Prop) (updates : Entity → κ → Prop)
    (deletes : Deletion → κ → Prop) : Prop where
  insert : ∀ identifier e ttl, e.Valid → AllOrNothing (repository.insert identifier e ttl)
    (fun call => (e.keyed key identifier).Valid ∧ inserts (e.keyed key identifier) ttl call)
    (· = e.keyed key identifier)
  update : ∀ e, AllOrNothing (repository.update e) (updates e) (· = e)
  delete : ∀ d, AllOrNothing (repository.delete d) (deletes d) fun _ => True

namespace MapStore

inductive MapWrite where
  | put (map : String) (r : Record) (ttl : Option TimeToLive)
  | removeMatching (map : String) (p : Predicate)
  | removeFields (map : String) (p : Predicate) (names : List String)

def MapService.journaled (m : MapService σ) : MapService (Journal σ MapWrite) where
  query q := Journal.unnoted (m.query q)
  put map r ttl := Journal.noted (.put map r ttl) (m.put map r ttl)
  removeMatching map p := Journal.noted (.removeMatching map p) (m.removeMatching map p)
  removeFields map p names := Journal.noted (.removeFields map p names) (m.removeFields map p names)

namespace Bucket

def Puts (b : Bucket) (f : Entity) (ttl : Option TimeToLive) (call : MapWrite) : Prop :=
  ∃ r, Record.ofEntity b.keyAttribute f = .ok r ∧ call = .put f.name r ttl

def Removes [RegexEngine] (d : Deletion) (call : MapWrite) : Prop :=
  ∃ p, Predicate.of d.condition = .ok p ∧ call =
    if d.removesEntries then .removeMatching d.collection p
    else .removeFields d.collection p d.attributes

theorem store_allOrNothing (b : Bucket) (m : MapService σ) (f : Entity) (ttl : Option TimeToLive) :
    AllOrNothing (b.store m.journaled f ttl) (b.Puts f ttl) (· = f) := by
  apply AllOrNothing.planned (own_ofEntity b.keyAttribute f)
  intro r _
  exact (AllOrNothing.of_call (MapWrite.put f.name r ttl) (m.put f.name r ttl)).giving f

theorem writesWhole [RegexEngine] (b : Bucket) (m : MapService σ) :
    WritesWhole (b.repository m.journaled) b.keyAttribute b.Puts (b.Puts · none) Removes where
  insert identifier e ttl he := .keyed he fun f => b.store_allOrNothing m f ttl
  update e := b.store_allOrNothing m e none
  delete d := by
    apply AllOrNothing.planned (own_predicate d.condition)
    intro p _
    split
    · exact .of_call (MapWrite.removeMatching d.collection p) (m.removeMatching d.collection p)
    · exact .of_call (MapWrite.removeFields d.collection p d.attributes)
        (m.removeFields d.collection p d.attributes)

/-- A map that refuses a record stays as it was. -/
theorem store_keepsOnError (b : Bucket) (f : Entity) (ttl : Option TimeToLive) :
    KeepsOnError (b.store Store.service f ttl) := by
  apply KeepsOnError.planned
  intro r s e h
  obtain ⟨hanswer, hstate⟩ := Attempt.run_giving (.ofTransport (Store.service.put f.name r ttl)) f s
  apply hstate.trans
  change ((Store.put f.name r ttl).run s).state = s
  cases hdeadline : s.deadline? ttl with
  | error t => rw [Store.run_put_of_error hdeadline]
  | ok deadline =>
    have hput : ((Attempt.ofTransport (Store.service.put f.name r ttl)).run.run s).answer =
        ((Store.put f.name r ttl).run s).answer.mapError .transport := rfl
    rw [hput, Store.run_put hdeadline] at hanswer
    cases h.symm.trans hanswer

theorem insert_keepsOnError (b : Bucket) (identifier : String) (e : Entity)
    (ttl : Option TimeToLive) : KeepsOnError (b.insert Store.service identifier e ttl) :=
  .planned fun f => b.store_keepsOnError f ttl

theorem delete_keepsOnError [RegexEngine] (b : Bucket) (d : Deletion) :
    KeepsOnError (b.delete Store.service d) := by
  apply KeepsOnError.planned
  intro p
  split <;> exact nofun

end Bucket

end MapStore

namespace Cql

def Cluster.journaled (c : Cluster σ) : Cluster (Journal σ Write) where
  query s := Journal.unnoted (c.query s)
  execute w := Journal.noted w (c.execute w)

theorem row_get? (e : Entity) (column : String) :
    (Row.ofEntity e).get? column = (e.get? column).map Datum.ofValue := by
  obtain ⟨name, as⟩ := e
  simp only [Row.get?, Row.ofEntity, Entity.get?, Entity.find?]
  induction as with
  | nil => rfl
  | cons a as ih =>
    obtain ⟨n, v⟩ := a
    by_cases h : column = n
    · subst h
      simp [Datum.ofAttributes]
    · have hbeq : (column == n) = false := beq_false_of_ne h
      simpa [Datum.ofAttributes, List.lookup_cons, hbeq, Ne.symm h] using ih

theorem ofAttributes_filter (key : String) (as : List Attribute) :
    Datum.ofAttributes (as.filter fun a => a.name ≠ key) =
      (Datum.ofAttributes as).filter fun c => c.1 ≠ key := by
  rw [ofAttributes_eq, ofAttributes_eq, List.filter_map]
  rfl

namespace Keyspace

def Inserts (k : Keyspace) (f : Entity) (ttl : Option TimeToLive) (call : Write) : Prop :=
  f.attributes ≠ [] ∧ call =
    Insert.write ⟨k.name, f.name, (Row.ofEntity f).columns, ttl.map TimeToLive.wholeSeconds⟩

def Updates (k : Keyspace) (f : Entity) (call : Write) : Prop :=
  let others := (Row.ofEntity f).columns.filter fun c => c.1 ≠ k.keyColumn
  others ≠ [] ∧ ∃ key, (Row.ofEntity f).get? k.keyColumn = some key ∧
    call = Update.write ⟨k.name, f.name, others, ⟨k.keyColumn, .eq, key⟩⟩

def Deletes (k : Keyspace) (d : Deletion) (call : Write) : Prop :=
  ∃ c rs, d.condition = some c ∧ relations c = .ok rs ∧
    call = Delete.write ⟨k.name, d.collection, d.attributes, rs⟩

variable {k : Keyspace} {e : Entity} {d : Deletion} {ttl : Option TimeToLive} {call : Write}

theorem inserts_iff : (∃ s, k.insert e ttl = .ok s ∧ call = s.write) ↔ k.Inserts e ttl call := by
  obtain ⟨name, as⟩ := e
  cases as with
  | nil => simp [insert, Inserts, Entity.isEmpty]
  | cons a as => simp [insert, Inserts, Entity.isEmpty, Row.ofEntity]

theorem updates_iff : (∃ s, k.update e = .ok s ∧ call = s.write) ↔ k.Updates e call := by
  rw [update, Updates, row_get?, ofAttributes_filter]
  cases e.get? k.keyColumn with
  | none => simp
  | some key =>
    simp only [Row.ofEntity, Option.map_some]
    cases (Datum.ofAttributes e.attributes).filter fun c => c.1 ≠ k.keyColumn with
    | nil => simp
    | cons first rest => simp

theorem deletes_iff : (∃ s, k.delete d = .ok s ∧ call = s.write) ↔ k.Deletes d call := by
  rw [delete, Deletes]
  cases d.condition with
  | none => simp
  | some c => cases hrs : relations c <;> simp [hrs, Except.map]

theorem insert_allOrNothing (k : Keyspace) (c : Cluster σ) (f : Entity) (ttl : Option TimeToLive) :
    AllOrNothing (do
      let s ← k.insert f ttl
      let _ ← Attempt.ofTransport (c.journaled.execute s.write)
      return f) (k.Inserts f ttl) (· = f) := by
  apply AllOrNothing.congr _ fun call => inserts_iff
  apply AllOrNothing.planned (own_insert k f ttl)
  intro s _
  exact (AllOrNothing.of_call s.write (c.execute s.write)).giving f

theorem writesWhole [RegexEngine] (k : Keyspace) (c : Cluster σ) :
    WritesWhole (k.repository c.journaled) k.keyColumn k.Inserts k.Updates k.Deletes where
  insert identifier e ttl he := .keyed he fun f => k.insert_allOrNothing c f ttl
  update e := by
    apply AllOrNothing.congr _ fun call => updates_iff
    apply AllOrNothing.planned (own_update k e)
    intro s _
    exact (AllOrNothing.of_call s.write (c.execute s.write)).giving e
  delete d := by
    apply AllOrNothing.congr _ fun call => deletes_iff
    apply AllOrNothing.planned (own_delete k d)
    intro s _
    exact .of_call s.write (c.execute s.write)

end Keyspace

end Cql

namespace Search

inductive ClientWrite where
  | put (index : String) (hit : Hit)
  | deleteByQuery (request : Request)

def Client.journaled (c : Client σ) : Client (Journal σ ClientWrite) where
  search r := Journal.unnoted (c.search r)
  put index hit := Journal.noted (.put index hit) (c.put index hit)
  deleteByQuery r := Journal.noted (.deleteByQuery r) (c.deleteByQuery r)

namespace Index

def Puts (i : Index) (f : Entity) (call : ClientWrite) : Prop :=
  ∃ hit, Hit.ofEntity f = .ok hit ∧ call = .put i.name hit

def Deletes (i : Index) (d : Deletion) (call : ClientWrite) : Prop :=
  ∃ request, i.deletion d = .ok request ∧ call = .deleteByQuery request

theorem put_allOrNothing (i : Index) (c : Client σ) (f : Entity) :
    AllOrNothing (do i.putEntity c.journaled f; return f) (i.Puts f) (· = f) := by
  have hput : AllOrNothing (i.putEntity c.journaled f) (i.Puts f) fun _ => True := by
    apply AllOrNothing.planned (own_hit f)
    intro hit _
    exact .of_call (ClientWrite.put i.name hit) (c.put i.name hit)
  exact hput.giving f

theorem writesWhole [RegexEngine] (i : Index) (c : Client σ) :
    WritesWhole (i.repository c.journaled) idField (fun f ttl call => ttl = none ∧ i.Puts f call)
      (fun f call => f.contains idField ∧ i.Puts f call) i.Deletes where
  insert identifier e ttl he := by
    cases ttl with
    | none =>
      have hkeyed : AllOrNothing (i.insertEntity c.journaled identifier e none)
          (fun call => (e.keyed idField identifier).Valid ∧ i.Puts (e.keyed idField identifier) call)
          (· = e.keyed idField identifier) := .keyed he (i.put_allOrNothing c)
      exact hkeyed.congr fun call => by simp
    | some t =>
      have hrefused : cannotExpire.Own := .unsupportedQuery _ _
      exact (AllOrNothing.refuse hrefused).congr fun call => by simp
  update e := by
    change AllOrNothing (i.updateEntity c.journaled e) _ _
    rw [updateEntity]
    cases e.contains idField with
    | true => exact (i.put_allOrNothing c e).congr fun call => by simp
    | false =>
      have hrefused : (missingId e.name).Own := .invalidArgument _
      exact (AllOrNothing.refuse hrefused).congr fun call => by simp
  delete d := by
    apply AllOrNothing.planned (own_deletion i d)
    intro request _
    exact .of_call (ClientWrite.deleteByQuery request) (c.deleteByQuery request)

end Index

end Search

open MapStore Cql Search

/-- Whatever the store behind it answers, a write that fails by itself has called nothing, and any other
has made one call, which sends the encoding of the entity that it gives: the one it got, with an
identifier at the end if it had none. A store in memory is as it was after every failure. -/
theorem writes_all_or_nothing [RegexEngine] :
    (∀ (σ : Type) (b : Bucket) (m : MapService σ),
      WritesWhole (b.repository m.journaled) b.keyAttribute b.Puts (b.Puts · none) Bucket.Removes) ∧
    (∀ (σ : Type) (k : Keyspace) (c : Cluster σ),
      WritesWhole (k.repository c.journaled) k.keyColumn k.Inserts k.Updates k.Deletes) ∧
    (∀ (σ : Type) (i : Index) (c : Client σ),
      WritesWhole (i.repository c.journaled) idField (fun f ttl call => ttl = none ∧ i.Puts f call)
        (fun f call => f.contains idField ∧ i.Puts f call) i.Deletes) ∧
    ∀ b : Bucket,
      (∀ identifier e ttl, KeepsOnError (b.insert Store.service identifier e ttl)) ∧
      (∀ e, KeepsOnError (b.update Store.service e)) ∧
      ∀ d, KeepsOnError (b.delete Store.service d) := by
  refine ⟨fun _ b m => b.writesWhole m, fun _ k c => k.writesWhole c, fun _ i c => i.writesWhole c, ?_⟩
  intro b
  exact ⟨b.insert_keepsOnError, fun e => b.store_keepsOnError e none, b.delete_keepsOnError⟩

/-- An item that is stored under an identifier it did not bring. -/
theorem writes_all_or_nothing_of_unkeyed :
    let e : Entity := ⟨"items", [⟨"rank", .integer 2⟩]⟩
    let f : Entity := ⟨"items", [⟨"rank", .integer 2⟩, ⟨"id", .text "k1"⟩]⟩
    let r : Record := ⟨"k1", [("rank", .long 2), ("id", .text "k1")]⟩
    let b : Bucket := {}
    e.Valid ∧ AllOrNothing ((b.repository Store.service.journaled).insert "k1" e none)
      (· = .put "items" r none) (· = f) := by
  intro e f r b
  have he : e.Valid := ⟨by decide, by decide, by decide⟩
  have hf : f.Valid := ⟨by decide, by decide, by decide⟩
  have hkeyed : e.keyed "id" "k1" = f := rfl
  have hrecord : Record.ofEntity "id" f = .ok r := rfl
  have hinsert := (writes_all_or_nothing.1 Store b Store.service).insert "k1" e none he
  refine ⟨he, hinsert.congr fun call => ?_⟩
  change (e.keyed "id" "k1").Valid ∧ b.Puts (e.keyed "id" "k1") none call ↔ _
  rw [hkeyed]
  constructor
  · rintro ⟨-, s, hs, rfl⟩
    cases hrecord.symm.trans hs
    rfl
  · rintro rfl
    exact ⟨hf, r, hrecord, rfl⟩

end StoreQuery
