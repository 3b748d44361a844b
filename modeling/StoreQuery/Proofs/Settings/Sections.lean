import StoreQuery.Proofs.Settings.Sources
import StoreQuery.Proofs.Text.Quoted
import StoreQuery.Settings.Sections
/-!
The sections that the settings are read into. What is written as settings reads back as it was, the
defaults among it, and an error tells the key or the file that it is about.
-/
namespace StoreQuery

theorem Strategy.ofName?_name (s : Strategy) : ofName? s.name = some s := by cases s <;> decide

theorem Cql.Consistency.ofName?_name (c : Consistency) : ofName? c.name = some c := by
  cases c <;> decide +kernel

theorem Setting.asNatural?_ofNat {n : Nat} (h : n < 2 ^ 63) :
    asNatural? (.integer (Int64.ofInt n)) = some (UInt64.ofNat n) := by
  have hn : (Int64.ofInt n).toInt = n := Int64.toInt_ofInt_of_le (by omega) (by omega)
  rw [asNatural?, hn]
  exact if_pos (Int.natCast_nonneg n)

theorem Setting.asPort?_ofNat (port : UInt16) :
    asPort? (.integer (Int64.ofInt port.toNat)) = some port := by
  have hlt : port.toNat < 2 ^ 16 := port.toNat_lt
  have hport : (UInt64.ofNat port.toNat).toUInt16 = port := by
    rw [← UInt16.toNat_inj, UInt64.toNat_toUInt16, UInt64.toNat_ofNat']
    omega
  rw [asPort?, asNatural?_ofNat (by omega), Option.map_some, hport]

namespace SettingsError

/-- The key or the file that an error is about. -/
def place : SettingsError → String
  | .unreadable path _ => path
  | .malformed path _ => path
  | .invalidValue key _ => key
  | .missing key => key

theorem message_tells_place (e : SettingsError) :
    ∃ before after, e.message = before ++ e.place ++ after := by
  cases e with
  | unreadable path reason => exact ⟨_, ": " ++ reason, String.append_assoc ..⟩
  | malformed path reason => exact ⟨_, ": " ++ reason, String.append_assoc ..⟩
  | invalidValue key reason => exact ⟨_, ": " ++ reason, String.append_assoc ..⟩
  | missing key => exact ⟨_, "", (String.append_empty ..).symm⟩

end SettingsError

namespace Settings

variable {α : Type} {s : Settings} {as : Setting → Option α} {key path : String} {e : SettingsError}

section Places

theorem place_of_find? (h : s.find? key = .error e) : e.place = key := by
  rw [find?] at h
  split at h <;> cases h
  rfl

theorem place_of_read (h : s.read as key = .error e) : e.place = key := by
  unfold read at h
  split at h
  · rename_i d hd
    cases h
    exact place_of_find? hd
  · cases h
  · split at h <;> cases h
    rfl

theorem place_of_require (h : s.require key = .error e) : e.place = key := by
  rw [require] at h
  split at h <;> cases h
  rfl

theorem place_of_ofFile {content : FileContent} (h : ofFile path content = .error e) :
    e.place = path := by
  cases content with
  | text text =>
    simp only [ofFile] at h
    split at h <;> cases h
    rfl
  | _ =>
    cases h
    rfl

theorem place_of_ofMap {entries : List (String × String)} (h : ofMap entries = .error e) :
    ∃ entry ∈ entries, path? entry = none ∧ e.place = entry.1.toLower := by
  obtain ⟨entry, hmem, hfault⟩ := List.exists_of_findSome?_eq_some ((verdict_ofMap entries).error_iff.mp h)
  refine ⟨entry, hmem, ?_⟩
  rw [misplaced?] at hfault
  split at hfault
  · cases hfault
  · rename_i hnone
    cases hfault
    exact ⟨hnone, rfl⟩

end Places

section Found

variable {v : Setting}

theorem get?_of_found (h : s.find? key = .ok (some v)) : s.get? key = v.asText? := by rw [get?, h]

theorem read_of_found {a : α} (h : s.find? key = .ok (some v)) (ha : as v = some a) :
    s.read as key = .ok (some a) := by
  simp only [read, h, ha]

theorem require_of_found {t : String} (h : s.find? key = .ok (some v)) (ht : v.asText? = some t) :
    s.require key = .ok t := by
  rw [require, get?_of_found h, ht]

def listed (ts : List String) : Setting := .array (ts.map .text)

theorem enumerate_of_listed {ts : List String} (h : s.find? key = .ok (some (listed ts))) :
    s.enumerate key = ts := by
  have htexts : (ts.map Setting.text).filterMap Setting.asText? = ts := by
    rw [List.filterMap_map]
    exact List.filterMap_some
  simp only [enumerate, h, listed, Setting.asText?, htexts]

def optional (t : Option String) : Setting := (t.map .text).getD .null

theorem get?_of_optional {t : Option String} (h : s.find? key = .ok (some (optional t))) :
    s.get? key = t := by
  rw [get?_of_found h]
  cases t <;> rfl

end Found

section Numbers

variable {x : UInt64 × String} {xs : List (UInt64 × String)}

theorem perm_insertNumbered (x : UInt64 × String) (xs : List (UInt64 × String)) :
    (insertNumbered x xs).Perm (x :: xs) := by
  induction xs with
  | nil => exact .refl _
  | cons y ys ih =>
    rw [insertNumbered]
    split
    · exact .refl _
    · exact (ih.cons y).trans (.swap x y ys)

def Increasing (xs : List (UInt64 × String)) : Prop := xs.Pairwise fun x y => x.1 ≤ y.1

theorem Increasing.insertNumbered (h : Increasing xs) : Increasing (insertNumbered x xs) := by
  induction xs with
  | nil => exact List.pairwise_singleton _ _
  | cons y ys ih =>
    obtain ⟨hy, hys⟩ := List.pairwise_cons.mp h
    rw [Settings.insertNumbered]
    split
    · rename_i hlt
      refine List.pairwise_cons.mpr ⟨?_, h⟩
      intro z hz
      rcases List.mem_cons.mp hz with rfl | hz
      · exact UInt64.le_of_lt hlt
      · exact UInt64.le_trans (UInt64.le_of_lt hlt) (hy z hz)
    · rename_i hle
      refine List.pairwise_cons.mpr ⟨?_, ih hys⟩
      intro z hz
      rcases List.mem_cons.mp ((perm_insertNumbered x ys).mem_iff.mp hz) with rfl | hz
      · exact UInt64.not_lt.mp hle
      · exact hy z hz

theorem Increasing.foldl_insertNumbered {added : List (UInt64 × String)} (h : Increasing xs) :
    Increasing (added.foldl (fun sorted x => Settings.insertNumbered x sorted) xs) := by
  induction added generalizing xs with
  | nil => exact h
  | cons x added ih => exact ih h.insertNumbered

def numberedField? (f : String × Setting) : Option (UInt64 × String) := do
  return (← Decimal.uint64? f.1.toList, ← f.2.asText?)

/-- Numbered fields are taken by their numbers, in whatever order they stand in the table. -/
theorem numbered_increasing (fields : List (String × Setting)) :
    ∃ xs, numbered fields = xs.map Prod.snd ∧ Increasing xs ∧
      xs.Perm (fields.filterMap numberedField?) := by
  have hperm := perm_foldl_insert perm_insertNumbered (fields.filterMap numberedField?) []
  rw [List.append_nil] at hperm
  exact ⟨_, rfl, Increasing.foldl_insertNumbered .nil, hperm⟩

end Numbers

section Engine

theorem place_of_pageSize (h : s.pageSize = .error e) : e.place = "engine" := by
  have hfault : faultIn s.pageSize = faultIn (s.read readPageSize "engine") := faultIn_map _ _
  exact place_of_read (faultIn_eq_some.mp (hfault.symm.trans (faultIn_eq_some.mpr h)))

theorem pageSize_of_missing (h : s.find? "engine" = .ok none) : s.pageSize = .ok defaultPageSize := by
  rw [pageSize, read, h]
  rfl

def ofPageSize (n : Nat) : Settings := ⟨[("engine", .table [("page_size", .integer (Int64.ofInt n))])]⟩

theorem pageSize_ofPageSize {n : Nat} (h : n < 2 ^ 63) : (ofPageSize n).pageSize = .ok n := by
  have hread : readPageSize (.table [("page_size", .integer (Int64.ofInt n))]) = some n := by
    have hnatural := Setting.asNatural?_ofNat h
    have hn : (UInt64.ofNat n).toNat = n := by
      rw [UInt64.toNat_ofNat']
      exact Nat.mod_eq_of_lt (by omega)
    change (Setting.asNatural? _).map UInt64.toNat = _
    rw [hnatural, Option.map_some, hn]
  rw [pageSize, read_of_found (v := .table [("page_size", .integer (Int64.ofInt n))]) rfl hread]
  rfl

end Engine

end Settings

namespace MapStoreSettings

def written (m : MapStoreSettings) : Settings :=
  ⟨[("key_value", .table [("instance", .text m.instanceName), ("key", .text m.keyAttribute)])]⟩

theorem ofSettings_written (m : MapStoreSettings) : ofSettings m.written = .ok m := rfl

theorem ofSettings_of_missing {s : Settings} (h : s.find? "key_value" = .ok none) :
    ofSettings s = .ok {} := by
  rw [ofSettings, Settings.read, h]
  rfl

theorem place_of_ofSettings {s : Settings} {e : SettingsError} (h : ofSettings s = .error e) :
    e.place = "key_value" := by
  have hfault : faultIn (ofSettings s) = faultIn (s.read ofSection "key_value") := faultIn_map _ _
  exact Settings.place_of_read (faultIn_eq_some.mp (hfault.symm.trans (faultIn_eq_some.mpr h)))

end MapStoreSettings

namespace SearchSettings

def written (c : SearchSettings) : Settings :=
  ⟨[("document", .table [("host", Settings.listed c.hosts), ("index", .text c.index)])]⟩

theorem ofSettings_written (c : SearchSettings) (h : c.hosts ≠ []) : ofSettings c.written = .ok c := by
  have hhosts : c.written.enumerate "document.host" = c.hosts := Settings.enumerate_of_listed rfl
  have hindex : c.written.require "document.index" = .ok c.index := Settings.require_of_found rfl rfl
  simp [ofSettings, hhosts, hindex, h]

theorem ofSettings_of_missing {s : Settings} (hhosts : s.find? "document.host" = .ok none)
    {index : String} (hindex : s.get? "document.index" = some index) :
    ofSettings s = .ok ⟨["localhost:9200"], index⟩ := by
  have hnone : s.enumerate "document.host" = [] := by rw [Settings.enumerate, hhosts]
  have hrequire : s.require "document.index" = .ok index := by rw [Settings.require, hindex]
  rw [ofSettings, hnone, hrequire]
  rfl

theorem place_of_ofSettings {s : Settings} {e : SettingsError} (h : ofSettings s = .error e) :
    e.place = "document.index" := by
  have hfault : faultIn (ofSettings s) = faultIn (s.require "document.index") := faultIn_map _ _
  exact Settings.place_of_require (faultIn_eq_some.mp (hfault.symm.trans (faultIn_eq_some.mpr h)))

end SearchSettings

namespace CqlSettings

def written (c : CqlSettings) : Settings :=
  ⟨[("wide_column", .table [
    ("host", Settings.listed c.hosts),
    ("port", .integer (Int64.ofInt c.port.toNat)),
    ("keyspace", .text c.keyspace),
    ("user", Settings.optional c.user),
    ("password", Settings.optional c.password),
    ("name", Settings.optional c.name),
    ("data", .table [("center", Settings.optional c.dataCenter)]),
    ("allow_filtering", .boolean c.allowFiltering),
    ("query", Settings.listed c.startupQueries),
    ("strategy", .text c.strategy.name),
    ("consistency", Settings.optional (c.consistency.map Cql.Consistency.name))])]⟩

theorem faultIn_ofSettings (s : Settings) :
    faultIn (ofSettings s) =
      (faultIn (readStrategy s)).or ((faultIn (readConsistency s)).or
        ((faultIn (s.read Setting.asPort? "wide_column.port")).or
          ((faultIn (s.require "wide_column.keyspace")).or
            (faultIn (s.read Setting.asBoolean? "wide_column.allow_filtering"))))) := by
  refine faultIn_bind fun strategy => faultIn_bind fun consistency => ?_
  refine faultIn_bind fun port => faultIn_bind fun keyspace => ?_
  exact faultIn_map _ _

theorem place_of_readStrategy {s : Settings} {e : SettingsError} (h : readStrategy s = .error e) :
    e.place = "wide_column.strategy" := by
  unfold readStrategy at h
  split at h
  · cases h
  · split at h <;> cases h
    rfl

theorem place_of_readConsistency {s : Settings} {e : SettingsError}
    (h : readConsistency s = .error e) : e.place = "wide_column.consistency" := by
  unfold readConsistency at h
  split at h
  · cases h
  · split at h <;> cases h
    rfl

/-- The settings that are checked, in the order in which their faults are reported. -/
def checked : List String :=
  ["wide_column.strategy", "wide_column.consistency", "wide_column.port", "wide_column.keyspace",
    "wide_column.allow_filtering"]

theorem place_of_ofSettings {s : Settings} {e : SettingsError} (h : ofSettings s = .error e) :
    e.place ∈ checked := by
  have hfault := (faultIn_ofSettings s).symm.trans (faultIn_eq_some.mpr h)
  simp only [Option.or_eq_some_iff, faultIn_eq_some] at hfault
  rcases hfault with h | ⟨-, h | ⟨-, h | ⟨-, h | ⟨-, h⟩⟩⟩⟩
  · rw [place_of_readStrategy h]
    decide
  · rw [place_of_readConsistency h]
    decide
  · rw [Settings.place_of_read h]
    decide
  · rw [Settings.place_of_require h]
    decide
  · rw [Settings.place_of_read h]
    decide

def ofKeyspace (keyspace : String) : CqlSettings where
  hosts := ["localhost"]
  port := defaultPort
  keyspace := keyspace
  user := none
  password := none
  name := none
  dataCenter := none
  allowFiltering := false
  startupQueries := []
  strategy := .statefulCursor
  consistency := none

def optionalKeys : List String :=
  ["wide_column.host", "wide_column.port", "wide_column.user", "wide_column.password",
    "wide_column.name", "wide_column.data.center", "wide_column.allow_filtering",
    "wide_column.query", "wide_column.strategy", "wide_column.consistency"]

theorem readStrategy_written (c : CqlSettings) : readStrategy c.written = .ok c.strategy := by
  have hname : c.written.get? "wide_column.strategy" = some c.strategy.name := rfl
  simp only [readStrategy, hname, Strategy.ofName?_name]

theorem readConsistency_written (c : CqlSettings) : readConsistency c.written = .ok c.consistency := by
  have hname : c.written.get? "wide_column.consistency" =
      c.consistency.map Cql.Consistency.name := Settings.get?_of_optional rfl
  rw [readConsistency, hname]
  cases c.consistency with
  | none => rfl
  | some level => simp only [Option.map_some, Cql.Consistency.ofName?_name]

/-- Every setting passes its own check when it is written down, the defaults among them. -/
theorem ofSettings_written (c : CqlSettings) (h : c.hosts ≠ []) : ofSettings c.written = .ok c := by
  have hhosts : c.written.enumerate "wide_column.host" = c.hosts := Settings.enumerate_of_listed rfl
  have hport : c.written.read Setting.asPort? "wide_column.port" = .ok (some c.port) :=
    Settings.read_of_found rfl (Setting.asPort?_ofNat c.port)
  have hkeyspace : c.written.require "wide_column.keyspace" = .ok c.keyspace :=
    Settings.require_of_found rfl rfl
  have hfiltering : c.written.read Setting.asBoolean? "wide_column.allow_filtering" =
      .ok (some c.allowFiltering) := Settings.read_of_found rfl rfl
  have huser : c.written.get? "wide_column.user" = c.user := Settings.get?_of_optional rfl
  have hpassword : c.written.get? "wide_column.password" = c.password := Settings.get?_of_optional rfl
  have hname : c.written.get? "wide_column.name" = c.name := Settings.get?_of_optional rfl
  have hcenter : c.written.get? "wide_column.data.center" = c.dataCenter :=
    Settings.get?_of_optional rfl
  have hqueries : c.written.enumerate "wide_column.query" = c.startupQueries :=
    Settings.enumerate_of_listed rfl
  rw [ofSettings, readStrategy_written, readConsistency_written, hport, hkeyspace, hfiltering, hhosts,
    huser, hpassword, hname, hcenter, hqueries, List.isEmpty_eq_false_iff.mpr h]
  rfl

/-- What is not set has its default. -/
theorem ofSettings_of_missing {s : Settings} {keyspace : String}
    (hkeyspace : s.get? "wide_column.keyspace" = some keyspace)
    (h : ∀ key ∈ optionalKeys, s.find? key = .ok none) : ofSettings s = .ok (ofKeyspace keyspace) := by
  have hget : ∀ key ∈ optionalKeys, s.get? key = none := by
    intro key hkey
    rw [Settings.get?, h key hkey]
  have hlist : ∀ key ∈ optionalKeys, s.enumerate key = [] := by
    intro key hkey
    rw [Settings.enumerate, h key hkey]
  have hread {α : Type} (as : Setting → Option α) :
      ∀ key ∈ optionalKeys, s.read as key = .ok none := by
    intro key hkey
    rw [Settings.read, h key hkey]
  have hrequire : s.require "wide_column.keyspace" = .ok keyspace := by
    rw [Settings.require, hkeyspace]
  rw [ofSettings, readStrategy, readConsistency]
  rw [hget "wide_column.strategy" (by decide), hget "wide_column.consistency" (by decide),
    hget "wide_column.user" (by decide), hget "wide_column.password" (by decide),
    hget "wide_column.name" (by decide), hget "wide_column.data.center" (by decide),
    hlist "wide_column.host" (by decide), hlist "wide_column.query" (by decide),
    hread _ "wide_column.port" (by decide), hread _ "wide_column.allow_filtering" (by decide),
    hrequire]
  rfl

/-- The fault tells the name that was not known. -/
theorem unknownStrategy_injective : Function.Injective unknownStrategy := by
  intro a b h
  simp only [unknownStrategy, SettingsError.invalidValue.injEq, true_and] at h
  exact Text.quoted_injective ((String.append_right_inj _).mp h)

theorem unknownConsistency_injective : Function.Injective unknownConsistency := by
  intro a b h
  simp only [unknownConsistency, SettingsError.invalidValue.injEq, true_and] at h
  exact Text.quoted_injective ((String.append_right_inj _).mp h)

/-- Every contact point has a port. -/
theorem port_of_contactPoint (c : CqlSettings) : ∀ point ∈ c.contactPoints, ':' ∈ point.toList := by
  intro point hpoint
  obtain ⟨host, -, rfl⟩ := List.mem_map.mp hpoint
  split
  · assumption
  · simp [String.toList_append]

end CqlSettings

end StoreQuery
