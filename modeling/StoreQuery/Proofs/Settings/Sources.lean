import StoreQuery.Proofs.Json.Reading
import StoreQuery.Proofs.Settings.Layers
import StoreQuery.Proofs.Step
import StoreQuery.Proofs.Verdict
import StoreQuery.Settings.Layers
/-!
Settings from their sources. A file, the environment and explicit entries make up three layers, and each
of them holds where the later ones are silent.
-/
namespace StoreQuery.Settings

/-- Names that hide no longer path. -/
def Literal (name : String) : Prop := ∀ p, SettingPath.ofText? name = some p → p = ⟨name, []⟩

structure Sound (s : Settings) : Prop where
  tidy : (Setting.table s.fields).Tidy
  literal : ∀ f ∈ s.fields, Literal f.1

def Says (s : Settings) (p : SettingPath) (v : Setting) : Prop :=
  p.find? s.fields = some v ∧ v.isTable = false

def SilentOn (s : Settings) (p : SettingPath) : Prop :=
  (Setting.table s.fields).Silent p.way

variable {s other : Settings} {p : SettingPath} {v value : Setting} {name : String}
  {entry : String × Setting} {entries fields : List (String × Setting)}

section Entries

theorem sound_init : Sound {} := ⟨.intro .nil (List.forall_mem_nil _), List.forall_mem_nil _⟩

theorem Sound.alter {f : Option Setting → Setting} (h : Sound ⟨fields⟩) (hname : Literal name)
    (hf : ∀ under : Option Setting, (∀ s ∈ under, s.Tidy) → (f under).Tidy) :
    Sound ⟨Setting.alter name f fields⟩ := by
  refine ⟨h.tidy.alter hf, ?_⟩
  intro g hg
  obtain hg | ⟨under, -, rfl⟩ := Setting.mem_alter hg
  · exact h.literal g hg
  · exact hname

theorem Sound.set {text : String} (h : Sound ⟨fields⟩) (hp : SettingPath.ofText? text = some p)
    (hvalue : value.Tidy) : Sound ⟨p.set value fields⟩ := by
  apply h.alter
  · intro q hq
    exact Option.some.inj (hq.symm.trans (SettingPath.ofText?_root hp))
  · exact fun under hunder => SettingPath.tidy_lay hvalue hunder

theorem Sound.layEntry (h : Sound ⟨fields⟩) (hentry : entry.2.Tidy) :
    Sound ⟨layEntry fields entry⟩ := by
  rw [Settings.layEntry]
  split
  · rename_i p hp
    exact h.set hp hentry
  · rename_i hnone
    apply h.alter
    · intro p hp
      cases hnone.symm.trans hp
    · exact fun under hunder => hentry.laidOver hunder

theorem Sound.layEntries (h : Sound ⟨fields⟩) (hentries : ∀ e ∈ entries, e.2.Tidy) :
    Sound ⟨entries.foldl Settings.layEntry fields⟩ := by
  induction entries generalizing fields with
  | nil => exact h
  | cons e entries ih =>
    obtain ⟨he, hentries⟩ := List.forall_mem_cons.mp hentries
    exact ih (h.layEntry he) hentries

theorem sound_ofEntries (h : ∀ e ∈ entries, e.2.Tidy) : (ofEntries entries).Sound :=
  sound_init.layEntries h

end Entries

section Merge

theorem layEntry_of_literal (h : Literal entry.1) (fields : List (String × Setting)) :
    layEntry fields entry = Setting.alter entry.1 (Setting.laidOver entry.2) fields := by
  rw [layEntry]
  split
  · rename_i p hp
    obtain rfl := h p hp
    rfl
  · rfl

theorem layEntries_of_literal (h : ∀ e ∈ entries, Literal e.1) (fields : List (String × Setting)) :
    entries.foldl layEntry fields = Setting.laidOverFields entries fields := by
  induction entries generalizing fields with
  | nil => rw [Setting.laidOverFields, List.foldl_nil]
  | cons e entries ih =>
    obtain ⟨he, hentries⟩ := List.forall_mem_cons.mp h
    rw [List.foldl_cons, layEntry_of_literal he, ih hentries, Setting.laidOverFields]

theorem Sound.ofEntries_fields (h : s.Sound) : ofEntries s.fields = s := by
  have hkept : Setting.laidOverFields s.fields [] = s.fields :=
    Setting.laidOverFields_of_new h.tidy.nodup fun f hf => (h.tidy.value f hf).laidOver_none
  rw [ofEntries, layEntries_of_literal h.literal, hkept]

theorem Sound.merge (h : s.Sound) (hother : other.Sound) : (s.merge other).Sound := by
  rw [Settings.merge, h.ofEntries_fields]
  exact h.layEntries hother.tidy.value

/-- To merge settings is to lay one table over the other. -/
theorem table_merge (h : s.Sound) (hother : other.Sound) :
    Setting.table (s.merge other).fields =
      (Setting.table other.fields).laidOver (some (.table s.fields)) := by
  rw [merge, h.ofEntries_fields, layEntries_of_literal hother.literal]
  cases hfields : other.fields with
  | nil =>
    rw [Setting.laidOver, Setting.laidOverFields]
    rfl
  | cons f fs =>
    rw [Setting.laidOver]
    rfl

theorem Says.merge (h : other.Says p v) (hs : s.Sound) (hother : other.Sound) :
    (s.merge other).Says p v := by
  refine ⟨?_, h.2⟩
  rw [SettingPath.find?_eq, table_merge hs hother]
  have hreach : (Setting.table other.fields).reach p.way = some v := h.1
  exact hother.tidy.reach_laidOver hreach h.2 _

theorem find?_merge_of_silent (hs : s.Sound) (hother : other.Sound) (h : other.SilentOn p) :
    p.find? (s.merge other).fields = p.find? s.fields := by
  rw [SettingPath.find?_eq, table_merge hs hother, hother.tidy.reach_laidOver_of_silent h]
  rfl

end Merge

section Sources

theorem tidy_ofVariableText (text : String) : (ofVariableText text).Tidy := by
  apply Setting.tidy_of_not_table
  unfold ofVariableText
  repeat' split
  all_goals rfl

theorem sound_ofVariables (lead : String) (environment : List (String × String)) :
    (ofVariables lead environment).Sound := by
  apply sound_ofEntries
  intro e he
  obtain ⟨⟨name, text⟩, -, hkey⟩ := List.mem_filterMap.mp he
  obtain ⟨key, -, rfl⟩ := Option.map_eq_some_iff.mp hkey
  exact tidy_ofVariableText text

theorem ofFields_eq (fs : List (String × Json)) :
    Setting.ofFields fs = fs.map fun f => (f.1, Setting.ofJson f.2) := by
  induction fs with
  | nil => rw [Setting.ofFields, List.map_nil]
  | cons f fs ih => rw [Setting.ofFields, ih, List.map_cons]

theorem tidy_ofJson {j : Json} (h : j.Ordered) : (Setting.ofJson j).Tidy := by
  induction j using Json.byParts with
  | whole j ih =>
    cases j with
    | object fs =>
      have hnames : ((Setting.ofFields fs).map Prod.fst) = fs.map Prod.fst := by
        rw [ofFields_eq, List.map_map]
        rfl
      rw [Setting.ofJson]
      constructor
      · change ((Setting.ofFields fs).map Prod.fst).Nodup
        rw [hnames]
        exact Json.Fields.Increasing.nodup (h fs .self)
      · intro g hg
        change g ∈ Setting.ofFields fs at hg
        rw [ofFields_eq] at hg
        obtain ⟨f, hf, rfl⟩ := List.mem_map.mp hg
        have hpart : f.2 ∈ (Json.object fs).parts := List.mem_map_of_mem hf
        exact ih f.2 hpart (h.part hpart)
    | integer n =>
      apply Setting.tidy_of_not_table
      rw [Setting.ofJson]
      split <;> rfl
    | _ =>
      rw [Setting.ofJson]
      exact Setting.tidy_of_not_table rfl

theorem sound_ofFile {path : String} {content : FileContent} (h : ofFile path content = .ok s) :
    s.Sound := by
  cases content with
  | text text =>
    simp only [ofFile] at h
    split at h
    · cases h
    · rename_i j hj
      cases h
      exact sound_ofEntries (tidy_ofJson (Json.ordered_ofText? hj)).value
  | _ => cases h

end Sources

section Explicit

def path? (entry : String × String) : Option SettingPath := SettingPath.ofText? entry.1.toLower

def misplaced? (entry : String × String) : Option SettingsError :=
  match path? entry with
  | some _ => none
  | none => some (.invalidValue entry.1.toLower badPath)

def placed (entry : String × String) : Except SettingsError (SettingPath × Setting) :=
  match path? entry with
  | some p => .ok (p, .text entry.2)
  | none => .error (.invalidValue entry.1.toLower badPath)

def layPlaced (fields : List (String × Setting)) (place : SettingPath × Setting) :
    List (String × Setting) := place.1.set place.2 fields

/-- An entry holds unless a later one meets its path. -/
structure OfEntries (entries : List (String × String)) (s : Settings) : Prop extends Sound s where
  holds : ∀ before entry after, entries = before ++ entry :: after →
    ∀ p, path? entry = some p → (∀ i, .index i ∈ p.steps → 0 ≤ i) →
      (∀ e ∈ after, ∀ q, path? e = some q → SettingPath.Parting p.way q.way) → s.Says p (.text entry.2)

variable {entries : List (String × String)} {places : List (SettingPath × Setting)}

theorem ofMap_eq (entries : List (String × String)) :
    ofMap entries = (entries.mapM placed).map fun places => ⟨places.foldl layPlaced []⟩ := by
  have hplaced : (fun e : String × String =>
      let key := e.1.toLower
      match SettingPath.ofText? key with
      | some p => Except.ok (p, Setting.text e.2)
      | none => Except.error (SettingsError.invalidValue key badPath)) = placed := by
    funext e
    rw [placed, path?]
  rw [← hplaced, ofMap]
  rfl

def Places (entry : String × String) (place : SettingPath × Setting) : Prop :=
  path? entry = some place.1 ∧ place.2 = .text entry.2

theorem verdict_placed (entry : String × String) :
    Verdict (misplaced? entry) (placed entry) (Places entry) := by
  rw [misplaced?, placed]
  split
  · rename_i p hp
    exact .accept ⟨hp, rfl⟩
  · exact .refuse _

theorem Sound.layPlaces (h : Sound ⟨fields⟩) (hplaces : List.Forall₂ Places entries places) :
    Sound ⟨places.foldl layPlaced fields⟩ := by
  induction hplaces generalizing fields with
  | nil => exact h
  | @cons entry place _ _ hplace _ ih =>
    apply ih
    rw [layPlaced, hplace.2]
    exact h.set hplace.1 (Setting.tidy_of_not_table rfl)

theorem find?_layPlaces (hplaces : List.Forall₂ Places entries places)
    (h : ∀ e ∈ entries, ∀ q, path? e = some q → SettingPath.Parting p.way q.way)
    (fields : List (String × Setting)) :
    p.find? (places.foldl layPlaced fields) = p.find? fields := by
  induction hplaces generalizing fields with
  | nil => rfl
  | @cons entry place _ _ hplace _ ih =>
    obtain ⟨hentry, hentries⟩ := List.forall_mem_cons.mp h
    rw [List.foldl_cons, ih hentries, layPlaced]
    exact SettingPath.find?_set_of_parting (hentry _ hplace.1) fields

theorem find?_placed {before after : List (String × String)} {entry : String × String}
    (hplaces : List.Forall₂ Places (before ++ entry :: after) places) (hp : path? entry = some p)
    (hindex : ∀ i, .index i ∈ p.steps → 0 ≤ i)
    (hafter : ∀ e ∈ after, ∀ q, path? e = some q → SettingPath.Parting p.way q.way)
    (fields : List (String × Setting)) :
    p.find? (places.foldl layPlaced fields) = some (.text entry.2) := by
  induction before generalizing places fields with
  | nil =>
    cases hplaces with
    | @cons _ place _ later hplace hlater =>
      obtain rfl : place.1 = p := Option.some.inj (hplace.1.symm.trans hp)
      rw [List.foldl_cons, find?_layPlaces hlater hafter, layPlaced, hplace.2]
      exact SettingPath.find?_set hindex rfl fields
  | cons e before ih =>
    cases hplaces with
    | cons _ hmore => exact ih hmore _

theorem ofEntries_of_places (h : List.Forall₂ Places entries places) :
    OfEntries entries ⟨places.foldl layPlaced []⟩ := by
  constructor
  · exact sound_init.layPlaces h
  · rintro before entry after rfl p hp hindex hafter
    exact ⟨find?_placed h hp hindex hafter [], rfl⟩

/-- Explicit entries are refused for the first name that is no path. -/
theorem verdict_ofMap (entries : List (String × String)) :
    Verdict (entries.findSome? misplaced?) (ofMap entries) (OfEntries entries) := by
  rw [ofMap_eq]
  exact (Verdict.mapM fun entry _ => verdict_placed entry).map fun _ => ofEntries_of_places

end Explicit

section Layers

/-- Three layers, of which the later ones win. -/
structure Layered (file environment explicit result : Settings) : Prop extends Sound result where
  of_explicit : ∀ p v, explicit.Says p v → result.Says p v
  of_environment : ∀ p v, explicit.SilentOn p → environment.Says p v → result.Says p v
  of_file : ∀ p, explicit.SilentOn p → environment.SilentOn p →
    p.find? result.fields = p.find? file.fields

theorem layered_merge {file environment explicit : Settings} (hfile : file.Sound)
    (henvironment : environment.Sound) (hexplicit : explicit.Sound) :
    Layered file environment explicit ((file.merge environment).merge explicit) := by
  have hmerged := hfile.merge henvironment
  constructor
  · exact hmerged.merge hexplicit
  · exact fun p v h => h.merge hmerged hexplicit
  · intro p v hsilent h
    refine ⟨?_, h.2⟩
    rw [find?_merge_of_silent hmerged hexplicit hsilent]
    exact (h.merge hfile henvironment).1
  · intro p hsilent henvsilent
    rw [find?_merge_of_silent hmerged hexplicit hsilent,
      find?_merge_of_silent hfile henvironment henvsilent]

def fromFile (file : Option (String × FileContent)) : Except SettingsError Settings :=
  match file with
  | some (path, content) => ofFile path content
  | none => .ok {}

theorem sound_fromFile {file : Option (String × FileContent)} (h : fromFile file = .ok s) :
    s.Sound := by
  cases file with
  | some f => exact sound_ofFile h
  | none =>
    cases h
    exact sound_init

theorem resolve_eq {σ : Type} (file : Option (String × FileContent)) (lead : String)
    (environment : List (String × String)) (explicit : Settings) :
    (resolve file lead environment explicit : Step σ (Except SettingsError Settings)) =
      match fromFile file with
      | .error e => pure (.error e)
      | .ok base =>
        Step.event .settingsLoaded [("file", (file.map Prod.fst).getD ""), ("env_prefix", lead)] >>=
          fun _ => pure (.ok ((base.merge (ofVariables lead environment)).merge explicit)) := by
  cases file <;> rfl

/-- Settings are refused only for their file. -/
theorem verdict_resolve {σ : Type} (file : Option (String × FileContent)) (lead : String)
    (environment : List (String × String)) {explicit : Settings} (hexplicit : explicit.Sound) (state : σ) :
    Verdict (faultIn (fromFile file)) ((resolve file lead environment explicit).run state).answer
      fun result => ∃ base, fromFile file = .ok base ∧
        Layered base (ofVariables lead environment) explicit result := by
  cases hfile : fromFile file with
  | error e =>
    have hanswer : ((resolve file lead environment explicit).run state).answer = .error e := by
      rw [resolve_eq, hfile]
      rfl
    rw [hanswer]
    exact .refuse e
  | ok base =>
    have hanswer : ((resolve file lead environment explicit).run state).answer =
        .ok ((base.merge (ofVariables lead environment)).merge explicit) := by
      rw [resolve_eq, hfile]
      rfl
    rw [hanswer]
    have henvironment := sound_ofVariables lead environment
    exact .accept ⟨base, rfl, layered_merge (sound_fromFile hfile) henvironment hexplicit⟩

end Layers

end StoreQuery.Settings
