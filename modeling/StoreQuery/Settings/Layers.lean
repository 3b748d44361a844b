import StoreQuery.Json.Reader
import StoreQuery.Settings.Path
import StoreQuery.Step
import StoreQuery.Text.Lower
/-!
Settings from a JSON file, from environment variables and from explicit entries, and settings laid over
each other: of two layers the later one wins, table by table.
-/
namespace StoreQuery

inductive SettingsError where
  | unreadable (path reason : String)
  | malformed (path reason : String)
  | invalidValue (key reason : String)
  | missing (key : String)
  deriving DecidableEq, Repr

namespace SettingsError

def code : SettingsError → String
  | .unreadable _ _ => "CONFIG_IO"
  | .malformed _ _ => "CONFIG_MALFORMED"
  | .invalidValue _ _ => "CONFIG_INVALID_VALUE"
  | .missing _ => "CONFIG_MISSING"

def message : SettingsError → String
  | .unreadable path reason => "cannot read settings file " ++ path ++ ": " ++ reason
  | .malformed path reason => "malformed settings file " ++ path ++ ": " ++ reason
  | .invalidValue key reason => "invalid value for " ++ key ++ ": " ++ reason
  | .missing key => "missing required setting " ++ key

end SettingsError

/-- What was found where a settings file should be. -/
inductive FileContent where
  | missing
  | directory
  | text (s : String)
  deriving DecidableEq, Repr

structure Settings where
  fields : List (String × Setting) := []

namespace Settings

def badPath : String := "malformed path"

/-- Lays one entry over the settings. Its name is read as a path, or taken literally if it is none. -/
def layEntry (fields : List (String × Setting)) (entry : String × Setting) :
    List (String × Setting) :=
  match SettingPath.ofText? entry.1 with
  | some p => p.set entry.2 fields
  | none => Setting.alter entry.1 (Setting.laidOver entry.2) fields

def ofEntries (entries : List (String × Setting)) : Settings := ⟨entries.foldl layEntry []⟩

/-- Explicit entries. Names are in lower case here, and each has to be a path. -/
def ofMap (entries : List (String × String)) : Except SettingsError Settings := do
  let placed ← entries.mapM fun (key, value) =>
    let key := key.toLower
    match SettingPath.ofText? key with
    | some p => Except.ok (p, Setting.text value)
    | none => Except.error (SettingsError.invalidValue key badPath)
  return ⟨placed.foldl (fun fields e => e.1.set e.2 fields) []⟩

/-- The setting that the text of a variable stands for: a truth value, a number, or the text. -/
def ofVariableText (s : String) : Setting :=
  if s.toLower = "true" then .boolean true
  else if s.toLower = "false" then .boolean false
  else match Decimal.int64? s.toList with
    | some n => .integer n
    | none => match Double.ofText? s.toList with
      | some x => .float x
      | none => .text s

/-- Every pair of underscores becomes a point, from left to right. -/
def pointed : List Char → List Char
  | '_' :: '_' :: cs => '.' :: pointed cs
  | c :: cs => c :: pointed cs
  | [] => []

/-- The name of the setting that a variable sets, if the variable has the prefix. -/
def variableKey? (lead name : String) : Option String :=
  let pattern := Text.lower (lead.toList ++ ['_'])
  let name := Text.lower name.toList
  if pattern.isPrefixOf name then some (String.ofList (pointed (name.drop pattern.length)))
  else none

/-- Environment variables whose names start with a prefix and an underscore. -/
def ofVariables (lead : String) (environment : List (String × String)) : Settings :=
  ofEntries (environment.filterMap fun (name, value) =>
    (variableKey? lead name).map fun key => (key, ofVariableText value))

/-- A JSON file; one that holds anything but an object has no settings. -/
def ofFile (path : String) : FileContent → Except SettingsError Settings
  | .missing => .error (.unreadable path "no such file")
  | .directory => .error (.malformed path "not a file")
  | .text s =>
    match Json.ofText? s with
    | none => .error (.malformed path "not JSON")
    | some j => .ok (ofEntries (Setting.ofJson j).fields)

/-- Lays other settings over these. -/
def merge (s other : Settings) : Settings :=
  ⟨other.fields.foldl layEntry (ofEntries s.fields).fields⟩

/-- The file, the environment over it, and the explicit settings over both. -/
def resolve {σ : Type} (file : Option (String × FileContent)) (lead : String)
    (environment : List (String × String)) (explicit : Settings) :
    Step σ (Except SettingsError Settings) :=
  let base := match file with
    | some (path, content) => ofFile path content
    | none => .ok {}
  match base with
  | .error e => pure (.error e)
  | .ok base => do
    Step.event .settingsLoaded
      [("file", (file.map Prod.fst).getD ""), ("env_prefix", lead)]
    pure (.ok ((base.merge (ofVariables lead environment)).merge explicit))

/-- The setting of a key. A key that is no path is an error. -/
def find? (s : Settings) (key : String) : Except SettingsError (Option Setting) :=
  match SettingPath.ofText? key with
  | some p => .ok (p.find? s.fields)
  | none => .error (.invalidValue key badPath)

/-- A scalar as text. -/
def get? (s : Settings) (key : String) : Option String :=
  match s.find? key with
  | .ok (some v) => v.asText?
  | _ => none

def require (s : Settings) (key : String) : Except SettingsError String :=
  match s.get? key with
  | some v => .ok v
  | none => .error (.missing key)

/-- A setting read as a type, if it is there. -/
def read {α : Type} (s : Settings) (as : Setting → Option α) (key : String) :
    Except SettingsError (Option α) :=
  match s.find? key with
  | .error e => .error e
  | .ok none => .ok none
  | .ok (some v) =>
    match as v with
    | some a => .ok (some a)
    | none => .error (.invalidValue key "not of the type asked for")

def insertNumbered (x : UInt64 × String) : List (UInt64 × String) → List (UInt64 × String)
  | [] => [x]
  | y :: ys => if x.1 < y.1 then x :: y :: ys else y :: insertNumbered x ys

/-- The texts under numbered names, by increasing number. -/
def numbered (fields : List (String × Setting)) : List String :=
  let found := fields.filterMap fun f => do
    return (← Decimal.uint64? f.1.toList, ← f.2.asText?)
  (found.foldl (fun sorted x => insertNumbered x sorted) []).map Prod.snd

/-- The values of a list setting: a scalar, an array, or numbered fields. -/
def enumerate (s : Settings) (key : String) : List String :=
  match s.find? key with
  | .ok (some v) =>
    match v.asText?, v with
    | some t, _ => [t]
    | none, .array items => items.filterMap Setting.asText?
    | none, .table fields => numbered fields
    | none, _ => []
  | _ => []

end Settings

end StoreQuery
