import StoreQuery.Text.Blank
/-!
Log entries and their lines. A line is one JSON object of strings: the event, the severity, then the
fields by increasing key.
-/
namespace StoreQuery

inductive Severity where
  | trace
  | info
  | warn
  | error
  deriving DecidableEq, Repr

namespace Severity

def name : Severity → String
  | .trace => "TRACE"
  | .info => "INFO"
  | .warn => "WARN"
  | .error => "ERROR"

def ofName? (s : String) : Option Severity :=
  match Text.fold s with
  | "trace" => some .trace
  | "info" => some .info
  | "warn" => some .warn
  | "error" => some .error
  | _ => none

end Severity

inductive Event where
  | queryStart
  | pageFetched
  | queryExhausted
  | queryFailed
  | ambiguousResult
  | sourceRegistered
  | settingsLoaded
  | entryExpired
  deriving DecidableEq, Repr

namespace Event

def name : Event → String
  | .queryStart => "QUERY_START"
  | .pageFetched => "PAGE_FETCHED"
  | .queryExhausted => "QUERY_EXHAUSTED"
  | .queryFailed => "QUERY_FAILED"
  | .ambiguousResult => "AMBIGUOUS_RESULT"
  | .sourceRegistered => "SOURCE_REGISTERED"
  | .settingsLoaded => "SETTINGS_LOADED"
  | .entryExpired => "ENTRY_EXPIRED"

def severity : Event → Severity
  | .queryStart | .pageFetched | .queryExhausted | .entryExpired => .trace
  | .sourceRegistered | .settingsLoaded => .info
  | .ambiguousResult => .warn
  | .queryFailed => .error

end Event

structure LogEntry where
  severity : Severity
  event : String
  fields : List (String × String)
  deriving DecidableEq, Repr

namespace LogEntry

def of (event : Event) (fields : List (String × String)) : LogEntry :=
  ⟨event.severity, event.name, fields⟩

def hexDigit (n : Nat) : Char := if n < 10 then Char.ofNat (48 + n) else Char.ofNat (87 + n)

def isControl (c : Char) : Bool := c.toNat < 32 || (127 ≤ c.toNat && c.toNat < 160)

/-- Control characters are all below 256, so two hexadecimal digits after two zeros spell them. -/
def escapedChar (c : Char) : List Char :=
  if c = '"' then ['\\', '"']
  else if c = '\\' then ['\\', '\\']
  else if c = '\n' then ['\\', 'n']
  else if c = '\r' then ['\\', 'r']
  else if c = '\t' then ['\\', 't']
  else if isControl c then
    ['\\', 'u', '0', '0', hexDigit (c.toNat / 16), hexDigit (c.toNat % 16)]
  else [c]

def escaped (s : String) : List Char := s.toList.flatMap escapedChar

/-- A quoted name, a colon and a quoted text. -/
def member (key value : String) : List Char :=
  '"' :: (escaped key ++ '"' :: ':' :: '"' :: (escaped value ++ ['"']))

def insertField (f : String × String) : List (String × String) → List (String × String)
  | [] => [f]
  | g :: gs => if f.1 < g.1 then f :: g :: gs else g :: insertField f gs

/-- By increasing key; fields of one key keep their order. -/
def sortFields (fields : List (String × String)) : List (String × String) :=
  fields.foldl (fun sorted f => insertField f sorted) []

/-- The line without the line break that ends it. -/
def body (e : LogEntry) : List Char :=
  '\x7b' :: (member "event" e.event ++ ',' :: member "severity" e.severity.name ++
    (sortFields e.fields).flatMap (fun f => ',' :: member f.1 f.2) ++ ['\x7d'])

def line (e : LogEntry) : String := String.ofList (e.body ++ ['\n'])

end LogEntry

end StoreQuery
