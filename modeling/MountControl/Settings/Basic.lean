import MountControl.Json.Record
import MountControl.Log.Format

namespace MountControl

inductive SettingName
  | timeoutMs
  | json
  | logLevel
  | logFormat
  deriving DecidableEq

namespace SettingName

def all : List SettingName :=
  [timeoutMs, json, logLevel, logFormat]

def text : SettingName → String
  | timeoutMs => "timeout_ms"
  | json => "json"
  | logLevel => "log_level"
  | logFormat => "log_format"

def byText : List (String × SettingName) :=
  all.map fun n => (n.text, n)

end SettingName

structure Settings where
  timeoutMs : Option UInt64
  json : Bool
  logLevel : Option Severity
  logFormat : Option LogFormat
  deriving DecidableEq

inductive Assignment
  | timeoutMs (value : Option UInt64)
  | json (value : Bool)
  | logLevel (value : Option Severity)
  | logFormat (value : Option LogFormat)
  deriving DecidableEq

namespace Settings

def initial : Settings :=
  ⟨none, false, none, none⟩

def assign (s : Settings) : Assignment → Settings
  | .timeoutMs value => { s with timeoutMs := value }
  | .json value => { s with json := value }
  | .logLevel value => { s with logLevel := value }
  | .logFormat value => { s with logFormat := value }

def withOverrides (s : Settings) (timeoutMs : Option UInt64) (json : Bool) : Settings :=
  { s with timeoutMs := timeoutMs <|> s.timeoutMs, json := s.json || json }

/-- The time limit in milliseconds; zero means none. -/
def timeout? (s : Settings) : Option Nat :=
  match s.timeoutMs with
  | some ms => if ms = 0 then none else some ms.toNat
  | none => none

def memberFromJson (name : SettingName) : Json.Reader Assignment := fun cs =>
  match name with
  | .timeoutMs => do
    let (value, rest) ← Json.readOptional (Json.readWord 0xFFFFFFFFFFFFFFFF) cs
    return (.timeoutMs (value.map .ofNat), rest)
  | .json => do
    let (value, rest) ← Json.readBool cs
    return (.json value, rest)
  | .logLevel => do
    let (value, rest) ← Json.readOptional Severity.fromJson cs
    return (.logLevel value, rest)
  | .logFormat => do
    let (value, rest) ← Json.readOptional LogFormat.fromJson cs
    return (.logFormat value, rest)

/-- Reads settings; those that are not given keep their initial value. -/
def fromJson : Json.Reader Settings := fun cs => do
  let (values, rest) ← Json.readRecord SettingName.byText memberFromJson cs
  return (values.foldl (fun s v => s.assign v.2) initial, rest)

end Settings

end MountControl
