import MountControl.Json.Record
import MountControl.Log.Note
import MountControl.Text.LowerCase

namespace MountControl

inductive LogFormat
  | plaintext
  | json
  deriving DecidableEq

namespace LogFormat

def all : List LogFormat :=
  [plaintext, json]

def name : LogFormat → String
  | plaintext => "plaintext"
  | json => "json"

def byName : List (String × LogFormat) :=
  all.map fun f => (f.name, f)

def fromJson : Json.Reader LogFormat :=
  Json.readName byName

end LogFormat

namespace Severity

def byName : List (String × Severity) :=
  all.map fun s => (s.name, s)

def fromJson : Json.Reader Severity :=
  Json.readName byName

end Severity

def findChoice {α : Type} (choices : List (String × α)) (ignoreCase : Bool) (text : String) :
    Option α :=
  let fold (s : String) : String :=
    if ignoreCase then String.ofList (s.toList.map Char.toLower) else s
  choices.findSome? fun (name, value) => if fold name = fold text then some value else none

end MountControl
