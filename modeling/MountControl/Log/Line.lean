import MountControl.Json.Writer
import MountControl.Log.Format
import MountControl.Log.Note
import MountControl.Number.Numeral

namespace MountControl

/-- A note as it is written. A plain line may be coloured. -/
inductive LogLine
  | plain (text : String) (coloured : Bool)
  | json (text : String)
  deriving DecidableEq

/-- What is written of a line, before the end of the line. The time stamp that goes before it, and
in a build for tests the place in the source, are left out. -/
def LogLine.text : LogLine → String
  | plain text _ => text
  | json text => text

namespace FieldValue

def shown : FieldValue → String
  | text s => s
  | number n => toString n

def json : FieldValue → String
  | text s => Json.quote s
  | number n => toString n

end FieldValue

namespace Note

/-- How a character of a message stands in a plain line: characters that could steer a terminal are
shown by their code. -/
def shownChar (c : Char) : List Char :=
  if c ∈ ['\x1b', '\x07', '\x08', '\x0c', '\x7f'] then
    ['\\', 'x'] ++ zeroPadded 2 (hexadecimal c.toNat)
  else if '\x80' ≤ c ∧ c ≤ '\x9f' then ['\\', 'u', '\x7b'] ++ hexadecimal c.toNat ++ ['\x7d']
  else [c]

def fieldsText (fields : List (String × FieldValue)) : String :=
  String.intercalate " " (fields.map fun (name, value) => name ++ "=" ++ value.shown)

def paddedLabel (s : Severity) : String :=
  String.ofList (List.replicate (5 - s.label.length) ' ') ++ s.label

def plainText (n : Note) : String :=
  let span := match n.span with
    | none => []
    | some s => [s.name ++ "\x7b" ++ fieldsText s.fields ++ "\x7d:"]
  let message := String.ofList (n.message.toList.flatMap shownChar)
  let fields := if n.fields.isEmpty then [] else [fieldsText n.fields]
  String.intercalate " " ([paddedLabel n.severity] ++ span ++ [n.target ++ ":", message] ++ fields)

def members (fields : List (String × FieldValue)) : List (String × String) :=
  fields.map fun (name, value) => (name, value.json)

def jsonText (n : Note) : String :=
  let fields := Json.object (("message", Json.quote n.message) :: members n.fields)
  let span := match n.span with
    | none => []
    | some s =>
      let object := Json.object (members s.fields ++ [("name", Json.quote s.name)])
      [("span", object), ("spans", "[" ++ object ++ "]")]
  Json.object ([("level", Json.quote n.severity.label), ("fields", fields),
    ("target", Json.quote n.target)] ++ span)

def render (n : Note) (format : LogFormat) (coloured : Bool) : LogLine :=
  match format with
  | .plaintext => .plain n.plainText coloured
  | .json => .json n.jsonText

end Note

end MountControl
