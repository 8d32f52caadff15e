import MountControl.Json.Record
import MountControl.Json.Writer

namespace MountControl

inductive Direction
  | none
  | write
  | read
  | readWrite
  deriving DecidableEq

namespace Direction

def name : Direction → String
  | none => "none"
  | write => "write"
  | read => "read"
  | readWrite => "read-write"

def byName : List (String × Direction) :=
  [none, write, read, readWrite].map fun d => (d.name, d)

def bits : Direction → UInt32
  | none => 0
  | write => 1
  | read => 2
  | readWrite => 3

def ofBits (word : UInt32) : Direction :=
  if word &&& 3 = 0 then none
  else if word &&& 3 = 1 then write
  else if word &&& 3 = 2 then read
  else readWrite

def hasPayload : Direction → Bool
  | none => false
  | _ => true

def sendsInput : Direction → Bool
  | write | readWrite => true
  | _ => false

def returnsOutput : Direction → Bool
  | read | readWrite => true
  | _ => false

def fromJson : Json.Reader Direction :=
  Json.readName byName

def toJson (d : Direction) : String :=
  Json.quote d.name

end Direction

end MountControl
