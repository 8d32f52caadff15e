import MountControl.Request.Code
import MountControl.Request.Snapshot
import MountControl.Text.Blank
import MountControl.Text.LowerCase

namespace MountControl

inductive Operation
  | resetCache
  | showConnections
  deriving DecidableEq

def driverType : UInt32 := 0xEE

namespace Operation

def all : List Operation :=
  [resetCache, showConnections]

def name : Operation → String
  | resetCache => "reset_cache"
  | showConnections => "show_connections"

def description : Operation → String
  | resetCache => "invalidate all caches"
  | showConnections => "show all established connections"

def number : Operation → UInt32
  | resetCache => 0
  | showConnections => 1

def code : Operation → RequestCode
  | resetCache => .assemble .none driverType resetCache.number 0
  | showConnections => .assemble .read driverType showConnections.number (.ofNat Snapshot.wireSize)

def byName : List (String × Operation) :=
  all.map fun op => (op.name, op)

def ofText (text : String) : Except ProtocolFault Operation :=
  match byName.lookup (lower (String.ofList (trim text.toList))) with
  | some op => .ok op
  | none => .error (.unknownOperation text)

def fromJson : Json.Reader Operation :=
  Json.readName byName

def toJson (op : Operation) : String :=
  Json.quote op.name

end Operation

end MountControl
