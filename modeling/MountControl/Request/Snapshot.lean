import MountControl.Json.Record
import MountControl.Json.Writer
import MountControl.Request.Fault
import MountControl.Text.Utf8

namespace MountControl

/-- The counters of the connection pool, in the order in which the driver sends them. -/
inductive PoolCounter
  | inUseShort
  | inUseLong
  | inUseOneTime
  | freeShort
  | freeLong
  deriving DecidableEq

namespace PoolCounter

def all : List PoolCounter :=
  [inUseShort, inUseLong, inUseOneTime, freeShort, freeLong]

def name : PoolCounter → String
  | inUseShort => "in_use_short"
  | inUseLong => "in_use_long"
  | inUseOneTime => "in_use_one_time"
  | freeShort => "free_short"
  | freeLong => "free_long"

def byName : List (String × PoolCounter) :=
  all.map fun c => (c.name, c)

end PoolCounter

structure Snapshot where
  inUseShort : UInt32
  inUseLong : UInt32
  inUseOneTime : UInt32
  freeShort : UInt32
  freeLong : UInt32
  deriving DecidableEq

def wordBytes (w : UInt32) : Bytes :=
  [.ofNat w.toNat, .ofNat (w.toNat / 0x100), .ofNat (w.toNat / 0x10000),
    .ofNat (w.toNat / 0x1000000)]

def wordOf (b₀ b₁ b₂ b₃ : UInt8) : UInt32 :=
  .ofNat (b₀.toNat + 0x100 * b₁.toNat + 0x10000 * b₂.toNat + 0x1000000 * b₃.toNat)

namespace Snapshot

def wireSize : Nat :=
  PoolCounter.all.length * 4

def get (s : Snapshot) : PoolCounter → UInt32
  | .inUseShort => s.inUseShort
  | .inUseLong => s.inUseLong
  | .inUseOneTime => s.inUseOneTime
  | .freeShort => s.freeShort
  | .freeLong => s.freeLong

def ofCounters (value : PoolCounter → UInt32) : Snapshot :=
  ⟨value .inUseShort, value .inUseLong, value .inUseOneTime, value .freeShort, value .freeLong⟩

def zero : Snapshot :=
  ofCounters fun _ => 0

def toBytes (s : Snapshot) : Bytes :=
  PoolCounter.all.flatMap fun c => wordBytes (s.get c)

def words : Bytes → List UInt32
  | b₀ :: b₁ :: b₂ :: b₃ :: rest => wordOf b₀ b₁ b₂ b₃ :: words rest
  | _ => []

/-- Reads a snapshot that the driver sent; any other size is refused. -/
def ofBytes (bytes : Bytes) : Except ProtocolFault Snapshot :=
  match bytes.length == wireSize, words bytes with
  | true, [a, b, c, d, e] => .ok ⟨a, b, c, d, e⟩
  | _, _ => .error (.replySize wireSize bytes.length)

def ofList? (values : List (PoolCounter × UInt32)) : Option Snapshot := do
  return ⟨← values.lookup .inUseShort, ← values.lookup .inUseLong, ← values.lookup .inUseOneTime,
    ← values.lookup .freeShort, ← values.lookup .freeLong⟩

def fromJson : Json.Reader Snapshot := fun cs => do
  let counter (_ : PoolCounter) : Json.Reader UInt32 := fun cs =>
    (Json.readWord 0xFFFFFFFF cs).map fun (n, rest) => (.ofNat n, rest)
  let (values, rest) ← Json.readRecord PoolCounter.byName counter cs
  match ofList? values with
  | some s => .ok (s, rest)
  | none => .error .mismatched

def toJson (s : Snapshot) : String :=
  Json.object (PoolCounter.all.map fun c => (c.name, toString (s.get c).toNat))

def describe (s : Snapshot) : String :=
  let counters := PoolCounter.all.map fun c => c.name ++ ": " ++ toString (s.get c).toNat
  "ConnectionPoolSnapshot \x7b " ++ String.intercalate ", " counters ++ " \x7d"

end Snapshot

end MountControl
