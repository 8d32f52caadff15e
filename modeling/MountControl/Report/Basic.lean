import MountControl.Control.Dispatch
import MountControl.Report.Sink

namespace MountControl

structure Report where
  operation : Operation
  mount : Path
  connections : Option Snapshot
  deriving DecidableEq

inductive ReportFormat
  | text
  | json
  deriving DecidableEq

structure Rendering where
  pieces : List String
  fault : Option WriteFault

namespace PoolCounter

def caption : PoolCounter → String
  | inUseShort => "In-Use ShortOp Conn"
  | inUseLong => "In-Use Conn"
  | inUseOneTime => "In-Use OneTimeUse Conn"
  | freeShort => "Free ShortOp Conn"
  | freeLong => "Free Conn"

end PoolCounter

namespace Operation

def title (op : Operation) : String :=
  String.ofList (op.name.toList.map fun c => if c = '_' then ' ' else c)

end Operation

namespace Report

def ofOutcome (outcome : Outcome) (mount : Path) : Report :=
  ⟨outcome.operation, mount, match outcome with
    | .cacheReset => none
    | .connections s => some s⟩

def counterLines (s : Snapshot) : List String :=
  PoolCounter.all.map fun c => c.caption ++ ": " ++ toString (s.get c).toNat ++ "\n"

def plain (r : Report) : Rendering where
  pieces := [r.operation.title, ": ", r.mount.display, "\n"] ++
    (r.connections.map counterLines).getD [] ++ ["Done!\n"]
  fault := none

/-- The report as one line of JSON. A mount that is no text ends it after the member's name. -/
def json (r : Report) : Rendering :=
  let head := ["\x7b\"command\":", r.operation.toJson, ",\"mount\":"]
  match Utf8.decode? r.mount with
  | none => ⟨head, some .pathNotText⟩
  | some mount =>
    let tail := match r.connections with
      | none => []
      | some s => [",\"connections\":", s.toJson]
    ⟨head ++ [Json.quote mount] ++ tail ++ ["\x7d", "\n"], none⟩

def render (r : Report) : ReportFormat → Rendering
  | .text => r.plain
  | .json => r.json

def write (r : Report) (format : ReportFormat) (sink : Sink) : Written :=
  let rendering := r.render format
  sink.write rendering.fault (rendering.pieces.map Utf8.encode)

end Report

end MountControl
