import MountControl.Control.Transport

namespace MountControl

inductive Outcome
  | cacheReset
  | connections (snapshot : Snapshot)
  deriving DecidableEq

namespace Outcome

def operation : Outcome → Operation
  | cacheReset => .resetCache
  | connections _ => .showConnections

end Outcome

namespace Operation

def decode (op : Operation) (data : Bytes) : Except ControlError Outcome :=
  match op with
  | resetCache => .ok .cacheReset
  | showConnections =>
    match Snapshot.ofBytes data with
    | .ok s => .ok (.connections s)
    | .error fault => .error (.malformedReply .showConnections fault)

def noteTarget : String := "ifuse_ctl::dispatch"

def span (op : Operation) (mount : Path) : Span where
  name := "control"
  severity := .info
  target := noteTarget
  fields := [("operation", .text op.name), ("mount", .text mount.display)]

end Operation

namespace Outcome

def note : Outcome → Note
  | cacheReset => ⟨.info, Operation.noteTarget, "metadata cache reset", [], none⟩
  | connections s =>
    ⟨.debug, Operation.noteTarget, "connection pool snapshot",
      [("snapshot", .text s.describe)], none⟩

end Outcome

namespace Transport

def run (t : Transport) (driver : Driver) (op : Operation) (mount : Path) : Exchange Outcome :=
  let exchange := t.invoke driver mount op.code none
  let inSpan (notes : List Note) := notes.map fun n => { n with span := some (op.span mount) }
  match exchange.result with
  | .error halt => ⟨.error halt, exchange.events, inSpan exchange.notes⟩
  | .ok reply =>
    match reply.check op >>= op.decode with
    | .error e => ⟨.error (.failure e), exchange.events, inSpan exchange.notes⟩
    | .ok outcome => ⟨.ok outcome, exchange.events, inSpan (exchange.notes ++ [outcome.note])⟩

/-- Carries out the operation that a command names. An unknown name fails before the mount is
touched. -/
def execute (t : Transport) (driver : Driver) (command : String) (mount : Path) :
    Exchange Outcome :=
  match Operation.ofText command with
  | .error _ => ⟨.error (.failure (.invalidCommand command)), [.returned], []⟩
  | .ok op => t.run driver op mount

end Transport

end MountControl
