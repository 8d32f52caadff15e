import MountControl.Files.SystemError
import MountControl.Text.Utf8

/-!
Places that output is written to. A sink takes so many bytes in all, and refuses what comes after
them. A call that was only interrupted is made again, so a sink that refuses by interrupting keeps
its writer at it for ever.
-/

namespace MountControl

/-- What keeps output from being written: the sink takes no more, the device reports an error, or a
path has no text form. With `endless` there is no report of it: the writing does not come to an
end. -/
inductive WriteFault
  | noRoom
  | device (e : Errno)
  | pathNotText
  | endless
  deriving DecidableEq

namespace WriteFault

def kind : WriteFault → String
  | noRoom => "WriteZero"
  | device e => e.kind
  | pathNotText => "InvalidData"
  | endless => Errno.interrupted.kind

def message : WriteFault → String
  | noRoom => "failed to write whole buffer"
  | device e => e.message
  | pathNotText => "path contains invalid UTF-8 characters"
  | endless => Errno.interrupted.message

def interrupts : WriteFault → Bool
  | device e => e = Errno.interrupted
  | endless => true
  | _ => false

end WriteFault

/-- The bytes that a place for output takes in all, if limited, and how it fails after them. -/
structure Sink where
  room : Option Nat
  refusal : WriteFault

/-- What a piece of writing comes to: the bytes that were accepted, and what stopped it. -/
structure Written where
  accepted : Bytes
  fault : Option WriteFault
  deriving DecidableEq

namespace Sink

def unbounded : Sink :=
  ⟨none, .noRoom⟩

def after (s : Sink) (n : Nat) : Sink :=
  { s with room := s.room.map (· - n) }

def fits (s : Sink) (n : Nat) : Bool :=
  match s.room with
  | none => true
  | some room => n ≤ room

/-- Writes pieces one after the other. The first that does not fit is accepted in part and ends the
writing; if all fit, it ends with `atEnd`. -/
def write (s : Sink) (atEnd : Option WriteFault) : List Bytes → Written
  | [] => ⟨[], atEnd⟩
  | piece :: pieces =>
    if s.fits piece.length then
      let rest := (s.after piece.length).write atEnd pieces
      ⟨piece ++ rest.accepted, rest.fault⟩
    else ⟨piece.take (s.room.getD 0), some (if s.refusal.interrupts then .endless else s.refusal)⟩

end Sink

end MountControl
