import MountControl.Control.Error
import MountControl.Log.Note

namespace MountControl

/-- What the driver makes of a call: it answers, refuses, stays silent until it is released, or
breaks off. -/
inductive Answer
  | reply (status : Int32) (data : Bytes)
  | refuse (cause : SystemError)
  | silence
  | abort (message : String)
  deriving DecidableEq

/-- A mount as the program meets it: whether a path can be opened, and what a call with a code and
a transfer buffer leads to. -/
structure Driver where
  opening : Path → Option SystemError
  answer : RequestCode → Option Bytes → Answer

inductive Event
  | opened (path : Path)
  | called (code : RequestCode) (buffer : Option Bytes)
  | closed
  | returned
  deriving DecidableEq

/-- An invocation ends without a result by a failure, or because the call broke off in the caller's
own hands. -/
inductive Halt
  | failure (e : ControlError)
  | aborted (message : String)
  deriving DecidableEq

structure Exchange (α : Type) where
  result : Except Halt α
  events : List Event
  notes : List Note

structure Reply where
  status : Int32
  data : Bytes
  deriving DecidableEq

namespace Reply

/-- The data of a reply with status 0; any other status is a failure of the operation. -/
def check (r : Reply) (operation : Operation) : Except ControlError Bytes :=
  if r.status = 0 then .ok r.data else .error (.operationFailed operation r.status)

end Reply

structure Transport where
  cwd : Path
  limit : Option Duration

def resolveMount (cwd path : Path) : Except ControlError Path :=
  match Path.absolute? cwd path with
  | some p => .ok p
  | none => .error (.mountUnavailable path .emptyPath)

/-- The buffer of a request before the call: the input, if the request sends one, and zeros up to
the transfer size. -/
def transferBuffer (code : RequestCode) (input : Option Bytes) : Except ControlError Bytes :=
  let size := code.size.toNat
  match input, code.direction.sendsInput with
  | some bytes, true =>
    if size < bytes.length then .error (.payloadTooLarge code size bytes.length)
    else .ok (bytes ++ List.replicate (size - bytes.length) 0)
  | _, _ => .ok (List.replicate size 0)

def overwrite (buffer data : Bytes) : Bytes :=
  data.take buffer.length ++ buffer.drop data.length

/-- The buffer that the driver is given; a request without a payload has none. -/
def visibleBuffer (code : RequestCode) (buffer : Bytes) : Option Bytes :=
  if code.direction.hasPayload then some buffer else none

namespace Transport

def noteTarget : String := "ifuse_ctl::transport"

def note (severity : Severity) (message : String) (fields : List (String × FieldValue)) : Note :=
  ⟨severity, noteTarget, message, fields, none⟩

def noteOpened (path : Path) : Note :=
  note .debug "opened mount root" [("path", .text path.display)]

def noteIssuing (path : Path) (code : RequestCode) : Note :=
  note .debug "issuing device-control call" [("path", .text path.display),
    ("code", .text code.text), ("direction", .text code.direction.name),
    ("size", .number code.size.toNat)]

def noteReturned (code : RequestCode) (status : Int32) : Note :=
  note .debug "device-control call returned"
    [("code", .text code.text), ("status", .number status.toInt)]

def noteTimedOut (code : RequestCode) (limit : Duration) : Note :=
  note .warn "device-control call timed out"
    [("code", .text code.text), ("timeout_ms", .number (limit.milliseconds % 0x10000000000000000))]

inductive Conclusion
  | answered (status : Int32) (buffer : Bytes)
  | refused (cause : SystemError)
  | gaveUp (limit : Duration)
  | workerDied
  | brokeOff (message : String)
  deriving DecidableEq

/-- How a call ends for the caller. Without a limit a silent driver is waited for, and returns 0. -/
def conclude (limit : Option Duration) (code : RequestCode) (buffer : Bytes) :
    Answer → Conclusion
  | .reply status data =>
    .answered status (if code.direction.hasPayload then overwrite buffer data else buffer)
  | .refuse cause => .refused cause
  | .silence => match limit with
    | some d => .gaveUp d
    | none => .answered 0 buffer
  | .abort message => match limit with
    | some _ => .workerDied
    | none => .brokeOff message

namespace Conclusion

def ending : Conclusion → List Event
  | gaveUp _ => [.returned, .closed]
  | _ => [.closed, .returned]

def result (code : RequestCode) : Conclusion → Except Halt Reply
  | answered status buffer =>
    .ok ⟨status, if code.direction.returnsOutput then buffer else []⟩
  | refused cause => .error (.failure (.protocolRejected code cause))
  | gaveUp limit => .error (.failure (.timedOut code limit))
  | workerDied =>
    .error (.failure (.workerFailed code (.other "device-control worker exited without a reply")))
  | brokeOff message => .error (.aborted message)

def notes (code : RequestCode) : Conclusion → List Note
  | answered status _ => [noteReturned code status]
  | gaveUp limit => [noteTimedOut code limit]
  | _ => []

end Conclusion

/-- Opens the mount, makes one call with the code and closes the mount again. The input's size is
checked first, then the path is resolved. -/
def invoke (t : Transport) (driver : Driver) (mount : Path) (code : RequestCode)
    (input : Option Bytes) : Exchange Reply :=
  match transferBuffer code input with
  | .error e => ⟨.error (.failure e), [.returned], []⟩
  | .ok buffer =>
    match resolveMount t.cwd mount with
    | .error e => ⟨.error (.failure e), [.returned], []⟩
    | .ok path =>
      match driver.opening path with
      | some cause =>
        ⟨.error (.failure (.mountUnavailable path cause)), [.opened path, .returned], []⟩
      | none =>
        let visible := visibleBuffer code buffer
        let conclusion := conclude t.limit code buffer (driver.answer code visible)
        ⟨conclusion.result code,
          [.opened path, .called code visible] ++ conclusion.ending,
          [noteOpened path, noteIssuing path code] ++ conclusion.notes code⟩

end Transport

end MountControl
