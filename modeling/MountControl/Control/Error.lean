import MountControl.Files.Path
import MountControl.Files.SystemError
import MountControl.Request.Operation

namespace MountControl

structure Duration where
  nanoseconds : Nat
  deriving DecidableEq

namespace Duration

def ofMilliseconds (ms : Nat) : Duration where
  nanoseconds := ms * 1000000

def milliseconds (d : Duration) : Nat :=
  d.nanoseconds / 1000000

end Duration

inductive ControlError
  | invalidCommand (text : String)
  | mountUnavailable (path : Path) (cause : SystemError)
  | protocolRejected (code : RequestCode) (cause : SystemError)
  | operationFailed (operation : Operation) (status : Int32)
  | malformedReply (operation : Operation) (cause : ProtocolFault)
  | timedOut (code : RequestCode) (limit : Duration)
  | workerFailed (code : RequestCode) (cause : SystemError)
  | payloadTooLarge (code : RequestCode) (size actual : Nat)
  deriving DecidableEq

namespace ControlError

def message : ControlError → String
  | invalidCommand text => s!"unrecognized command: {text}"
  | mountUnavailable path _ => s!"cannot open mount path {path.display}"
  | protocolRejected code _ => s!"ioctl {code.text} rejected"
  | operationFailed operation status =>
    s!"{operation.name} failed: driver reported status {status.toInt}"
  | malformedReply operation _ => s!"{operation.name} returned a malformed reply"
  | timedOut code limit => s!"ioctl {code.text} did not complete within {limit.milliseconds}ms"
  | workerFailed code _ => s!"device-control worker for ioctl {code.text} failed"
  | payloadTooLarge code size actual =>
    s!"{actual}-byte payload exceeds the {size}-byte transfer size of ioctl {code.text}"

def cause? : ControlError → Option String
  | mountUnavailable _ cause | protocolRejected _ cause | workerFailed _ cause =>
    some cause.message
  | malformedReply _ cause => some cause.message
  | _ => none

def chain (e : ControlError) : String :=
  match e.cause? with
  | some cause => e.message ++ ": " ++ cause
  | none => e.message

def exitCode : ControlError → UInt8
  | invalidCommand _ | payloadTooLarge _ _ _ => 2
  | mountUnavailable _ _ => 3
  | protocolRejected _ _ => 4
  | operationFailed _ _ | malformedReply _ _ => 5
  | timedOut _ _ => 6
  | workerFailed _ _ => 1

end ControlError

end MountControl
